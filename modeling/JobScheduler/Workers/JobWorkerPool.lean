import JobScheduler.Library.Machine
import JobScheduler.Workers.QueuedJobWorker

/-! `JobWorkerPoolHostedService` and the process around it: the loops of its workers, the
requests of clients, one database and one clock. What happens between two `await`s is one
step; the steps of different loops and the requests come in any order. A process that dies
takes no further step.
-/

namespace JobScheduler

open Library

/-- `JobWorkerOptions`, as far as it does not set delays. -/
structure JobWorkerOptions where
  workerCount : Int
  leaseSeconds : Int
  deriving DecidableEq, Repr

namespace JobWorkerOptions

/-- The default values. -/
def unset : JobWorkerOptions := ⟨1, 60⟩

def validWorkerCount (options : JobWorkerOptions) : Int := max 1 options.workerCount

def validLeaseDuration (options : JobWorkerOptions) : TimeSpan :=
  .fromSeconds (max 1 options.leaseSeconds)

end JobWorkerOptions

structure WorkerActorOptions where
  actorId : String
  tenantId : String
  permissions : List String
  deriving DecidableEq, Repr

namespace WorkerActorOptions

/-- The default values. -/
def unset : WorkerActorOptions := ⟨"worker-service", "system", [JobPermissions.execute]⟩

def toActor (options : WorkerActorOptions) : Except SchedulerException JobActor :=
  JobActor.create
    (if isNullOrWhiteSpace options.actorId then "worker-service" else trim options.actorId)
    (if isNullOrWhiteSpace options.tenantId then "system" else trim options.tenantId)
    (if options.permissions.isEmpty then [JobPermissions.execute] else options.permissions)

/-- Every setting gives an actor: what would be refused has a default. -/
theorem toActor_ok (options : WorkerActorOptions) : ∃ actor, options.toActor = .ok actor := by
  have present {text default : String} (named : isNullOrWhiteSpace default = false)
      : isNullOrWhiteSpace (if isNullOrWhiteSpace text then default else trim text) = false := by
    split
    · exact named
    · rename_i notBlank
      exact isNullOrWhiteSpace_trim (Bool.eq_false_iff.mpr notBlank)
  unfold toActor JobActor.create
  rw [dif_neg (Bool.eq_false_iff.mp (present (by decide))),
    dif_neg (Bool.eq_false_iff.mp (present (by decide)))]
  exact ⟨_, rfl⟩

end WorkerActorOptions

namespace QueuedJobWorker

/-- The constructor that gets its settings from the options. -/
def create (options : JobWorkerOptions) (workerActorOptions : WorkerActorOptions)
    (definitions : IJobDefinitionRegistry) (provided : JobActor)
    : Except SchedulerException QueuedJobWorker := do
  let workerActor ← workerActorOptions.toActor
  return ⟨workerActor, options.validLeaseDuration, definitions, provided⟩

/-- Every setting gives a worker, and its leases end after they begin. -/
theorem create_ok (options : JobWorkerOptions) (workerActorOptions : WorkerActorOptions)
    (definitions : IJobDefinitionRegistry) (provided : JobActor)
    : ∃ worker,
        create options workerActorOptions definitions provided = .ok worker
        ∧ ∀ now leaseExpiresAt : DateTimeOffset,
            now.add worker.leaseDuration = .ok leaseExpiresAt → now < leaseExpiresAt := by
  obtain ⟨workerActor, made⟩ := workerActorOptions.toActor_ok
  refine ⟨_, by rw [create, made]; rfl, ?_⟩
  intro now leaseExpiresAt added
  have lasts : 0 < options.validLeaseDuration.ticks := by
    simp only [JobWorkerOptions.validLeaseDuration, TimeSpan.fromSeconds]
    omega
  unfold DateTimeOffset.add at added
  split at added
  · cases added
    change now.utcTicks < ((now.utcTicks : Int) + options.validLeaseDuration.ticks).toNat
    omega
  · cases added

end QueuedJobWorker

-----------------------------------------------------------------------------------------
-- The process
-----------------------------------------------------------------------------------------

/-- The process: its database and context model, the clock, whether the host is stopping, and
the loop of `worker-1`, `worker-2` and so on.
-/
structure WorkerPool where
  factory : DbContextFactory
  clock : DateTimeOffset
  stopping : Bool
  phases : List WorkerPhase

/-- A step. Loops are named by their position; a request comes with the actor that the actor
provider gives during it. Handlers are those the registry has at the time.
-/
inductive PoolInput
  | advance (clock : DateTimeOffset)
  | stop
  | request (actor : JobActor) (ambient : Ambient) (request : JobActionRequest)
      (client : request.fromClient = true)
  | poll (index : Nat)
  | claim (index : Nat) (ambient : Ambient)
  | endDelay (index : Nat)
  | renew (index : Nat) (ambient : Ambient)
  | cancelRenewal (index : Nat)
  | cancelWork (index : Nat)
  | execute (index : Nat) (handlers : IJobHandlerRegistry)
  | leave (index : Nat)
  | complete (index : Nat) (ambient : Ambient)

namespace WorkerPool

/-- `RunWorkerLoopAsync` is started for the numbers from one to the worker count. -/
def start (options : JobWorkerOptions) (factory : DbContextFactory) (clock : DateTimeOffset)
    : WorkerPool :=
  ⟨factory, clock, false, List.replicate options.validWorkerCount.toNat .polling⟩

def workerNumber (index : Nat) : Nat := index + 1

def workerId (index : Nat) : String := "worker-" ++ toString (workerNumber index)

/-- The loop moves on to another phase. -/
def enter (pool : WorkerPool) (index : Nat) (phase : WorkerPhase) : WorkerPool :=
  { pool with phases := pool.phases.set index phase }

/-- The loop head: it ends when the host is stopping, else the next call of
`ProcessNextJobAsync` takes its clock reading. A delay before it ends the loop, too, when the
host is stopping.
-/
def poll (index : Nat) (pool : WorkerPool) : WorkerPool :=
  match pool.phases[index]? with
  | some .polling =>
      pool.enter index (if pool.stopping then .stopped else .claiming pool.clock)
  | _ => pool

def claim (worker : QueuedJobWorker) (index : Nat) (ambient : Ambient) (pool : WorkerPool)
    : List LogEntry × WorkerPool :=
  match pool.phases[index]? with
  | some (.claiming now) =>
      let (entries, phase, factory) :=
        worker.claim (workerNumber index) (workerId index) ambient now pool.factory
      (entries, { pool with factory := factory }.enter index phase)
  | _ => ([], pool)

/-- The delay of a renewal ends, and the clock is read for the request. The delay may have
ended just before it is cancelled.
-/
def endDelay (index : Nat) (pool : WorkerPool) : WorkerPool :=
  match pool.phases[index]? with
  | some (.executing execution) =>
      if execution.renewal = .delaying then
        pool.enter index (.executing { execution with renewal := .renewing pool.clock })
      else
        pool
  | _ => pool

def renew (worker : QueuedJobWorker) (index : Nat) (ambient : Ambient) (pool : WorkerPool)
    : List LogEntry × WorkerPool :=
  match pool.phases[index]? with
  | some (.executing execution) =>
      match execution.renewal with
      | .renewing renewedAt =>
          let (entries, renewed, factory) :=
            worker.renew (workerId index) ambient execution renewedAt pool.factory
          (entries, { pool with factory := factory }.enter index (.executing renewed))
      | _ => ([], pool)
  | _ => ([], pool)

/-- The delay of a renewal is cancelled: by `StopLeaseRenewal`, or by the host through the
linked token.
-/
def cancelRenewal (index : Nat) (pool : WorkerPool) : WorkerPool :=
  match pool.phases[index]? with
  | some (.executing execution) =>
      if execution.renewal = .delaying ∧ (execution.ended.isSome = true ∨ pool.stopping = true)
      then
        pool.enter index (.executing { execution with renewal := .ended })
      else
        pool
  | _ => pool

/-- The host stops while the simulated work is still going on. -/
def cancelWork (index : Nat) (pool : WorkerPool) : WorkerPool :=
  match pool.phases[index]? with
  | some (.executing execution) =>
      if execution.ended = none ∧ pool.stopping = true then
        pool.enter index (.executing { execution with ended := some .cancelled })
      else
        pool
  | _ => pool

def execute (worker : QueuedJobWorker) (index : Nat) (handlers : IJobHandlerRegistry)
    (pool : WorkerPool)
    : List LogEntry × WorkerPool :=
  match pool.phases[index]? with
  | some (.executing execution) =>
      if execution.ended = none then
        let (entries, ended) := worker.executeInScope handlers pool.stopping execution.job
        (entries, pool.enter index (.executing { execution with ended := some ended }))
      else
        ([], pool)
  | _ => ([], pool)

/-- The execution and the renewal have ended: a result is completed, an exception goes to the
pool, which logs it, and a cancellation ends the loop.
-/
def leave (index : Nat) (pool : WorkerPool) : List LogEntry × WorkerPool :=
  match pool.phases[index]? with
  | some (.executing execution) =>
      match execution.renewal, execution.ended with
      | .ended, some (.finished result) =>
          ([], pool.enter index (.completing execution.job execution.leaseExpiresAt result))
      | .ended, some .threw =>
          ([.workerFailed (workerNumber index)], pool.enter index .polling)
      | .ended, some .cancelled => ([], pool.enter index .stopped)
      | _, _ => ([], pool)
  | _ => ([], pool)

def complete (worker : QueuedJobWorker) (index : Nat) (ambient : Ambient)
    (pool : WorkerPool)
    : List LogEntry × WorkerPool :=
  match pool.phases[index]? with
  | some (.completing job _ result) =>
      let (entries, factory) :=
        worker.complete (workerNumber index) (workerId index) ambient job result pool.factory
      (entries, { pool with factory := factory }.enter index .polling)
  | _ => ([], pool)

def step (worker : QueuedJobWorker) (pool : WorkerPool)
    : PoolInput → List LogEntry × WorkerPool
  | .advance clock => ([], { pool with clock := clock })
  | .stop => ([], { pool with stopping := true })
  | .request actor ambient request _ =>
      ([], { pool with
        factory := (dispatch worker.definitions actor .unset ambient request pool.factory).2 })
  | .poll index => ([], pool.poll index)
  | .claim index ambient => pool.claim worker index ambient
  | .endDelay index => ([], pool.endDelay index)
  | .renew index ambient => pool.renew worker index ambient
  | .cancelRenewal index => ([], pool.cancelRenewal index)
  | .cancelWork index => ([], pool.cancelWork index)
  | .execute index handlers => pool.execute worker index handlers
  | .leave index => pool.leave index
  | .complete index ambient => pool.complete worker index ambient

/-- The machine of a process; its steps answer with what they have to log. -/
def machine (worker : QueuedJobWorker) : Machine WorkerPool PoolInput (List LogEntry) where
  step := step worker

/-- What the steps of a run have to log, in the order of the steps. -/
def log (worker : QueuedJobWorker) (pool : WorkerPool) (inputs : List PoolInput)
    : List LogEntry :=
  ((machine worker).run pool inputs).1.flatten

end WorkerPool

end JobScheduler
