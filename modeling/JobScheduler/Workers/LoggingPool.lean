import JobScheduler.Library.Outbox
import JobScheduler.Workers.PoolLog

/-! The worker pool and its log. What a call did is logged after the call has returned, so the
calls and entries of other loops fall in between, and a process may die with entries it has not
written. The entries tell the histories nevertheless: attempt numbers put them in order.
-/

namespace JobScheduler

open Library

/-- The flows of control that log: a loop, and the renewal beside its execution. The other
steps of a process have nothing to log.
-/
inductive LogFlow
  | loop (index : Nat)
  | renewal (index : Nat)
  | others
  deriving DecidableEq, Repr

/-- The flow of control that takes a step. -/
def PoolInput.flow : PoolInput → LogFlow
  | .poll index | .claim index _ | .cancelWork index | .execute index _ | .leave index
  | .complete index _ => .loop index
  | .endDelay index | .renew index _ | .cancelRenewal index => .renewal index
  | .advance _ | .stop | .request _ _ _ _ => .others

/-- A process with what it has written to the log and what it has still to write. The entries
that died with the processes before it are kept aside.
-/
structure LoggingPool where
  pool : WorkerPool
  outbox : Outbox LogFlow LogEntry

/-- A step of the process up to its log entries, or the next entry of a flow. -/
inductive LoggingInput
  | run (input : PoolInput)
  | write (flow : LogFlow)

namespace LoggingPool

/-- The flow has written all its entries. -/
def Idle (state : LoggingPool) (flow : LogFlow) : Prop :=
  ∀ entry ∈ state.outbox.pending, entry.1 ≠ flow

/-- The claim of the loop is logged, which is when its renewal starts. -/
def Started (state : LoggingPool) (index : Nat) : Prop :=
  ∀ entry ∈ state.outbox.pending, entry.1 = .loop index → entry.2.isQuiet = true

/-- A flow writes its entries before it goes on. The loop leaves an execution when the renewal
has returned, and only the host stops a renewal before the execution has ended.
-/
def Ready (state : LoggingPool) (input : PoolInput) : Prop :=
  state.Idle input.flow
  ∧ match input with
    | .leave index => state.Idle (.renewal index)
    | .endDelay index | .renew index _ => state.Started index
    | .cancelRenewal index =>
        state.Started index ∧ (state.pool.stopping = true ∨ state.Idle (.loop index))
    | _ => True

instance (state : LoggingPool) (flow : LogFlow) : Decidable (state.Idle flow) :=
  inferInstanceAs (Decidable (∀ entry ∈ state.outbox.pending, entry.1 ≠ flow))

instance (state : LoggingPool) (index : Nat) : Decidable (state.Started index) :=
  inferInstanceAs (Decidable (∀ entry ∈ state.outbox.pending,
    entry.1 = .loop index → entry.2.isQuiet = true))

instance (state : LoggingPool) (input : PoolInput) : Decidable (state.Ready input) := by
  unfold Ready
  cases input <;> infer_instance

def Allowed (state : LoggingPool) : LoggingInput → Prop
  | .run input => state.Ready input ∧ state.pool.Allowed input
  | .write _ => True

instance : ∀ (state : LoggingPool) (input : LoggingInput), Decidable (state.Allowed input)
  | state, .run input =>
      inferInstanceAs (Decidable (state.Ready input ∧ state.pool.Allowed input))
  | _, .write _ => inferInstanceAs (Decidable True)

def step (worker : QueuedJobWorker) (state : LoggingPool) : LoggingInput → LoggingPool
  | .run input =>
      let (entries, pool) := state.pool.step worker input
      ⟨pool, state.outbox.report input.flow entries⟩
  | .write flow => { state with outbox := state.outbox.write flow }

def machine (worker : QueuedJobWorker) : Machine LoggingPool LoggingInput Unit where
  step state input := ((), state.step worker input)

/-- The first process over an empty database, with an empty log. -/
def first (options : JobWorkerOptions) (clock : DateTimeOffset) : LoggingPool :=
  ⟨.start options ⟨none, .empty⟩ clock, .empty⟩

/-- The process dies, and another one starts over the database and the log that it left. -/
def restart (options : JobWorkerOptions) (state : LoggingPool) : LoggingPool :=
  ⟨.start options ⟨none, state.pool.factory.database⟩ state.pool.clock, state.outbox.lose⟩

/-- The lives of the program with its log. -/
inductive Lives (worker : QueuedJobWorker) : LoggingPool → Prop
  | first (options : JobWorkerOptions) (clock : DateTimeOffset)
    : Lives worker (LoggingPool.first options clock)
  | step {state : LoggingPool} {input : LoggingInput} (lives : Lives worker state)
    (allowed : state.Allowed input)
    : Lives worker (state.step worker input)
  | restart {state : LoggingPool} (options : JobWorkerOptions) (lives : Lives worker state)
    : Lives worker (state.restart options)

namespace Lives

variable {worker : QueuedJobWorker} {state : LoggingPool}

/-- A run of allowed steps, by induction on its inputs. -/
theorem run {inputs : List LoggingInput} (lives : Lives worker state)
    (allowed : (machine worker).AlongSteps LoggingPool.Allowed state inputs)
    : Lives worker ((machine worker).run state inputs).2 := by
  induction inputs generalizing state with
  | nil => exact lives
  | cons input rest ih => exact ih (lives.step allowed.1) allowed.2

/-- Without its log the program lives as before. -/
theorem pool (lives : Lives worker state) : WorkerPool.Lives worker state.pool := by
  induction lives with
  | first options clock => exact .first options clock
  | @step state input lives allowed ih =>
      cases input with
      | run input => exact ih.step allowed.2
      | write flow => exact ih
  | restart options lives ih => exact ih.restart options

end Lives

end LoggingPool

-----------------------------------------------------------------------------------------
-- The entries about one job
-----------------------------------------------------------------------------------------

namespace LogEntry

/-- The entry says something about what happened to the job. -/
def about (id : Guid) (entry : LogEntry) : Bool := !(entry.events id).isEmpty

/-- The position of what the entry says among the runs and ends of its job. -/
def position : LogEntry → Nat
  | .claimed _ _ _ attemptNumber => 2 * attemptNumber
  | .completed _ _ _ attemptNumber | .retryScheduled _ _ _ attemptNumber _ _ _
  | .failed _ _ _ attemptNumber _ => 2 * attemptNumber + 1
  | _ => 0

/-- The first thing an entry says stands at its position, and nothing else has one. -/
theorem positions_events (id : Guid) (entry : LogEntry)
    : (entry.events id).filterMap JobEvent.position
      = if entry.about id then [entry.position] else [] := by
  unfold about
  cases entry with
  | claimed _ jobId | completed _ jobId | retryScheduled _ jobId | failed _ jobId =>
      by_cases same : jobId = id
      · simp [events, same, position, JobEvent.position]
      · simp [events, same]
  | claimNotAuthorized | completeNotAuthorized | leaseLost | executionThrew
  | renewNotAuthorized | notRenewed | renewalFailed | noDueJob | workerFailed => rfl

end LogEntry

/-- The positions of what entries say are those of the entries about the job, by induction on
the entries.
-/
theorem positions_eventsOf (id : Guid) (entries : List LogEntry)
    : (eventsOf id entries).filterMap JobEvent.position
      = (entries.filter (LogEntry.about id)).map LogEntry.position := by
  induction entries with
  | nil => rfl
  | cons entry rest ih =>
      have parts : eventsOf id (entry :: rest) = entry.events id ++ eventsOf id rest := rfl
      rw [parts, List.filterMap_append, entry.positions_events, ih, List.filter_cons]
      split <;> rfl

-----------------------------------------------------------------------------------------
-- The log and the histories
-----------------------------------------------------------------------------------------

namespace LoggingPool

variable {worker : QueuedJobWorker} {state : LoggingPool}

/-- What was handed to the log so far, oldest first: it is accounted for, and replays the
histories.
-/
structure Reported (state : LoggingPool) (reported : List (LogFlow × LogEntry)) : Prop where
  accounts : state.outbox.Accounts reported
  replays
    : ∀ id,
        state.pool.factory.database.ledger.events id = eventsOf id (reported.map Prod.snd)

/-- By induction on the life of the program: a step hands over what it appended to the
histories, and writing or losing entries changes no history.
-/
theorem Lives.reported (lives : Lives worker state) : ∃ reported, state.Reported reported := by
  induction lives with
  | first options clock => exact ⟨[], .empty, fun _ => rfl⟩
  | @step state input lives allowed ih =>
      obtain ⟨reported, accounts, replays⟩ := ih
      cases input with
      | write flow => exact ⟨reported, accounts.write flow, replays⟩
      | run input =>
          obtain ⟨system, invariant, tracked⟩ := lives.pool.tracked
          refine ⟨_, accounts.report input.flow (state.pool.step worker input).1, ?_⟩
          intro id
          have appended := tracked.events_step invariant worker allowed.2 id
          have untagged
              : (((state.pool.step worker input).1.map
                  (fun entry => (input.flow, entry))).map Prod.snd)
                = (state.pool.step worker input).1 := by
            rw [List.map_map]
            exact List.map_id _
          rw [List.map_append, untagged, eventsOf, List.flatMap_append, ← eventsOf, ← eventsOf,
            ← replays id]
          exact appended
  | restart options lives ih =>
      obtain ⟨reported, accounts, replays⟩ := ih
      exact ⟨reported, accounts.lose, replays⟩

/-- The entries about a job are handed over in the order of their positions. -/
theorem Reported.increasing {reported : List (LogFlow × LogEntry)}
    (lives : Lives worker state) (tells : state.Reported reported) (id : Guid)
    : ((reported.map Prod.snd).filter (LogEntry.about id)).Pairwise
        (fun first second => first.position < second.position) := by
  refine List.pairwise_map.mp ?_
  rw [← positions_eventsOf, ← tells.replays id, Ledger.events]
  cases stored : state.pool.factory.database.ledger.find? id with
  | none => exact .nil
  | some job =>
      obtain ⟨system, invariant, tracked⟩ := lives.pool.tracked
      have reached := invariant.reached.reachable
      rw [← tracked.store] at stored
      exact (LawfulStore.jobs_legalHistory reached job (KeyedTable.find?_mem stored)).positions

end LoggingPool

end JobScheduler
