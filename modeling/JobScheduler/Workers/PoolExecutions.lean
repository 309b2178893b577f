import JobScheduler.Workers.PoolReach

/-! How often a pool executes a job. A loop executes what it has claimed, once; so every
execution has an entry in the history that was there before it, and no two share one, whichever
processes die in between.
-/

namespace JobScheduler

open Library JobLifecycleService

/-- The token of a granted claim is an identifier that the call has drawn. -/
theorem JobRecord.claimedUnder_drawn (job : JobRecord) (ambient : Ambient)
    (now : DateTimeOffset) (workerId : String) (leaseExpiresAt : DateTimeOffset)
    : (job.claimedUnder ambient now workerId leaseExpiresAt).currentStateChangeId
      ∈ [ambient.newGuid, ambient.newGuidAgain] := by
  obtain ⟨last, added, -, record⟩ := job.claimedUnder_eq ambient now workerId leaseExpiresAt
  rw [record]
  exact (StoreCall.appended_drawn ambient job _).subset
    (List.mem_map_of_mem (List.mem_of_getLast? added))

/-- The tokens of claims. -/
def tokens (snapshots : List JobRecord) : List Guid :=
  snapshots.map JobRecord.currentStateChangeId

namespace WorkerPool

variable {worker : QueuedJobWorker} {pool : WorkerPool} {system : WorkerSystem Database}
  {executed : List JobRecord}

/-- The jobs that a run executes, as their loops have claimed them. -/
def executions (worker : QueuedJobWorker) : WorkerPool → List PoolInput → List JobRecord
  | _, [] => []
  | pool, input :: rest =>
      (pool.executedBy input).toList ++ executions worker (pool.step worker input).2 rest

/-- The process lives, and it and the processes before it have executed these jobs. -/
inductive Executed (worker : QueuedJobWorker) : WorkerPool → List JobRecord → Prop
  | first (options : JobWorkerOptions) (clock : DateTimeOffset)
    : Executed worker (start options ⟨none, .empty⟩ clock) []
  | step {pool : WorkerPool} {executed : List JobRecord} {input : PoolInput}
    (before : Executed worker pool executed) (allowed : pool.Allowed input)
    : Executed worker (pool.step worker input).2
        (executed ++ (pool.executedBy input).toList)
  | restart {pool : WorkerPool} {executed : List JobRecord} (options : JobWorkerOptions)
    (before : Executed worker pool executed)
    : Executed worker (start options ⟨none, pool.factory.database⟩ pool.clock) executed

theorem Executed.lives (executes : Executed worker pool executed) : Lives worker pool := by
  induction executes with
  | first options clock => exact .first options clock
  | step before allowed ih => exact ih.step allowed
  | restart options before ih => exact ih.restart options

/-- What a run executes comes after what was executed before, by induction on its inputs. -/
theorem Executed.run {inputs : List PoolInput} (executes : Executed worker pool executed)
    (allowed : (machine worker).AlongSteps WorkerPool.Allowed pool inputs)
    : Executed worker ((machine worker).run pool inputs).2
        (executed ++ executions worker pool inputs) := by
  induction inputs generalizing pool executed with
  | nil =>
      rw [executions, List.append_nil]
      exact executes
  | cons input rest ih =>
      rw [executions, ← List.append_assoc]
      exact ih (executes.step allowed.1) allowed.2

/-- The snapshot of an execution shows the beginning of a stored history, up to the entry of its
claim.
-/
def IsRecorded (ledger : Ledger) (snapshot : JobRecord) : Prop :=
  snapshot.EndsRunning
  ∧ ∃ job, ledger.find? snapshot.id = some job ∧ snapshot.history <+: job.history

theorem IsRecorded.continues {ledger later : Ledger} {snapshot : JobRecord}
    (recorded : IsRecorded ledger snapshot) (grows : Ledger.Continues ledger later)
    : IsRecorded later snapshot := by
  obtain ⟨running, job, stored, begins⟩ := recorded
  obtain ⟨next, there, -, longer⟩ := grows _ job stored
  exact ⟨running, next, there, begins.trans longer⟩

/-- The token of a recorded snapshot is the id of an entry. -/
theorem IsRecorded.token_mem {ledger : Ledger} {snapshot : JobRecord}
    (recorded : IsRecorded ledger snapshot)
    : ∃ job ∈ ledger.rows, snapshot.currentStateChangeId ∈ job.history.map JobStateChange.id := by
  obtain ⟨⟨change, final, token, -⟩, job, stored, begins⟩ := recorded
  refine ⟨job, KeyedTable.find?_mem stored, ?_⟩
  rw [← token]
  exact List.mem_map_of_mem (begins.subset (List.mem_of_getLast? final))

/-- No claim was executed twice, each execution is recorded, and the loops that have still to
execute a job hold claims that were not executed.
-/
structure ExecutesOnce (pool : WorkerPool) (executed : List JobRecord) : Prop where
  once : (tokens executed).Nodup
  recorded : ∀ snapshot ∈ executed, IsRecorded pool.factory.database.ledger snapshot
  waiting
    : ∀ (index : Nat) (phase : WorkerPhase) (job : JobRecord),
        pool.phases[index]? = some phase
        → phase.waiting = some job
        → job.currentStateChangeId ∉ tokens executed

/-- A phase that has still to execute a job holds a claim of it. -/
theorem claim_of_waiting {phase : WorkerPhase} {job : JobRecord}
    (waits : phase.waiting = some job)
    : ∃ held, phase.claim = some held ∧ held.snapshot = job := by
  cases phase with
  | executing execution =>
      simp only [WorkerPhase.waiting] at waits
      split at waits
      · cases waits
        exact ⟨_, rfl, rfl⟩
      · cases waits
  | polling | claiming | completing | stopped => cases waits

/-- A step that executes nothing, in which at most one loop moves on. -/
theorem ExecutesOnce.enter (once : pool.ExecutesOnce executed) {factory : DbContextFactory}
    {index : Nat} {before after : WorkerPhase} (there : pool.phases[index]? = some before)
    (grows
      : Ledger.Continues pool.factory.database.ledger factory.database.ledger)
    (waiting : ∀ job, after.waiting = some job → job.currentStateChangeId ∉ tokens executed)
    : ({ pool with factory := factory }.enter index after).ExecutesOnce executed where
  once := once.once
  recorded snapshot member := (once.recorded snapshot member).continues grows
  waiting other phase job found waits := by
    rcases @phases_enter { pool with factory := factory } _ _ _ _ _ there found with
      ⟨-, rfl⟩ | ⟨-, kept⟩
    · exact waiting job waits
    · exact once.waiting other phase job kept waits

/-- The token of a granted claim is drawn afresh, so it was not executed. -/
theorem ExecutesOnce.fresh (once : pool.ExecutesOnce executed) {ambient : Ambient}
    (fresh : ambient.Fresh pool.factory.database.ledger) {token : Guid}
    (drawn : token ∈ [ambient.newGuid, ambient.newGuidAgain])
    : token ∉ tokens executed := by
  intro listed
  obtain ⟨snapshot, member, rfl⟩ := List.mem_map.mp listed
  obtain ⟨job, stored, used⟩ := (once.recorded snapshot member).token_mem
  obtain ⟨notFirst, notSecond⟩ := fresh.2 job stored
  rcases List.mem_cons.mp drawn with first | second
  · exact notFirst (first ▸ used)
  · exact notSecond (List.mem_singleton.mp second ▸ used)

/-- Two loops that hold claims hold claims with different tokens. -/
theorem TrackedBy.tokens_apart (tracked : pool.TrackedBy system)
    (invariant : WorkerSystem.Invariant SqliteJobStore.lawful system) {first second : Nat}
    {held other : WorkerClaim} (here : pool.claimAt first = some held)
    (there : pool.claimAt second = some other)
    (same : held.snapshot.currentStateChangeId = other.snapshot.currentStateChangeId)
    : first = second := by
  obtain ⟨entry, backs⟩ := tracked.backed
  have sameEntry := invariant.distinct _ _ _ _ (backs.listed first held here)
    (backs.listed second other there) same
  exact backs.apart first second (by rw [here]; rfl) (by rw [there]; rfl) sameEntry

/-- Executing a claim leaves no loop that waits to execute it. -/
theorem ExecutesOnce.execute (once : pool.ExecutesOnce executed)
    (tracked : pool.TrackedBy system)
    (invariant : WorkerSystem.Invariant SqliteJobStore.lawful system) {index : Nat}
    {execution : Execution} (there : pool.phases[index]? = some (.executing execution))
    (waiting : execution.ended = none) (ended : ExecutionEnd)
    : (pool.enter index (.executing { execution with ended := some ended })).ExecutesOnce
        (executed ++ [execution.job]) := by
  have claimed := claimAt_of there
  have waits : (WorkerPhase.executing execution).waiting = some execution.job := if_pos waiting
  have notBefore := once.waiting index _ execution.job there waits
  refine ⟨?_, ?_, ?_⟩
  · rw [tokens, List.map_append, List.map_singleton]
    exact List.Nodup.append once.once (List.nodup_singleton _)
      (List.disjoint_singleton.mpr notBefore)
  · intro snapshot member
    rcases List.mem_append.mp member with older | new
    · exact once.recorded snapshot older
    · cases List.mem_singleton.mp new
      obtain ⟨entry, backs⟩ := tracked.backed
      obtain ⟨caller, granted⟩ := invariant.granted _ _ (backs.listed index _ claimed)
      obtain ⟨running, job, stored, -, begins, -⟩ := granted.stored
      change system.store.ledger.find? execution.job.id = some job at stored
      rw [tracked.store] at stored
      exact ⟨running, job, stored, begins⟩
  · intro other phase job found stillWaits
    rcases phases_enter there found with ⟨-, rfl⟩ | ⟨apart, kept⟩
    · cases stillWaits
    · rw [tokens, List.map_append, List.mem_append, not_or]
      refine ⟨once.waiting other phase job kept stillWaits, ?_⟩
      intro same
      obtain ⟨held, holds, rfl⟩ := claim_of_waiting stillWaits
      exact apart (tracked.tokens_apart invariant ((claimAt_of kept).trans holds) claimed
        (List.mem_singleton.mp same))

/-- Every step keeps it so, whatever kind it is of. -/
theorem ExecutesOnce.step (once : pool.ExecutesOnce executed) (tracked : pool.TrackedBy system)
    (invariant : WorkerSystem.Invariant SqliteJobStore.lawful system) {input : PoolInput}
    (allowed : pool.Allowed input)
    : (pool.step worker input).2.ExecutesOnce
        (executed ++ (pool.executedBy input).toList) := by
  have grows := (tracked.grows_step invariant worker allowed).ledger
  have move := step_poolStep worker pool input
  generalize (pool.step worker input).1 = entries at move
  generalize (pool.step worker input).2 = after at move grows ⊢
  have keeps {before after : WorkerPhase} {index : Nat}
      (there : pool.phases[index]? = some before)
      (waiting : after.waiting = none ∨ after.waiting = before.waiting) (job : JobRecord)
      (waits : after.waiting = some job)
      : job.currentStateChangeId ∉ tokens executed := by
    rcases waiting with none | same
    · cases none.symm.trans waits
    · exact once.waiting index before job there (same.symm.trans waits)
  cases move with
  | @executed index handlers execution entries ended there waiting =>
      have runs : pool.executedBy (.execute index handlers) = some execution.job := by
        rw [executedBy, there]
        exact if_pos waiting
      rw [runs]
      exact once.execute tracked invariant there waiting ended
  | idle executes =>
      rw [executes, Option.toList_none, List.append_nil]
      exact once
  | moved there _ _ waiting _ _ executes =>
      rw [executes, Option.toList_none, List.append_nil]
      exact once.enter there grows (keeps there waiting)
  | advanced | stopping =>
      simp only [executedBy, Option.toList_none, List.append_nil]
      exact ⟨once.once, once.recorded, once.waiting⟩
  | requested reading adds =>
      simp only [executedBy, Option.toList_none, List.append_nil]
      exact ⟨once.once, fun snapshot member => (once.recorded snapshot member).continues grows,
        once.waiting⟩
  | claimMissed there =>
      simp only [executedBy, Option.toList_none, List.append_nil]
      exact once.enter there grows (keeps there (Or.inl rfl))
  | @claimed index ambient now leaseExpiresAt job next there _ _ answered =>
      simp only [executedBy, Option.toList_none, List.append_nil]
      refine once.enter there grows ?_
      intro granted waits
      cases waits
      obtain ⟨filter, called⟩ := tracked.called answered
      obtain ⟨picked, -, -, -, -, -, rfl, -⟩ :=
        @LawfulStore.stored_of_claim _ _ SqliteJobStore.lawful _ _ _ _ _ _ _ _
          invariant.reached.reachable.sound called
      exact once.fresh allowed (picked.claimedUnder_drawn ambient now _ leaseExpiresAt)
  | renewalMissed there =>
      simp only [executedBy, Option.toList_none, List.append_nil]
      exact once.enter there grows (keeps there (Or.inr rfl))
  | renewed there =>
      simp only [executedBy, Option.toList_none, List.append_nil]
      exact once.enter there grows (keeps there (Or.inr rfl))
  | issued there =>
      simp only [executedBy, Option.toList_none, List.append_nil]
      exact @ExecutesOnce.enter pool _ once pool.factory _ _ _ there grows
        (keeps there (Or.inl rfl))
  | completed there =>
      simp only [executedBy, Option.toList_none, List.append_nil]
      exact once.enter there grows (keeps there (Or.inl rfl))

end WorkerPool

end JobScheduler
