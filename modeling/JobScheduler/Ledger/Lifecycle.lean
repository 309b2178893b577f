import JobScheduler.Ledger.Claims
import JobScheduler.Ledger.Transitions
import JobScheduler.Persistence.SqliteLedger
import JobScheduler.Storage.InMemoryLedger

/-! The lifecycle of jobs over whole runs. The transitions of a record accept any status, so
legality comes from the guards of the stores alone: they are the premises of record steps.
-/

namespace JobScheduler

open Library

namespace JobRecord

/-- The job has ended: it completed, or it failed with no retry scheduled. -/
def isSettled (job : JobRecord) : Bool := job.status = .completed || job.status = .failed

/-- Nothing of what processing writes differs between the records. -/
structure SameProgress (job later : JobRecord) : Prop where
  status : later.status = job.status
  history : later.history = job.history
  currentStateChangeId : later.currentStateChangeId = job.currentStateChangeId
  runAt : later.runAt = job.runAt
  claimedBy : later.claimedBy = job.claimedBy
  claimedAt : later.claimedAt = job.claimedAt
  leaseExpiresAt : later.leaseExpiresAt = job.leaseExpiresAt
  failureReason : later.failureReason = job.failureReason

theorem SameProgress.refl (job : JobRecord) : job.SameProgress job :=
  ⟨rfl, rfl, rfl, rfl, rfl, rfl, rfl, rfl⟩

theorem SameProgress.trans {first second third : JobRecord}
    (head : first.SameProgress second) (tail : second.SameProgress third)
    : first.SameProgress third where
  status := tail.status.trans head.status
  history := tail.history.trans head.history
  currentStateChangeId := tail.currentStateChangeId.trans head.currentStateChangeId
  runAt := tail.runAt.trans head.runAt
  claimedBy := tail.claimedBy.trans head.claimedBy
  claimedAt := tail.claimedAt.trans head.claimedAt
  leaseExpiresAt := tail.leaseExpiresAt.trans head.leaseExpiresAt
  failureReason := tail.failureReason.trans head.failureReason

theorem SameProgress.isSettled {job later : JobRecord} (same : job.SameProgress later)
    (settled : job.isSettled = true)
    : later.isSettled = true := by
  rw [JobRecord.isSettled, same.status]
  exact settled

/-- A running job has not ended. -/
theorem isSettled_of_running {job : JobRecord} (running : job.status = .running)
    : job.isSettled = false := by
  simp [isSettled, running]

theorem isSettled_of_pending {job : JobRecord} (pending : job.isPending = true)
    : job.isSettled = false := by
  cases status : job.status <;> simp_all [isPending, isSettled]

end JobRecord

/-- Only an acknowledgement changes a job that has ended, and it writes nothing that
processing writes.
-/
theorem RecordStep.sameProgress {nextDue : DateTimeOffset → Option JobRecord}
    {ambient : Ambient} {call : StoreCall} {job changed : JobRecord}
    (step : RecordStep nextDue ambient call job changed) (inOrder : job.Numbered)
    (settled : job.isSettled = true)
    : job.SameProgress changed := by
  have idle : job.status ≠ .running := by
    intro running
    cases (JobRecord.isSettled_of_running running).symm.trans settled
  cases step with
  | claimed picked ready valid =>
      rcases ready with pending | expired
      · cases (JobRecord.isSettled_of_pending pending).symm.trans settled
      · exact absurd expired.1 idle
  | renewed running => exact absurd running idle
  | completed running => exact absurd running idle
  | failed running => exact absurd running idle
  | retried running => exact absurd running idle
  | acknowledged => exact ⟨rfl, inOrder, rfl, rfl, rfl, rfl, rfl, rfl⟩

/-- The lifecycle of every job in every run of a store. -/
structure LifecycleLaw {State Caller : Type} (store : LawfulStore State Caller) : Prop where
  /-- A history starts with `Queued` or `Scheduled`. -/
  starts
    : ∀ state,
        store.machine.Reaches store.NewIds store.initial state
        → ∀ job ∈ store.jobs state,
            job.statuses.head? = some .queued ∨ job.statuses.head? = some .scheduled
  /-- Adjacent statuses are one of the legal pairs. -/
  pairs
    : ∀ state,
        store.machine.Reaches store.NewIds store.initial state
        → ∀ job ∈ store.jobs state, job.statuses.IsChain JobStatus.Precedes
  /-- A call keeps every history as the beginning of the next one. -/
  grows
    : ∀ state input,
        store.machine.Reaches store.NewIds store.initial state
        → store.NewIds state input
        → ∀ id job,
            (store.ledger state).find? id = some job
            → ∃ later,
                (store.ledger (store.machine.step state input).2).find? id = some later
                ∧ job.history <+: later.history
  /-- A job that has ended stays as it is, through every later call. -/
  ends
    : ∀ state later,
        store.machine.Reaches store.NewIds store.initial state
        → store.machine.Reaches store.NewIds state later
        → ∀ id job,
            (store.ledger state).find? id = some job
            → job.status = .completed ∨ job.status = .failed
            → ∃ last,
                (store.ledger later).find? id = some last ∧ job.SameProgress last

namespace LawfulStore

variable {State Caller : Type} {store : LawfulStore State Caller}

theorem reachable_of_newIds {state : State}
    (reached : store.machine.Reaches store.NewIds store.initial state)
    : store.Reachable state :=
  reached.mono (fun _ _ met => met.admissible)

/-- A call on a reachable store follows the ledger. -/
theorem NewIds.ledgerStep {state : State} {input : StoreInput Caller}
    (met : store.NewIds state input)
    (reached : store.machine.Reaches store.NewIds store.initial state)
    : LedgerStep (store.visible input.caller) (store.nextDue input.caller state)
        input.ambient (store.ledger state) input.call
        ((store.methods input.caller).call input.ambient input.call state).1
        (store.ledger (store.machine.step state input).2) :=
  store.follows input.caller input.ambient input.call state
    (reachable_of_newIds reached).sound met.admissible

/-- One call leaves a job that has ended as it was. -/
theorem NewIds.keepsSettled {state : State} {input : StoreInput Caller}
    (met : store.NewIds state input)
    (reached : store.machine.Reaches store.NewIds store.initial state) {id : Guid}
    {job : JobRecord} (stored : (store.ledger state).find? id = some job)
    (settled : job.isSettled = true)
    : ∃ later,
        (store.ledger (store.machine.step state input).2).find? id = some later
        ∧ job.SameProgress later := by
  have inOrder := (jobs_legalHistory (reachable_of_newIds reached) job
    (KeyedTable.find?_mem stored)).inOrder
  rcases (met.ledgerStep reached).find?_next stored with untouched | ⟨new, added, same, -⟩
    | ⟨changed, one, -, there⟩
  · exact ⟨job, untouched, .refl job⟩
  · have absent := met.newId new added
    rw [same, stored] at absent
    cases absent
  · exact ⟨changed, there, one.sameProgress inOrder settled⟩

/-- The lifecycle law of every store that follows the ledger. -/
theorem lifecycleLaw (store : LawfulStore State Caller) : LifecycleLaw store where
  starts state reached job member :=
    (jobs_legalHistory (reachable_of_newIds reached) job member).starts
  pairs state reached job member :=
    (jobs_legalHistory (reachable_of_newIds reached) job member).chain
  grows state input reached met id job stored := by
    have inOrder : ∀ job ∈ (store.ledger state).rows, job.Numbered :=
      fun job member => (jobs_legalHistory (reachable_of_newIds reached) job member).inOrder
    obtain ⟨later, there, -, begins⟩ :=
      (met.ledgerStep reached).continues met.newId inOrder id job stored
    exact ⟨later, there, begins⟩
  ends state later reached since id job stored ended := by
    have settled : job.isSettled = true := by
      simpa [JobRecord.isSettled] using ended
    induction since with
    | refl => exact ⟨job, stored, .refl job⟩
    | step before met ih =>
        obtain ⟨middle, there, same⟩ := ih
        obtain ⟨last, found, sameAgain⟩ :=
          met.keepsSettled (reached.trans before) there (same.isSettled settled)
        exact ⟨last, found, same.trans sameAgain⟩

end LawfulStore

/-- Both stores keep the lifecycle legal, for every caller and every order of calls. -/
theorem lifecycle_legal
    : LifecycleLaw InMemoryJobStore.lawful ∧ LifecycleLaw SqliteJobStore.lawful :=
  ⟨InMemoryJobStore.lawful.lifecycleLaw, SqliteJobStore.lawful.lifecycleLaw⟩

/-- The first claim of the small run is completed. -/
def completedRun {Caller : Type} (caller : Caller) : List (StoreInput Caller) :=
  firstClaimRun caller
  ++ [⟨caller, smallAmbient 2, .markCompleted ⟨1⟩ firstSnapshot.currentStateChangeId⟩]

/-- The completed job stays as it is through a claim after the end of its lease. -/
theorem lifecycle_legal_completed
    : ∃ last,
        (SqliteJobStore.lawful.ledger
            (SqliteJobStore.lawful.machine.step
              (SqliteJobStore.lawful.machine.run Database.empty (completedRun .everyRow)).2
              ⟨.everyRow, smallAmbient 9,
                .tryClaimNextDueJob (.ofTicks 9) "worker-2" (.ofTicks 15)⟩).2).find? ⟨1⟩
          = some last
        ∧ (firstSnapshot.markedCompleted (smallAmbient 2).newGuid
            (.ofTicks 2)).SameProgress last := by
  have others (state : Database) (input : StoreInput QueryFilter)
      (other : ∀ job, input.call ≠ .add job)
      : SqliteJobStore.lawful.NewIds state input :=
    ⟨fun job added => absurd added (other job), fun job added => absurd added (other job)⟩
  have first : SqliteJobStore.lawful.NewIds Database.empty
      ⟨.everyRow, smallAmbient 0, .add smallJob⟩ :=
    ⟨smallJob_admissible, fun _ _ => rfl⟩
  have reached : SqliteJobStore.lawful.machine.Reaches SqliteJobStore.lawful.NewIds
      SqliteJobStore.lawful.initial
      (SqliteJobStore.lawful.machine.run Database.empty (completedRun .everyRow)).2 :=
    Machine.reaches_run
      ⟨first, others _ _ (by intro _ added; cases added),
        others _ _ (by intro _ added; cases added), trivial⟩
  exact lifecycle_legal.2.ends _ _ reached
    ((Machine.Reaches.refl _).step (others _ _ (by intro _ added; cases added))) ⟨1⟩ _
    (by decide +kernel) (Or.inl rfl)

end JobScheduler
