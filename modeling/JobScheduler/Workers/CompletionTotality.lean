import JobScheduler.Ledger.Claims

/-! What a completion reports against what it stores. The store refuses a failure whose reason
is blank the same way it refuses a stale token, so the service takes it for a lost lease.
-/

namespace JobScheduler

open Library JobLifecycleService

/-- The stored job runs under the token of the snapshot. -/
def Owned (snapshot : JobRecord) (ledger : Ledger) : Prop :=
  ∃ job,
    ledger.find? snapshot.id = some job
    ∧ job.isRunningUnder snapshot.currentStateChangeId = true

/-- The status, the failure reason and the retry time are those of the stored job. -/
def JobExecutionCompletion.Agrees (completion : JobExecutionCompletion) (job : JobRecord)
    : Prop :=
  match completion.status with
  | .completed => job.status = .completed
  | .retryScheduled =>
      job.status = .scheduled
      ∧ completion.retryScheduledAt.isSome = true
      ∧ completion.retryScheduledAt = job.runAt
      ∧ completion.failureReason = job.failureReason
  | .failed => job.status = .failed ∧ completion.failureReason = job.failureReason
  | .leaseLost => False

/-- `LeaseLost` is reported exactly when the snapshot is not owned; otherwise the stored job
has left `Running`, the way the completion says.
-/
def CompletionTotal (snapshot : JobRecord) (before after : Ledger)
    (answer : Except SchedulerException JobExecutionCompletion)
    : Prop :=
  ∃ completion,
    answer = .ok completion
    ∧ (completion.status = .leaseLost ↔ ¬ Owned snapshot before)
    ∧ (Owned snapshot before
      → ∃ job,
          after.find? snapshot.id = some job
          ∧ job.status ≠ .running
          ∧ completion.Agrees job)

/-- What defeats the contract: the retry time is not representable, or the owner reports a
failure with a blank reason.
-/
def Defeated (definitions : IJobDefinitionRegistry) (utcNow : DateTimeOffset)
    (snapshot : JobRecord) (result : JobExecutionResult) (before : Ledger)
    : Prop :=
  result.succeeded = false
  ∧ ((∃ definition exception,
      retryDefinition definitions snapshot = some definition
      ∧ utcNow.add definition.retryPolicy.delay = .error exception)
    ∨ (Owned snapshot before
      ∧ ∃ reason, result.failureReason = some reason ∧ isNullOrWhiteSpace reason = true))

-----------------------------------------------------------------------------------------
-- The revision behind a completion
-----------------------------------------------------------------------------------------

/-- A completion that issues no call is defeated: its retry time is not representable. -/
theorem defeated_of_unissued {definitions : IJobDefinitionRegistry} {utcNow : DateTimeOffset}
    {snapshot : JobRecord} {result : JobExecutionResult} {exception : SchedulerException}
    {before : Ledger}
    (unissued : completionCall definitions utcNow snapshot result = .error exception)
    : Defeated definitions utcNow snapshot result before := by
  rcases completionCall_cases definitions utcNow snapshot result with ⟨-, other⟩ | ⟨-, -, other⟩
    | ⟨definition, failed, retry, ⟨_, -, other⟩ | ⟨thrown, added, -⟩⟩
  · cases unissued.symm.trans other
  · cases unissued.symm.trans other
  · cases unissued.symm.trans other
  · exact ⟨failed, Or.inl ⟨definition, thrown, retry, added⟩⟩

/-- A completion that issues a call had a representable retry time, so it is defeated by a
blank reason of the owner alone.
-/
theorem defeated_iff_of_issued {definitions : IJobDefinitionRegistry}
    {utcNow : DateTimeOffset} {snapshot : JobRecord} {result : JobExecutionResult}
    {issue : StoreCall × JobExecutionCompletion} {before : Ledger}
    (issued : completionCall definitions utcNow snapshot result = .ok issue)
    : Defeated definitions utcNow snapshot result before
      ↔ Owned snapshot before
        ∧ ¬ (result.succeeded = true
          ∨ isNullOrWhiteSpace (failureReasonOf result) = false) := by
  constructor
  · rintro ⟨failed, ⟨definition, exception, retry, added⟩ | ⟨owned, reason⟩⟩
    · simp [completionCall, failed, retry, added, Except.map] at issued
    · refine ⟨owned, ?_⟩
      rw [isNullOrWhiteSpace_failureReasonOf.mpr reason, failed]
      simp
  · rintro ⟨owned, refused⟩
    obtain ⟨failed, blank⟩ := not_or.mp refused
    exact ⟨Bool.not_eq_true _ ▸ failed, Or.inr ⟨owned,
      isNullOrWhiteSpace_failureReasonOf.mp (Bool.not_eq_false _ ▸ blank)⟩⟩

/-- On the job of its snapshot, a completion that issues a call is a revision that fails for a
blank failure reason alone, and that makes the job what the completion reports.
-/
theorem completionCall_revision {definitions : IJobDefinitionRegistry}
    {utcNow : DateTimeOffset} {snapshot : JobRecord} {result : JobExecutionResult}
    {call : StoreCall} {completion : JobExecutionCompletion} (ambient : Ambient)
    (issued : completionCall definitions utcNow snapshot result = .ok (call, completion))
    : ∃ revision,
        call.revision ambient = some revision
        ∧ revision.jobId = snapshot.id
        ∧ completion.status ≠ .leaseLost
        ∧ ∀ job : JobRecord,
            snapshot.SameTerms job
            → job.history = snapshot.history
            → job.isRunningUnder snapshot.currentStateChangeId = true
            → (revision.enabled job = true
                ↔ (result.succeeded = true
                  ∨ isNullOrWhiteSpace (failureReasonOf result) = false))
              ∧ (revision.change job).id = snapshot.id
              ∧ (revision.change job).status ≠ .running
              ∧ completion.Agrees (revision.change job) := by
  rcases completionCall_cases definitions utcNow snapshot result with ⟨succeeded, other⟩
    | ⟨failed, -, other⟩ | ⟨definition, failed, retry, ⟨scheduledAt, -, other⟩ | ⟨_, -, other⟩⟩
  · cases issued.symm.trans other
    refine ⟨_, rfl, rfl, by simp [JobExecutionCompletion.completed], ?_⟩
    intro job terms _ owned
    exact ⟨by simp [owned, succeeded], terms.id,
      by simp [JobRecord.markedCompleted, JobRecord.construct], rfl⟩
  · cases issued.symm.trans other
    refine ⟨_, rfl, rfl, by simp [JobExecutionCompletion.failed], ?_⟩
    intro job terms _ owned
    refine ⟨by simp [owned, failed], terms.id,
      by simp [JobRecord.transitionToFailed, JobRecord.construct], rfl, rfl⟩
  · cases issued.symm.trans other
    -- the attempts the snapshot shows are those of the stored job
    have attemptsLeft : (snapshot.attemptCount : Int) < snapshot.maxAttempts := by
      by_contra exhausted
      simp [retryDefinition, exhausted] at retry
    refine ⟨_, rfl, rfl, by simp [JobExecutionCompletion.retryScheduled], ?_⟩
    intro job terms history owned
    have left : (job.attemptCount : Int) < job.maxAttempts := by
      rw [terms.maxAttempts, JobRecord.attemptCount, history]
      exact attemptsLeft
    refine ⟨by simp [owned, failed, left], terms.id,
      by simp [JobRecord.scheduleRetry, JobRecord.construct], rfl, rfl, rfl, rfl⟩
  · cases issued.symm.trans other

namespace LawfulStore

variable {State Caller : Type} {store : LawfulStore State Caller} {caller : Caller}
  {snapshot : JobRecord} {state : State}

/-- A snapshot is owned when the job has its history still, and its claim's caller sees the
job.
-/
theorem HoldsClaim.owned_iff (held : store.HoldsClaim caller snapshot state)
    : ∃ job,
        (store.ledger state).find? snapshot.id = some job
        ∧ snapshot.SameTerms job
        ∧ store.visible caller job = true
        ∧ (Owned snapshot (store.ledger state)
          ↔ job.isRunningUnder snapshot.currentStateChangeId = true)
        ∧ (Owned snapshot (store.ledger state) → job.history = snapshot.history) := by
  obtain ⟨running, job, stored, terms, begins, coherent, seen⟩ := held.stored
  have iff : Owned snapshot (store.ledger state)
      ↔ job.isRunningUnder snapshot.currentStateChangeId = true := by
    constructor
    · rintro ⟨other, found, owned⟩
      cases stored.symm.trans found
      exact owned
    · exact fun owned => ⟨job, stored, owned⟩
  refine ⟨job, stored, terms, seen, iff, ?_⟩
  exact fun owned => (coherent.isRunningUnder_iff running begins).mp (iff.mp owned)

/-- The caller of a claim completes by the contract exactly when nothing defeats it. -/
theorem HoldsClaim.completionTotal_iff (held : store.HoldsClaim caller snapshot state)
    {ambient : Ambient} (fresh : ambient.Fresh (store.ledger state))
    (definitions : IJobDefinitionRegistry) (utcNow : DateTimeOffset)
    (result : JobExecutionResult)
    : CompletionTotal snapshot (store.ledger state)
          (store.ledger
            (completeExecution (store.methods caller) definitions utcNow ambient snapshot
              result state).2)
          (completeExecution (store.methods caller) definitions utcNow ambient snapshot result
            state).1
        ↔ ¬ Defeated definitions utcNow snapshot result (store.ledger state) := by
  rw [completeExecution_eq]
  cases issued : completionCall definitions utcNow snapshot result with
  | error exception =>
      refine iff_of_false ?_ (not_not.mpr (defeated_of_unissued issued))
      rintro ⟨completion, answered, -⟩
      cases answered
  | ok issue =>
      obtain ⟨call, completion⟩ := issue
      obtain ⟨revision, revises, target, kept, effect⟩ := completionCall_revision ambient issued
      obtain ⟨job, stored, terms, seen, ownedIff, history⟩ := held.owned_iff
      obtain ⟨again, againRevises, againTarget, tests⟩ :=
        (completionCall_carries issued).revision ambient
      cases revises.symm.trans againRevises
      rw [defeated_iff_of_issued issued]
      rcases @revision_cases _ _ store caller ambient _ _ _ held.reached.reachable.sound
        revises with
        ⟨other, next, answered, found, -, enabled, written⟩ | ⟨answered, disabled⟩
        | ⟨-, stale, -⟩
      · simp only [answered]
        cases (target ▸ found).symm.trans stored
        have owned := ownedIff.mpr (tests job enabled)
        obtain ⟨accepted, sameId, left, agrees⟩ :=
          effect job terms (history owned) (ownedIff.mp owned)
        refine iff_of_true ?_ (fun refused => refused.2 (accepted.mp enabled))
        refine ⟨completion, rfl, iff_of_false kept (not_not.mpr owned), ?_⟩
        intro _
        refine ⟨revision.change job, ?_, left, agrees⟩
        rw [written, ← sameId]
        exact KeyedTable.find?_set_self _ _
      · simp only [answered]
        have off := disabled job (target ▸ stored) seen
        constructor
        · rintro ⟨reported, answer, lost, -⟩ ⟨owned, -⟩
          cases answer
          exact lost.mp rfl owned
        · intro notDefeated
          have notOwned : ¬ Owned snapshot (store.ledger state) := by
            intro owned
            refine notDefeated ⟨owned, ?_⟩
            intro accepted
            have enabled :=
              (effect job terms (history owned) (ownedIff.mp owned)).1.mpr accepted
            cases off.symm.trans enabled
          exact ⟨.leaseLost, rfl, iff_of_true rfl notOwned,
            fun owned => absurd owned notOwned⟩
      · exact absurd fresh stale

end LawfulStore

/-- In both stores, for every snapshot that a claim of the caller returned earlier in an
orderly run and every result: the completion is total exactly when nothing defeats it.
-/
theorem completion_total_iff_notDefeated (definitions : IJobDefinitionRegistry)
    (utcNow : DateTimeOffset) (ambient : Ambient) (snapshot : JobRecord)
    (result : JobExecutionResult)
    : (∀ store,
          InMemoryJobStore.lawful.HoldsClaim () snapshot store
          → ambient.Fresh store.jobsById
          → (CompletionTotal snapshot store.jobsById
                (completeExecution InMemoryJobStore.methods definitions utcNow ambient
                  snapshot result store).2.jobsById
                (completeExecution InMemoryJobStore.methods definitions utcNow ambient
                  snapshot result store).1
              ↔ ¬ Defeated definitions utcNow snapshot result store.jobsById))
      ∧ ∀ filter db,
          SqliteJobStore.lawful.HoldsClaim filter snapshot db
          → ambient.Fresh db.ledger
          → (CompletionTotal snapshot db.ledger
                (completeExecution (SqliteJobStore.methods filter) definitions utcNow ambient
                  snapshot result db).2.ledger
                (completeExecution (SqliteJobStore.methods filter) definitions utcNow ambient
                  snapshot result db).1
              ↔ ¬ Defeated definitions utcNow snapshot result db.ledger) := by
  refine ⟨?_, ?_⟩
  · intro store held fresh
    exact held.completionTotal_iff fresh definitions utcNow result
  · intro filter db held fresh
    exact held.completionTotal_iff fresh definitions utcNow result

theorem InMemoryJobStore.firstSnapshot_held
    : InMemoryJobStore.lawful.HoldsClaim () firstSnapshot
        (InMemoryJobStore.lawful.machine.run .empty (firstClaimRun ())).2 :=
  LawfulStore.firstSnapshot_held _ _ (by decide +kernel) (by decide +kernel)

theorem SqliteJobStore.firstSnapshot_held
    : SqliteJobStore.lawful.HoldsClaim .everyRow firstSnapshot
        (SqliteJobStore.lawful.machine.run .empty (firstClaimRun .everyRow)).2 :=
  LawfulStore.firstSnapshot_held _ _ (by decide +kernel) (by decide +kernel)

/-- A success of the first claim is reported and stored as one, in both stores. -/
theorem completion_total_iff_notDefeated_success
    : CompletionTotal firstSnapshot
          (InMemoryJobStore.lawful.machine.run .empty (firstClaimRun ())).2.jobsById
          (completeExecution InMemoryJobStore.methods (fun _ => none) (.ofTicks 2)
            (smallAmbient 2) firstSnapshot .success
            (InMemoryJobStore.lawful.machine.run .empty (firstClaimRun ())).2).2.jobsById
          (completeExecution InMemoryJobStore.methods (fun _ => none) (.ofTicks 2)
            (smallAmbient 2) firstSnapshot .success
            (InMemoryJobStore.lawful.machine.run .empty (firstClaimRun ())).2).1
      ∧ CompletionTotal firstSnapshot
          (SqliteJobStore.lawful.machine.run .empty (firstClaimRun .everyRow)).2.ledger
          (completeExecution (SqliteJobStore.methods .everyRow) (fun _ => none) (.ofTicks 2)
            (smallAmbient 2) firstSnapshot .success
            (SqliteJobStore.lawful.machine.run .empty (firstClaimRun .everyRow)).2).2.ledger
          (completeExecution (SqliteJobStore.methods .everyRow) (fun _ => none) (.ofTicks 2)
            (smallAmbient 2) firstSnapshot .success
            (SqliteJobStore.lawful.machine.run .empty (firstClaimRun .everyRow)).2).1 := by
  obtain ⟨inMemory, sqlite⟩ := completion_total_iff_notDefeated (fun _ => none) (.ofTicks 2)
    (smallAmbient 2) firstSnapshot .success
  refine ⟨?_, ?_⟩
  · refine (inMemory _ InMemoryJobStore.firstSnapshot_held (by decide +kernel)).mpr ?_
    rintro ⟨failed, -⟩
    cases failed
  · refine (sqlite _ _ SqliteJobStore.firstSnapshot_held (by decide +kernel)).mpr ?_
    rintro ⟨failed, -⟩
    cases failed

/-- A failure with an empty reason is reported as `LeaseLost` while the job runs under the
snapshot's token, in both stores.
-/
theorem blank_failure_reports_leaseLost
    : InMemoryJobStore.lawful.HoldsClaim () firstSnapshot
          (InMemoryJobStore.lawful.machine.run .empty (firstClaimRun ())).2
      ∧ (completeExecution InMemoryJobStore.methods (fun _ => none) (.ofTicks 2)
            (smallAmbient 2) firstSnapshot (.failure "")
            (InMemoryJobStore.lawful.machine.run .empty (firstClaimRun ())).2).1
          = .ok .leaseLost
      ∧ Owned firstSnapshot
          (InMemoryJobStore.lawful.machine.run .empty (firstClaimRun ())).2.jobsById
      ∧ SqliteJobStore.lawful.HoldsClaim .everyRow firstSnapshot
          (SqliteJobStore.lawful.machine.run .empty (firstClaimRun .everyRow)).2
      ∧ (completeExecution (SqliteJobStore.methods .everyRow) (fun _ => none) (.ofTicks 2)
            (smallAmbient 2) firstSnapshot (.failure "")
            (SqliteJobStore.lawful.machine.run .empty (firstClaimRun .everyRow)).2).1
          = .ok .leaseLost
      ∧ Owned firstSnapshot
          (SqliteJobStore.lawful.machine.run .empty (firstClaimRun .everyRow)).2.ledger := by
  refine ⟨InMemoryJobStore.firstSnapshot_held, rfl, ?_, SqliteJobStore.firstSnapshot_held,
    by decide +kernel, ?_⟩
  · exact ⟨firstSnapshot, by decide +kernel, by decide⟩
  · exact ⟨firstSnapshot, by decide +kernel, by decide⟩

end JobScheduler
