import JobScheduler.Ledger.AttemptReports

/-! How far attempts go beyond their maximal number. Only the reclaim of an expired lease starts
a run without an attempt left, so the reported attempts stay within the bound.
-/

namespace JobScheduler

open Library

namespace JobRecord

/-- Runs beyond the maximal number are paid for by reclaims, and a pending job has an attempt
left whatever was reclaimed.
-/
structure LimitInvariant (job : JobRecord) : Prop where
  legal : job.LegalHistory
  within : (job.attemptCount : Int) ≤ job.maxAttempts + job.reclaimCount
  pendingLeft : job.isPending = true → (job.attemptCount : Int) < job.maxAttempts

/-- A new job has run not once. -/
theorem NewlyMade.limitInvariant {job : JobRecord} (new : job.NewlyMade)
    : job.LimitInvariant := by
  obtain ⟨within, pendingLeft⟩ := new.attemptsInvariant
  unfold WithinMaxAttempts at within
  exact ⟨new.legalHistory, by omega, pendingLeft⟩

/-- Every step keeps the invariant: the claim of a running job is a reclaim, and other claims
find a pending job.
-/
theorem LimitInvariant.step {nextDue : DateTimeOffset → Option JobRecord} {ambient : Ambient}
    {call : StoreCall} {job changed : JobRecord} (invariant : job.LimitInvariant)
    (step : RecordStep nextDue ambient call job changed)
    : changed.LimitInvariant := by
  obtain ⟨legal, within, pendingLeft⟩ := invariant
  have attempts := step.attemptCount_eq
  have bound := step.sameTerms.maxAttempts
  have unclaimed (idle : ∀ now workerId leaseExpiresAt,
      call = .tryClaimNextDueJob now workerId leaseExpiresAt → job.status ≠ .running)
      : changed.reclaimCount = job.reclaimCount :=
    legal.reclaimCount_eq step idle
  refine ⟨legal.step step, ?_, ?_⟩
  · cases step with
    | claimed picked ready valid =>
        rw [JobRecord.countP_claim] at attempts
        rcases ready with waiting | expired
        · have left := pendingLeft waiting
          rw [attempts, bound, unclaimed (by
            intro _ _ _ _ running
            simp [JobRecord.isPending, running] at waiting)]
          omega
        · rw [attempts, bound,
            legal.reclaimCount_claim (.claimed picked (Or.inr expired) valid) expired.1]
          omega
    | renewed | acknowledged | retried | completed | failed =>
        rw [attempts, bound, unclaimed (fun _ _ _ claims => by cases claims)]
        exact within
  · intro waiting
    cases step with
    | claimed => simp [JobRecord.isPending] at waiting
    | renewed | acknowledged =>
        rw [attempts, bound]
        exact pendingLeft waiting
    | retried running present attemptsLeft =>
        rw [attempts, bound]
        exact attemptsLeft
    | completed | failed => cases waiting

end JobRecord

namespace LawfulStore

variable {State Caller : Type} {store : LawfulStore State Caller}

/-- Every job in every reachable state has the invariant. -/
theorem Reachable.limitInvariant {state : State} (reached : store.Reachable state)
    : ∀ job ∈ store.jobs state, job.LimitInvariant :=
  @LawfulStore.jobs_reached _ _ store JobRecord.LimitInvariant _
    (fun _ _ admissible => admissible) (fun _ _ _ _ _ new => new.limitInvariant)
    (fun _ _ _ _ _ one _ invariant => invariant.step one) state reached

/-- The reported attempts are the counted ones without the reclaimed runs. -/
theorem Reachable.attemptLimit {state : State} (reached : store.Reachable state)
    {job : JobRecord} (member : job ∈ store.jobs state)
    : (job.attempts.length : Int) ≤ job.maxAttempts
      ∧ (job.attemptCount : Int) ≤ job.maxAttempts + job.reclaimCount
      ∧ (job.isPending = true → (job.attemptCount : Int) < job.maxAttempts) := by
  obtain ⟨legal, within, pendingLeft⟩ := reached.limitInvariant job member
  have reported := legal.length_attempts
  exact ⟨by omega, within, pendingLeft⟩

end LawfulStore

/-- In both stores, whatever calls were made, if jobs were added as `Enqueue` and `Schedule` make
them: `Attempts` never lists more attempts than the job may have, `AttemptCount` exceeds that
number by no more than the leases of the job that were reclaimed, and a job that waits has an
attempt left.
-/
theorem attempts_within_max
    : (∀ store job,
          InMemoryJobStore.lawful.Reachable store
          → job ∈ InMemoryJobStore.lawful.jobs store
          → (job.attempts.length : Int) ≤ job.maxAttempts
            ∧ (job.attemptCount : Int) ≤ job.maxAttempts + job.reclaimCount
            ∧ (job.isPending = true → (job.attemptCount : Int) < job.maxAttempts))
      ∧ ∀ db job,
          SqliteJobStore.lawful.Reachable db
          → job ∈ SqliteJobStore.lawful.jobs db
          → (job.attempts.length : Int) ≤ job.maxAttempts
            ∧ (job.attemptCount : Int) ≤ job.maxAttempts + job.reclaimCount
            ∧ (job.isPending = true → (job.attemptCount : Int) < job.maxAttempts) :=
  ⟨fun _ _ reached member => reached.attemptLimit member,
    fun _ _ reached member => reached.attemptLimit member⟩

/-- In both stores the job that was claimed again after a crash has run twice where one attempt
is allowed: one attempt is reported and one lease was reclaimed.
-/
theorem attempts_within_max_reclaimed
    : reclaimedSnapshot.attemptCount = 2
      ∧ ((reclaimedSnapshot.attempts.length : Int) ≤ reclaimedSnapshot.maxAttempts
        ∧ (reclaimedSnapshot.attemptCount : Int)
          ≤ reclaimedSnapshot.maxAttempts + reclaimedSnapshot.reclaimCount)
      ∧ (reclaimedSnapshot.attempts.length : Int) ≤ reclaimedSnapshot.maxAttempts
      ∧ (reclaimedSnapshot.attemptCount : Int)
        ≤ reclaimedSnapshot.maxAttempts + reclaimedSnapshot.reclaimCount := by
  have inMemory := attempts_within_max.1
    (InMemoryJobStore.lawful.machine.run .empty (crashedWorkerRun ())).2 reclaimedSnapshot
    (Machine.reaches_run (crashedWorkerRun_admissible _ _ _)) (by decide +kernel)
  have sqlite := attempts_within_max.2
    (SqliteJobStore.lawful.machine.run .empty (crashedWorkerRun .everyRow)).2 reclaimedSnapshot
    (Machine.reaches_run (crashedWorkerRun_admissible _ _ _)) (by decide +kernel)
  exact ⟨by decide, ⟨inMemory.1, inMemory.2.1⟩, sqlite.1, sqlite.2.1⟩

end JobScheduler
