import JobScheduler.Ledger.ClaimOrder

/-! The claim loop of the in-memory store over its pending index. The loop is modelled with
all its iterations; with an exact index it never throws for what it finds, and its first
iteration returns.
-/

namespace JobScheduler

open Library

namespace JobRecord

/-- The check of claim arguments throws argument exceptions only. -/
theorem validateClaim_argument {workerId : String} {now leaseExpiresAt : DateTimeOffset}
    {message : String}
    : validateClaim workerId now leaseExpiresAt ≠ .error (.invalidOperation message) := by
  unfold validateClaim
  by_cases blank : isNullOrWhiteSpace workerId
  · simp [blank]
  · by_cases early : leaseExpiresAt ≤ now
    · simp [blank, early]
    · simp [blank, early]

end JobRecord

namespace InMemoryJobStore

/-- How the body of the claim loop ends when it does not throw. -/
inductive ClaimIteration
  | returned (job : Option JobRecord)
  | continued
  deriving DecidableEq

/-- The body of the claim loop for the candidate of the loop's condition. -/
def claimIteration (ambient : Ambient) (now : DateTimeOffset) (workerId : String)
    (leaseExpiresAt : DateTimeOffset) (nextJob : JobQueueEntry)
    : StoreMethod InMemoryJobStore ClaimIteration := fun store =>
  match store.jobsById.find? nextJob.jobId with
  | none =>
      (.error (.invalidOperation
        ("Pending job index contains missing job '" ++ toString nextJob.jobId ++ "'.")),
        store)
  | some job =>
      if job.status = .running then
        match job.reclaimExpiredLease ambient.newGuid workerId now leaseExpiresAt with
        | .error exception => (.error exception, store)
        | .ok reclaimedJob =>
            (.ok (.returned (some reclaimedJob)),
              { store with jobsById := store.jobsById.set reclaimedJob })
      else
        let (answer, after) :=
          claimPendingJob ambient now workerId leaseExpiresAt nextJob job store
        (answer.map .returned, after)

/-- What a run of the claim loop did; it has no outcome while it wants to go on. -/
structure ClaimLoopRun where
  iterations : Nat
  outcome : Option (Except SchedulerException (Option JobRecord))
  store : InMemoryJobStore

/-- The claim loop, each iteration with what it reads from its surroundings. -/
def claimLoop (now : DateTimeOffset) (workerId : String) (leaseExpiresAt : DateTimeOffset)
    : List Ambient → InMemoryJobStore → ClaimLoopRun
  | [], store => ⟨0, none, store⟩
  | ambient :: later, store =>
      match nextDuePendingOrExpiredRunningJob now store with
      | .error exception => ⟨0, some (.error exception), store⟩
      | .ok none => ⟨0, some (.ok none), store⟩
      | .ok (some nextJob) =>
          match claimIteration ambient now workerId leaseExpiresAt nextJob store with
          | (.error exception, store) => ⟨1, some (.error exception), store⟩
          | (.ok (.returned answer), store) => ⟨1, some (.ok answer), store⟩
          | (.ok .continued, store) =>
              let rest := claimLoop now workerId leaseExpiresAt later store
              ⟨rest.iterations + 1, rest.outcome, rest.store⟩

section Loop

variable {store : InMemoryJobStore} {ambient : Ambient} {now : DateTimeOffset}
  {workerId : String} {leaseExpiresAt : DateTimeOffset}

/-- An iteration is what `tryClaimNextDueJob` does with the candidate, and it ends there. -/
theorem claimIteration_eq {nextJob : JobQueueEntry}
    (next : nextDuePendingOrExpiredRunningJob now store = .ok (some nextJob))
    : claimIteration ambient now workerId leaseExpiresAt nextJob store
      = ((tryClaimNextDueJob ambient now workerId leaseExpiresAt store).1.map .returned,
          (tryClaimNextDueJob ambient now workerId leaseExpiresAt store).2) := by
  simp only [claimIteration, tryClaimNextDueJob, next]
  cases found : store.jobsById.find? nextJob.jobId with
  | none => rfl
  | some job =>
      by_cases running : job.status = .running
      · simp only [running, if_true]
        cases job.reclaimExpiredLease ambient.newGuid workerId now leaseExpiresAt with
        | error exception => rfl
        | ok reclaimedJob => rfl
      · simp only [running, if_false]

/-- The loop does what `tryClaimNextDueJob` does, in one iteration if the loop's condition
has a candidate and in none otherwise.
-/
theorem claimLoop_eq (later : List Ambient)
    : claimLoop now workerId leaseExpiresAt (ambient :: later) store
      = ⟨match nextDuePendingOrExpiredRunningJob now store with
          | .ok (some _) => 1
          | _ => 0,
        some (tryClaimNextDueJob ambient now workerId leaseExpiresAt store).1,
        (tryClaimNextDueJob ambient now workerId leaseExpiresAt store).2⟩ := by
  cases next : nextDuePendingOrExpiredRunningJob now store with
  | error exception => simp only [claimLoop, tryClaimNextDueJob, next]
  | ok candidate =>
      cases candidate with
      | none => simp only [claimLoop, tryClaimNextDueJob, next]
      | some nextJob =>
          simp only [claimLoop, next, claimIteration_eq next]
          cases outcome : tryClaimNextDueJob ambient now workerId leaseExpiresAt store with
          | mk answer after =>
              cases answer with
              | error exception => rfl
              | ok answer => rfl

/-- What the index offers can be claimed, so a claim throws for its arguments only. -/
theorem Indexed.claim_argument (indexed : store.Indexed) {message : String}
    : (tryClaimNextDueJob ambient now workerId leaseExpiresAt store).1
      ≠ .error (.invalidOperation message) := by
  rcases indexed.next_spec now with
    ⟨nothing, -, -⟩ | ⟨nextJob, job, next, found, -, -, ready, -, -⟩
  · rw [tryClaimNextDueJob, nothing]
    simp
  · cases checked : JobRecord.validateClaim workerId now leaseExpiresAt with
    | ok =>
        have valid := JobRecord.validateClaim_ok.mp checked
        obtain ⟨pendingJobs, claimed, -⟩ := @Indexed.claim_of_valid store ambient _ _ _ _ _
          indexed next found (ready.imp_left (fun pending => ⟨pending.1, pending.2.1⟩)) valid
        rw [claimed]
        simp
    | error exception =>
        have apart : exception ≠ .invalidOperation message := by
          rintro rfl
          exact JobRecord.validateClaim_argument checked
        rcases @claim_of_error store ambient _ _ _ _ _ next found (ready.imp_left And.left) _
          checked with ⟨-, thrown⟩ | ⟨-, thrown⟩
        · rw [thrown]
          simpa using apart
        · rw [thrown]
          simpa using apart

/-- With valid arguments a claim does not throw, and the loop returns a job in its first
iteration or answers `null` without one.
-/
theorem Indexed.claimLoop_of_valid (indexed : store.Indexed)
    (valid : JobRecord.ValidClaim workerId now leaseExpiresAt)
    : ∃ answer after,
        tryClaimNextDueJob ambient now workerId leaseExpiresAt store = (.ok answer, after)
        ∧ ∀ later,
            claimLoop now workerId leaseExpiresAt (ambient :: later) store
            = ⟨if answer.isSome then 1 else 0, some (.ok answer), after⟩ := by
  rcases indexed.next_spec now with
    ⟨nothing, -, -⟩ | ⟨nextJob, job, next, found, -, -, ready, -, -⟩
  · have claimed : tryClaimNextDueJob ambient now workerId leaseExpiresAt store
        = (.ok none, store) := by rw [tryClaimNextDueJob, nothing]
    refine ⟨none, store, claimed, fun later => ?_⟩
    rw [claimLoop_eq, nothing, claimed]
    rfl
  · obtain ⟨pendingJobs, claimed, -⟩ := @Indexed.claim_of_valid store ambient _ _ _ _ _
      indexed next found (ready.imp_left (fun pending => ⟨pending.1, pending.2.1⟩)) valid
    refine ⟨_, _, claimed, fun later => ?_⟩
    rw [claimLoop_eq, next, claimed]
    rfl

end Loop

/-- The index holds one entry for each stored job that is queued or scheduled, at the run
instant of the job, and none for any other job.
-/
structure PendingIndexInvariant (store : InMemoryJobStore) : Prop where
  oneEntry
    : ∀ job ∈ store.jobsById.rows,
        (job.status = .queued ∨ job.status = .scheduled)
        → ∃! entry, entry ∈ store.pendingJobs ∧ entry.jobId = job.id
  noOther
    : ∀ entry ∈ store.pendingJobs,
        ∃ job ∈ store.jobsById.rows,
          job.id = entry.jobId
          ∧ (job.status = .queued ∨ job.status = .scheduled)
          ∧ job.runAt = some entry.runAt

theorem isPending_iff {job : JobRecord}
    : job.isPending = true ↔ job.status = .queued ∨ job.status = .scheduled := by
  simp [JobRecord.isPending]

theorem Exact.pendingIndexInvariant {store : InMemoryJobStore} (exact : store.Exact)
    : store.PendingIndexInvariant where
  oneEntry job member waits := by
    obtain ⟨entry, there, same⟩ := exact.complete job member (isPending_iff.mpr waits)
    refine ⟨entry, ⟨there, same⟩, ?_⟩
    rintro other ⟨otherThere, otherSame⟩
    exact exact.unique other otherThere entry there (otherSame.trans same.symm)
  noOther entry member := by
    obtain ⟨job, found, waits, runAt⟩ := exact.entries entry member
    exact ⟨job, KeyedTable.find?_mem found, KeyedTable.find?_key found,
      isPending_iff.mp waits, runAt⟩

/-- Jobs are added as `Enqueue` and `Schedule` make them, under ids that are not stored, and
claims name a worker and a lease that lies ahead.
-/
def ProperCall (store : InMemoryJobStore) (input : StoreInput Unit) : Prop :=
  lawful.NewIds store input ∧ input.call.ValidIfClaim

/-- After every sequence of proper calls the index is exact, each call at a time. -/
theorem exact_of_properCalls {store : InMemoryJobStore}
    (reached : lawful.machine.Reaches ProperCall .empty store)
    : store.Exact :=
  reached.preserves
    (fun _ input exact proper =>
      exact.call input.ambient proper.1.admissible proper.1.newId proper.2)
    empty_exact

/-- After every sequence of proper calls the index holds one entry for each pending job, at
its run instant, and no other. A claim then throws no `InvalidOperationException`; with valid
arguments it does not throw at all, and its loop returns in its first iteration.
-/
theorem pending_index_in_step {store : InMemoryJobStore}
    (reached : lawful.machine.Reaches ProperCall .empty store)
    : store.PendingIndexInvariant
      ∧ (∀ ambient now workerId leaseExpiresAt message,
          (tryClaimNextDueJob ambient now workerId leaseExpiresAt store).1
          ≠ .error (.invalidOperation message))
      ∧ ∀ ambient now workerId leaseExpiresAt,
          JobRecord.ValidClaim workerId now leaseExpiresAt
          → ∃ answer after,
              tryClaimNextDueJob ambient now workerId leaseExpiresAt store
                = (.ok answer, after)
              ∧ ∀ later,
                  claimLoop now workerId leaseExpiresAt (ambient :: later) store
                  = ⟨if answer.isSome then 1 else 0, some (.ok answer), after⟩ := by
  have exact := exact_of_properCalls reached
  refine ⟨exact.pendingIndexInvariant, ?_, ?_⟩
  · intro ambient now workerId leaseExpiresAt message
    exact exact.toIndexed.claim_argument
  · intro ambient now workerId leaseExpiresAt valid
    exact exact.toIndexed.claimLoop_of_valid valid

/-- After claims, a retry and an expired lease, the two waiting jobs have their entries, and a
claim takes the job whose lease has expired at once.
-/
theorem pending_index_in_step_busy
    : busy.PendingIndexInvariant
      ∧ busy.pendingJobs.image (fun entry => (entry.jobId, entry.runAt))
        = {(⟨2⟩, .ofTicks 7), (⟨3⟩, .ofTicks 6)}
      ∧ ∃ answer after,
          tryClaimNextDueJob (smallAmbient 8) (.ofTicks 8) "worker-1" (.ofTicks 15) busy
            = (.ok answer, after)
          ∧ ∀ later,
              claimLoop (.ofTicks 8) "worker-1" (.ofTicks 15) (smallAmbient 8 :: later) busy
              = ⟨if answer.isSome then 1 else 0, some (.ok answer), after⟩ := by
  have reached : lawful.machine.Reaches ProperCall .empty busy :=
    (Machine.reaches_run busyRun_orderly).mono (fun _ _ met =>
      ⟨⟨met.1.admissible, fun job added => (met.1.newJob job added).1⟩, met.2⟩)
  obtain ⟨kept, -, returns⟩ := pending_index_in_step reached
  exact ⟨kept, by decide +kernel, returns _ _ _ _ (by decide +kernel)⟩

end InMemoryJobStore

end JobScheduler
