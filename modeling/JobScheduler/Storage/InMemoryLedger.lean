import JobScheduler.Ledger.LawfulStore
import JobScheduler.Storage.InMemoryJobStore

/-! The in-memory store follows the ledger in every state: the dictionary is the ledger, and
the pending index only decides which job a claim looks at.
-/

namespace JobScheduler

open Library

namespace JobRecord

/-- The last entry of a retry decides the instant a retried job is scheduled at. -/
theorem scheduledAt_scheduleRetry (job : JobRecord) (failedGuid scheduledGuid : Guid)
    (reason : String) (failedAt retryAt : DateTimeOffset)
    : (job.scheduleRetry failedGuid scheduledGuid reason failedAt retryAt).scheduledAt
      = some retryAt := by
  simp only [scheduledAt, lastChange, scheduleRetry, construct, numbered_append,
    List.reverse_append]
  rfl

end JobRecord

namespace InMemoryJobStore

/-- A new job enters the index at the instant it may run. -/
theorem ofJob_of_newlyMade {job : JobRecord} (new : job.NewlyMade) (addedAt : DateTimeOffset)
    : ∃ runAt,
        job.runAt = some runAt
        ∧ JobQueueEntry.ofJob job addedAt = .ok ⟨runAt, addedAt, job.id⟩ := by
  obtain ⟨newGuid, changedAt, reason, made, -⟩ := new.cases
  rcases made with ⟨history, _, runAt⟩ | ⟨scheduledAt, history, _, runAt⟩
  · refine ⟨changedAt, runAt, ?_⟩
    simp only [JobQueueEntry.ofJob, JobRecord.scheduledAt, JobRecord.lastChange,
      JobRecord.enqueuedAt, history]
    rfl
  · refine ⟨scheduledAt, runAt, ?_⟩
    simp only [JobQueueEntry.ofJob, JobRecord.scheduledAt, JobRecord.lastChange, history]
    rfl

theorem ofJob_of_retry (job : JobRecord) (failedGuid scheduledGuid : Guid)
    (reason : String) (failedAt retryAt addedAt : DateTimeOffset)
    : JobQueueEntry.ofJob
        (job.scheduleRetry failedGuid scheduledGuid reason failedAt retryAt) addedAt
      = .ok ⟨retryAt, addedAt, job.id⟩ := by
  simp only [JobQueueEntry.ofJob, JobRecord.scheduledAt_scheduleRetry]
  rfl

-----------------------------------------------------------------------------------------
-- Calls one at a time
-----------------------------------------------------------------------------------------

/-- Adding a new job stores it and enters it in the index. -/
theorem call_add {job : JobRecord} (new : job.NewlyMade) (ambient : Ambient)
    (store : InMemoryJobStore)
    : ∃ runAt,
        job.runAt = some runAt
        ∧ methods.call ambient (.add job) store
          = (.done, ⟨store.jobsById.set job,
              insert ⟨runAt, ambient.utcNow, job.id⟩ store.pendingJobs⟩) := by
  obtain ⟨runAt, due, entry⟩ := ofJob_of_newlyMade new ambient.utcNow
  have waiting : job.status = .queued ∨ job.status = .scheduled := by
    obtain ⟨_, _, _, made, -⟩ := new.cases
    rcases made with ⟨_, queued, _⟩ | ⟨_, _, scheduled, _⟩
    · exact Or.inl queued
    · exact Or.inr scheduled
  refine ⟨runAt, due, ?_⟩
  simp only [IJobStore.call, methods, add, addPendingJobUnderLock, waiting, if_true, entry]
  rfl

/-- The index entry a call adds if it is accepted. -/
def requeuedEntry (ambient : Ambient) : StoreCall → Finset JobQueueEntry
  | .scheduleRetry id _ _ scheduledAt => {⟨scheduledAt, ambient.utcNowAgain, id⟩}
  | _ => ∅

/-- The lookup under a claim token is a filtered lookup. -/
theorem ownedJob?_eq (store : InMemoryJobStore) (id token : Guid)
    : store.ownedJob? id token
      = (store.jobsById.find? id).filter (fun job => job.isRunningUnder token) :=
  rfl

/-- A test that no job passes finds no job. -/
private theorem filter_of_disabled {found : Option JobRecord} {enabled : JobRecord → Bool}
    (disabled : ∀ job, enabled job = false)
    : found.filter enabled = none := by
  cases found <;> simp [disabled]

/-- A revision of one job replaces its record if the job is stored and passes the test,
and changes nothing otherwise. A retry also enters the index.
-/
theorem call_revision {ambient : Ambient} {call : StoreCall} {revision : Revision}
    (revises : call.revision ambient = some revision) (store : InMemoryJobStore)
    : methods.call ambient call store
      = match (store.jobsById.find? revision.jobId).filter revision.enabled with
        | some job =>
            (.flag true, ⟨store.jobsById.set (revision.change job),
              requeuedEntry ambient call ∪ store.pendingJobs⟩)
        | none => (.flag false, store) := by
  cases call with
  | add => cases revises
  | get => cases revises
  | list => cases revises
  | tryClaimNextDueJob => cases revises
  | renewLease id token renewedAt leaseExpiresAt =>
      cases revises
      by_cases later : renewedAt < leaseExpiresAt
      · simp only [IJobStore.call, methods, renewLease, not_le.mpr later, if_false,
          ownedJob?_eq, later, decide_true, Bool.true_and]
        cases owned : (store.jobsById.find? id).filter (·.isRunningUnder token) with
        | none => rfl
        | some job =>
            have running := (JobRecord.isRunningUnder_iff.mp
              (Option.filter_eq_some_iff.mp owned).2).1
            simp [JobRecord.renewLease_of_later running later, requeuedEntry]
      · rw [filter_of_disabled (by simp [later])]
        simp [IJobStore.call, methods, renewLease, not_lt.mp later]
  | markCompleted id token =>
      cases revises
      simp only [IJobStore.call, methods, markCompleted, ownedJob?_eq]
      cases owned : (store.jobsById.find? id).filter (·.isRunningUnder token) with
      | none => rfl
      | some job => simp [requeuedEntry]
  | markFailed id token reason =>
      cases revises
      by_cases blank : isNullOrWhiteSpace reason
      · rw [filter_of_disabled (by simp [blank])]
        simp [IJobStore.call, methods, markFailed, blank]
      · simp only [IJobStore.call, methods, markFailed, ownedJob?_eq, blank,
          Bool.false_eq_true, if_false, Bool.not_false, Bool.true_and]
        cases owned : (store.jobsById.find? id).filter (·.isRunningUnder token) with
        | none => rfl
        | some job => simp [requeuedEntry]
  | scheduleRetry id token reason scheduledAt =>
      cases revises
      by_cases blank : isNullOrWhiteSpace reason
      · rw [filter_of_disabled (by simp [blank])]
        simp [IJobStore.call, methods, scheduleRetry, blank]
      · simp only [IJobStore.call, methods, scheduleRetry, ownedJob?_eq, blank,
          Bool.false_eq_true, if_false, Bool.not_false, Bool.true_and]
        rw [← Option.filter_filter]
        cases owned : (store.jobsById.find? id).filter (·.isRunningUnder token) with
        | none => rfl
        | some job =>
            have stored := (Option.filter_eq_some_iff.mp owned).1
            by_cases exhausted : job.maxAttempts ≤ job.attemptCount
            · simp [exhausted, Option.filter, not_lt.mpr exhausted]
            · have pending : (job.scheduleRetry ambient.newGuid ambient.newGuidAgain reason
                  ambient.utcNow scheduledAt).status = .scheduled := rfl
              simp [exhausted, Option.filter, not_le.mp exhausted, addPendingJobUnderLock,
                pending, ofJob_of_retry, requeuedEntry, KeyedTable.find?_key stored]
  | acknowledge id acknowledgedBy acknowledgedAt =>
      cases revises
      by_cases blank : isNullOrWhiteSpace acknowledgedBy
      · rw [filter_of_disabled (by simp [blank])]
        simp [IJobStore.call, methods, acknowledge, blank]
      · simp only [IJobStore.call, methods, acknowledge, blank, Bool.false_eq_true, if_false,
          Bool.not_false]
        cases found : store.jobsById.find? id with
        | none => rfl
        | some job =>
            simp [JobRecord.acknowledge_of_named (Bool.not_eq_true _ ▸ blank), Option.filter,
              requeuedEntry]

/-- The stored job the claim loop looks at first. -/
def nextDue (store : InMemoryJobStore) (now : DateTimeOffset) : Option JobRecord :=
  match nextDuePendingOrExpiredRunningJob now store with
  | .ok (some nextJob) => store.jobsById.find? nextJob.jobId
  | _ => none

/-- The body of the loop for a pending job with valid arguments: the entry leaves the index
and the job is stored as running.
-/
theorem claimPendingJob_of_valid {ambient : Ambient} {now : DateTimeOffset}
    {workerId : String} {leaseExpiresAt : DateTimeOffset} {job : JobRecord}
    (waiting : job.isPending = true)
    (valid : JobRecord.ValidClaim workerId now leaseExpiresAt) (nextJob : JobQueueEntry)
    (store : InMemoryJobStore)
    : claimPendingJob ambient now workerId leaseExpiresAt nextJob job store
      = (.ok (some (job.claimedUnder ambient now workerId leaseExpiresAt)),
          ⟨store.jobsById.set (job.claimedUnder ambient now workerId leaseExpiresAt),
            store.pendingJobs.erase nextJob⟩) := by
  cases status : job.status with
  | queued =>
      simp only [claimPendingJob, status, reduceCtorEq, if_false, ne_eq, not_true_eq_false,
        JobRecord.claim_of_valid valid, JobRecord.claimedUnder]
  | scheduled =>
      have queued : (job.requeued ambient.newGuid now).status = .queued := rfl
      simp only [claimPendingJob, status, if_true, JobRecord.transitionTo_queued, queued, ne_eq,
        not_true_eq_false, if_false, JobRecord.claim_of_valid valid, JobRecord.claimedUnder]
  | running | completed | failed => simp [JobRecord.isPending, status] at waiting

/-- The same with arguments that are not valid: the claim throws after the entry has left
the index.
-/
theorem claimPendingJob_of_error {ambient : Ambient} {now : DateTimeOffset}
    {workerId : String} {leaseExpiresAt : DateTimeOffset} {job : JobRecord}
    {exception : SchedulerException} (waiting : job.isPending = true)
    (checked : JobRecord.validateClaim workerId now leaseExpiresAt = .error exception)
    (nextJob : JobQueueEntry) (store : InMemoryJobStore)
    : claimPendingJob ambient now workerId leaseExpiresAt nextJob job store
      = (.error exception, ⟨store.jobsById, store.pendingJobs.erase nextJob⟩) := by
  cases status : job.status with
  | queued =>
      simp only [claimPendingJob, status, reduceCtorEq, if_false, ne_eq, not_true_eq_false,
        JobRecord.claim_of_error checked]
  | scheduled =>
      have queued : (job.requeued ambient.newGuid now).status = .queued := rfl
      simp only [claimPendingJob, status, if_true, JobRecord.transitionTo_queued, queued, ne_eq,
        not_true_eq_false, if_false, JobRecord.claim_of_error checked]
  | running | completed | failed => simp [JobRecord.isPending, status] at waiting

/-- An entry of a job that is finished makes the claim throw. -/
theorem claimPendingJob_of_finished {ambient : Ambient} {now : DateTimeOffset}
    {workerId : String} {leaseExpiresAt : DateTimeOffset} {job : JobRecord}
    (notPending : job.isPending = false) (nextJob : JobQueueEntry) (store : InMemoryJobStore)
    : ∃ exception,
        claimPendingJob ambient now workerId leaseExpiresAt nextJob job store
        = (.error exception, ⟨store.jobsById, store.pendingJobs.erase nextJob⟩) := by
  obtain ⟨notQueued, notScheduled⟩ : job.status ≠ .queued ∧ job.status ≠ .scheduled := by
    simpa [JobRecord.isPending] using notPending
  exact ⟨_, by simp only [claimPendingJob, notScheduled, if_false, ne_eq, notQueued,
    not_false_eq_true, if_true]; rfl⟩

/-- The loop body once an entry is picked and its job is found. -/
theorem tryClaimNextDueJob_of_picked {ambient : Ambient} {now : DateTimeOffset}
    {workerId : String} {leaseExpiresAt : DateTimeOffset} {store : InMemoryJobStore}
    {nextJob : JobQueueEntry} {job : JobRecord}
    (next : nextDuePendingOrExpiredRunningJob now store = .ok (some nextJob))
    (found : store.jobsById.find? nextJob.jobId = some job)
    : tryClaimNextDueJob ambient now workerId leaseExpiresAt store
      = if job.status = .running then
          match job.reclaimExpiredLease ambient.newGuid workerId now leaseExpiresAt with
          | .error exception => (.error exception, store)
          | .ok reclaimedJob =>
              (.ok (some reclaimedJob),
                { store with jobsById := store.jobsById.set reclaimedJob })
        else
          claimPendingJob ambient now workerId leaseExpiresAt nextJob job store := by
  by_cases running : job.status = .running
  · cases reclaims : job.reclaimExpiredLease ambient.newGuid workerId now leaseExpiresAt <;>
      simp only [tryClaimNextDueJob, next, found, if_pos running, reclaims]
  · simp only [tryClaimNextDueJob, next, found, if_neg running]

/-- The reclaim of an expired job with valid arguments leaves the index alone. -/
theorem tryClaimNextDueJob_of_expired {ambient : Ambient} {now : DateTimeOffset}
    {workerId : String} {leaseExpiresAt : DateTimeOffset} {store : InMemoryJobStore}
    {nextJob : JobQueueEntry} {job : JobRecord}
    (next : nextDuePendingOrExpiredRunningJob now store = .ok (some nextJob))
    (found : store.jobsById.find? nextJob.jobId = some job) (expired : job.LeaseExpired now)
    (valid : JobRecord.ValidClaim workerId now leaseExpiresAt)
    : tryClaimNextDueJob ambient now workerId leaseExpiresAt store
      = (.ok (some (job.claimedUnder ambient now workerId leaseExpiresAt)),
          ⟨store.jobsById.set (job.claimedUnder ambient now workerId leaseExpiresAt),
            store.pendingJobs⟩) := by
  rw [tryClaimNextDueJob_of_picked next found, if_pos expired.1,
    JobRecord.reclaim_of_valid expired valid]
  simp only [JobRecord.claimedUnder, expired.1]

/-- A valid claim of the stored job the loop looks at first, be it pending or expired. -/
theorem tryClaimNextDueJob_of_ready {ambient : Ambient} {now : DateTimeOffset}
    {workerId : String} {leaseExpiresAt : DateTimeOffset} {store : InMemoryJobStore}
    {nextJob : JobQueueEntry} {job : JobRecord}
    (next : nextDuePendingOrExpiredRunningJob now store = .ok (some nextJob))
    (found : store.jobsById.find? nextJob.jobId = some job)
    (ready : job.isPending = true ∨ job.LeaseExpired now)
    (valid : JobRecord.ValidClaim workerId now leaseExpiresAt)
    : tryClaimNextDueJob ambient now workerId leaseExpiresAt store
      = (.ok (some (job.claimedUnder ambient now workerId leaseExpiresAt)),
          ⟨store.jobsById.set (job.claimedUnder ambient now workerId leaseExpiresAt),
            if job.isPending then store.pendingJobs.erase nextJob else store.pendingJobs⟩) := by
  by_cases waiting : job.isPending = true
  · have idle : job.status ≠ .running := by
      intro running
      simp [JobRecord.isPending, running] at waiting
    rw [tryClaimNextDueJob_of_picked next found, if_neg idle, if_pos waiting]
    exact claimPendingJob_of_valid waiting valid nextJob store
  · rw [if_neg waiting]
    exact tryClaimNextDueJob_of_expired next found (ready.resolve_left waiting) valid

/-- What a claim can do: throw with the records as they were, find nothing, or claim the
stored job it looks at first. By the checks of the claim loop, in their order.
-/
theorem tryClaimNextDueJob_cases (ambient : Ambient) (now : DateTimeOffset)
    (workerId : String) (leaseExpiresAt : DateTimeOffset) (store : InMemoryJobStore)
    : (∃ exception pending,
          tryClaimNextDueJob ambient now workerId leaseExpiresAt store
          = (.error exception, ⟨store.jobsById, pending⟩))
      ∨ tryClaimNextDueJob ambient now workerId leaseExpiresAt store = (.ok none, store)
      ∨ ∃ job pending,
          tryClaimNextDueJob ambient now workerId leaseExpiresAt store
            = (.ok (some (job.claimedUnder ambient now workerId leaseExpiresAt)),
                ⟨store.jobsById.set (job.claimedUnder ambient now workerId leaseExpiresAt),
                  pending⟩)
          ∧ store.nextDue now = some job
          ∧ store.jobsById.find? job.id = some job
          ∧ (job.isPending = true ∨ job.LeaseExpired now)
          ∧ JobRecord.ValidClaim workerId now leaseExpiresAt := by
  cases next : nextDuePendingOrExpiredRunningJob now store with
  | error exception =>
      exact Or.inl ⟨exception, _, by simp only [tryClaimNextDueJob, next]; rfl⟩
  | ok picked =>
      cases picked with
      | none => exact Or.inr (Or.inl (by simp only [tryClaimNextDueJob, next]))
      | some nextJob =>
          cases found : store.jobsById.find? nextJob.jobId with
          | none => exact Or.inl ⟨_, _, by simp only [tryClaimNextDueJob, next, found]; rfl⟩
          | some job =>
              have picks : store.nextDue now = some job := by simp [nextDue, next, found]
              have stored : store.jobsById.find? job.id = some job :=
                KeyedTable.find?_of_mem (KeyedTable.find?_mem found)
              by_cases running : job.status = .running
              · cases reclaimed : job.reclaimExpiredLease ambient.newGuid workerId now
                    leaseExpiresAt with
                | error exception =>
                    refine Or.inl ⟨exception, store.pendingJobs, ?_⟩
                    rw [tryClaimNextDueJob_of_picked next found, if_pos running, reclaimed]
                | ok claimed =>
                    obtain ⟨expired, valid, -⟩ := JobRecord.reclaim_ok reclaimed
                    exact Or.inr (Or.inr ⟨job, _,
                      tryClaimNextDueJob_of_expired next found expired valid, picks, stored,
                      Or.inr expired, valid⟩)
              · have body := @tryClaimNextDueJob_of_picked ambient now workerId leaseExpiresAt _ _ _
                  next found
                rw [if_neg running] at body
                by_cases waiting : job.isPending = true
                · by_cases valid : JobRecord.ValidClaim workerId now leaseExpiresAt
                  · have ready : job.isPending = true ∨ job.LeaseExpired now := Or.inl waiting
                    exact Or.inr (Or.inr ⟨job, _,
                      tryClaimNextDueJob_of_ready next found ready valid, picks, stored, ready,
                      valid⟩)
                  · obtain ⟨exception, checked⟩ := JobRecord.validateClaim_error valid
                    exact Or.inl ⟨exception, _,
                      body.trans (claimPendingJob_of_error waiting checked nextJob store)⟩
                · obtain ⟨exception, thrown⟩ :=
                    claimPendingJob_of_finished (Bool.not_eq_true _ ▸ waiting) nextJob store
                  exact Or.inl ⟨exception, _, body.trans thrown⟩

-----------------------------------------------------------------------------------------
-- The store as a lawful one
-----------------------------------------------------------------------------------------

/-- Every call follows the ledger, one kind of call at a time. -/
theorem call_follows (ambient : Ambient) (call : StoreCall) (store : InMemoryJobStore)
    (admissible : call.Admissible)
    : LedgerStep (fun _ => true) store.nextDue ambient store.jobsById call
        (methods.call ambient call store).1 (methods.call ambient call store).2.jobsById := by
  cases revises : call.revision ambient with
  | some revision =>
      rw [call_revision revises]
      cases enabled : (store.jobsById.find? revision.jobId).filter revision.enabled with
      | none =>
          refine .refused revises ?_
          intro job stored _
          have tested := Option.filter_eq_none_iff.mp enabled job stored
          exact Bool.not_eq_true _ ▸ tested
      | some job =>
          obtain ⟨stored, passes⟩ := Option.filter_eq_some_iff.mp enabled
          exact .revised revises stored rfl passes
  | none =>
      cases call with
      | add job =>
          obtain ⟨runAt, _, outcome⟩ := call_add (admissible job rfl) ambient store
          rw [outcome]
          exact .added (admissible job rfl)
      | get id =>
          have answer : store.jobsById.find? id
              = (store.jobsById.find? id).filter (fun _ => true) := by
            cases store.jobsById.find? id <;> rfl
          simp only [IJobStore.call, methods, get, Prod.map, StoreAnswer.of_ok, id_eq]
          rw [answer]
          exact .got id
      | list =>
          have answer : store.jobsById.rows.filter (fun _ => true) = store.jobsById.rows :=
            List.filter_true _
          simp only [IJobStore.call, methods, list, Prod.map, id_eq]
          rw [← answer]
          exact .listed
      | tryClaimNextDueJob now workerId leaseExpiresAt =>
          simp only [IJobStore.call, methods]
          rcases tryClaimNextDueJob_cases ambient now workerId leaseExpiresAt store with
            ⟨exception, pending, thrown⟩ | nothing
            | ⟨job, pending, claimed, picks, stored, ready, valid⟩
          · rw [thrown]
            exact .threw exception rfl
          · rw [nothing]
            exact .nothingClaimed
          · rw [claimed]
            exact .claimed picks stored rfl ready valid
      | renewLease | markCompleted | markFailed | scheduleRetry | acknowledge => cases revises

/-- The in-memory store follows the ledger from every state. -/
def lawful : LawfulStore InMemoryJobStore Unit where
  methods _ := methods
  initial := empty
  ledger store := store.jobsById
  visible _ _ := true
  nextDue _ := nextDue
  Sound _ := True
  initiallySound := trivial
  initiallyEmpty := rfl
  ownership _ _ _ _ _ := rfl
  follows _ ambient call store _ admissible := call_follows ambient call store admissible
  stays _ _ _ _ _ _ := trivial
  claims _ ambient store now workerId leaseExpiresAt job _ picks ready valid _ := by
    unfold nextDue at picks
    split at picks
    · rename_i nextJob next
      have claimed := @tryClaimNextDueJob_of_ready ambient now workerId leaseExpiresAt store
        nextJob job next picks ready valid
      exact ⟨_, by simp only [IJobStore.call, methods, claimed]; rfl, rfl⟩
    · cases picks
  refusalKeeps _ ambient call store revision _ revises refused := by
    rw [call_revision revises] at refused ⊢
    cases enabled : (store.jobsById.find? revision.jobId).filter revision.enabled with
    | none => rfl
    | some job => simp [enabled] at refused

end InMemoryJobStore

end JobScheduler
