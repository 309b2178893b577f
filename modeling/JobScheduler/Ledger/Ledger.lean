import JobScheduler.Core.RecordHistory
import JobScheduler.Library.KeyedTable
import JobScheduler.Storage.StoreInterface

/-! What a job store is for: a ledger of job records, and the effect each call may have on
it. Both stores are shown to follow this ledger, and what holds of every job in every run
is derived from the ledger's steps alone.
-/

namespace JobScheduler

open Library

/-- The stored records by their ids. -/
abbrev Ledger : Type := KeyedTable JobRecord.id

namespace JobRecord

/-- The job waits for its first run or for a retry. -/
def isPending (job : JobRecord) : Bool := job.status = .queued || job.status = .scheduled

/-- When a pending job may run, or when the lease of a running one expires. -/
def dueInstant (job : JobRecord) : Option DateTimeOffset :=
  if job.status = .running then job.leaseExpiresAt else job.runAt

/-- A claim at `now` may take the job. -/
def isDue (now : DateTimeOffset) (job : JobRecord) : Bool :=
  (job.isPending || job.status = .running) && job.dueInstant.any (· ≤ now)

/-- Due jobs are claimed by due instant, then by id. -/
def dueKey (job : JobRecord) : WithBot DateTimeOffset ×ₗ Guid :=
  toLex (job.dueInstant, job.id)

/-- The record a claim at `now` stores: a scheduled job is queued first, and the second
identifier drawn is then the one of its `Running` change.
-/
def claimedUnder (job : JobRecord) (ambient : Ambient) (now : DateTimeOffset)
    (workerId : String) (leaseExpiresAt : DateTimeOffset)
    : JobRecord :=
  match job.status with
  | .running =>
      job.runUnder ambient.newGuid workerId
        ("Worker " ++ workerId ++ " reclaimed expired lease.") now leaseExpiresAt
  | .scheduled =>
      (job.requeued ambient.newGuid now).runUnder ambient.newGuidAgain workerId
        ("Worker " ++ workerId ++ " claimed job.") now leaseExpiresAt
  | _ =>
      job.runUnder ambient.newGuid workerId ("Worker " ++ workerId ++ " claimed job.") now
        leaseExpiresAt

/-- The job runs under the given claim token. -/
def isRunningUnder (token : Guid) (job : JobRecord) : Bool :=
  job.status = .running && job.currentStateChangeId = token

/-- The job has just been made by `Enqueue` or `Schedule`. -/
inductive NewlyMade : JobRecord → Prop
  | enqueued {job : JobRecord} {newGuid id : Guid}
    {tenantId createdByActorId type : String} {payload : JsonElement} {maxAttempts : Int}
    {enqueuedAt : DateTimeOffset}
    (made
      : enqueue newGuid id tenantId createdByActorId type payload maxAttempts enqueuedAt
        = .ok job)
    : NewlyMade job
  | scheduled {job : JobRecord} {newGuid id : Guid}
    {tenantId createdByActorId type : String} {payload : JsonElement} {maxAttempts : Int}
    {scheduledAt changedAt : DateTimeOffset}
    (made
      : schedule newGuid id tenantId createdByActorId type payload maxAttempts scheduledAt
          changedAt
        = .ok job)
    : NewlyMade job

/-- A job made by `Enqueue` or `Schedule` is pending and unclaimed, and has a numbered
history of one entry.
-/
theorem NewlyMade.cases {job : JobRecord} (new : job.NewlyMade)
    : ∃ newGuid changedAt reason,
        (job.history = [(JobStateChange.queued newGuid changedAt reason).withSequence 1]
          ∧ job.status = .queued
          ∧ job.runAt = some changedAt
          ∨ ∃ scheduledAt,
              job.history
                = [(JobStateChange.scheduled newGuid changedAt reason
                    scheduledAt).withSequence 1]
              ∧ job.status = .scheduled
              ∧ job.runAt = some scheduledAt)
        ∧ job.currentStateChangeId = newGuid
        ∧ job.claimedBy = none
        ∧ job.claimedAt = none
        ∧ job.leaseExpiresAt = none
        ∧ job.failureReason = none
        ∧ 1 ≤ job.maxAttempts := by
  cases new with
  | @enqueued newGuid _ _ _ _ _ _ enqueuedAt made =>
      obtain ⟨attempts, rfl⟩ := enqueue_ok made
      exact ⟨newGuid, enqueuedAt, _, Or.inl ⟨rfl, rfl, rfl⟩, rfl, rfl, rfl, rfl, rfl, attempts⟩
  | @scheduled newGuid _ _ _ _ _ _ scheduledAt changedAt made =>
      obtain ⟨attempts, rfl⟩ := schedule_ok made
      exact ⟨newGuid, changedAt, _, Or.inr ⟨scheduledAt, rfl, rfl, rfl⟩, rfl, rfl, rfl, rfl,
        rfl, attempts⟩

end JobRecord

-----------------------------------------------------------------------------------------
-- Revisions of one job
-----------------------------------------------------------------------------------------

/-- A change of one stored job, made if the job passes a test. -/
structure Revision where
  jobId : Guid
  enabled : JobRecord → Bool
  change : JobRecord → JobRecord

/-- The calls that change one job and report whether they did. -/
def StoreCall.revision (ambient : Ambient) : StoreCall → Option Revision
  | .renewLease id token renewedAt leaseExpiresAt =>
      some {
        jobId := id
        enabled job := renewedAt < leaseExpiresAt && job.isRunningUnder token
        change job := job.withLease leaseExpiresAt
      }
  | .markCompleted id token =>
      some {
        jobId := id
        enabled job := job.isRunningUnder token
        change job := job.markedCompleted ambient.newGuid ambient.utcNow
      }
  | .markFailed id token reason =>
      some {
        jobId := id
        enabled job := !isNullOrWhiteSpace reason && job.isRunningUnder token
        change job := job.transitionToFailed ambient.newGuid reason ambient.utcNow
      }
  | .scheduleRetry id token reason scheduledAt =>
      some {
        jobId := id
        enabled job :=
          !isNullOrWhiteSpace reason && job.isRunningUnder token
          && job.attemptCount < job.maxAttempts
        change job :=
          job.scheduleRetry ambient.newGuid ambient.newGuidAgain reason ambient.utcNow
            scheduledAt
      }
  | .acknowledge id acknowledgedBy acknowledgedAt =>
      some {
        jobId := id
        enabled _ := !isNullOrWhiteSpace acknowledgedBy
        change job := job.acknowledgedAs acknowledgedBy acknowledgedAt
      }
  | _ => none

-----------------------------------------------------------------------------------------
-- Steps of the ledger
-----------------------------------------------------------------------------------------

/-- The identifiers a call draws are not those of a stored state change. -/
def Ambient.Fresh (ambient : Ambient) (ledger : Ledger) : Prop :=
  ambient.newGuid ≠ ambient.newGuidAgain
  ∧ ∀ job ∈ ledger.rows,
      ambient.newGuid ∉ job.history.map JobStateChange.id
      ∧ ambient.newGuidAgain ∉ job.history.map JobStateChange.id

instance (ambient : Ambient) (ledger : Ledger) : Decidable (ambient.Fresh ledger) :=
  inferInstanceAs (Decidable (_ ∧ _))

/-- Neither the id of the job nor the ids of its entries are stored already. -/
def JobRecord.FreshIn (job : JobRecord) (ledger : Ledger) : Prop :=
  ledger.find? job.id = none
  ∧ ∀ other ∈ ledger.rows, ∀ change ∈ job.history,
      change.id ∉ other.history.map JobStateChange.id

section Steps

variable (visible : JobRecord → Bool) (nextDue : DateTimeOffset → Option JobRecord)
  (ambient : Ambient) (ledger : Ledger)

/-- The effect and the answer of one call. `visible` is the caller's access, `nextDue` the
job the store would claim. A call that throws or is refused changes nothing.
-/
inductive LedgerStep : StoreCall → StoreAnswer → Ledger → Prop
  | added {job : JobRecord} (made : job.NewlyMade)
    : LedgerStep (.add job) .done (ledger.set job)
  | got (id : Guid)
    : LedgerStep (.get id) (.job ((ledger.find? id).filter visible)) ledger
  | listed
    : LedgerStep .list
        (.of .jobs (JobRecord.orderByEnqueuedAt (ledger.rows.filter visible))) ledger
  | claimed {now : DateTimeOffset} {workerId : String} {leaseExpiresAt : DateTimeOffset}
    {job : JobRecord} (picked : nextDue now = some job)
    (stored : ledger.find? job.id = some job) (seen : visible job = true)
    (ready : job.isPending = true ∨ job.LeaseExpired now)
    (valid : JobRecord.ValidClaim workerId now leaseExpiresAt)
    : LedgerStep (.tryClaimNextDueJob now workerId leaseExpiresAt)
        (.job (some (job.claimedUnder ambient now workerId leaseExpiresAt)))
        (ledger.set (job.claimedUnder ambient now workerId leaseExpiresAt))
  | nothingClaimed {now : DateTimeOffset} {workerId : String}
    {leaseExpiresAt : DateTimeOffset}
    : LedgerStep (.tryClaimNextDueJob now workerId leaseExpiresAt) (.job none) ledger
  | revised {call : StoreCall} {revision : Revision} {job : JobRecord}
    (revises : call.revision ambient = some revision)
    (stored : ledger.find? revision.jobId = some job) (seen : visible job = true)
    (enabled : revision.enabled job = true)
    : LedgerStep call (.flag true) (ledger.set (revision.change job))
  | refused {call : StoreCall} {revision : Revision}
    (revises : call.revision ambient = some revision)
    (disabled
      : ∀ job,
          ledger.find? revision.jobId = some job
          → visible job = true
          → revision.enabled job = false)
    : LedgerStep call (.flag false) ledger
  | conflicted {call : StoreCall} {revision : Revision} {job : JobRecord}
    (revises : call.revision ambient = some revision)
    (stored : ledger.find? revision.jobId = some job) (seen : visible job = true)
    (enabled : revision.enabled job = true) (repeated : ¬ ambient.Fresh ledger)
    : LedgerStep call (.threw .dbUpdate) ledger
  | threw {call : StoreCall} (exception : SchedulerException)
    (other : call.revision ambient = none)
    : LedgerStep call (.threw exception) ledger

end Steps

/-- The change a step makes to the one job it touches. -/
inductive RecordStep (nextDue : DateTimeOffset → Option JobRecord) (ambient : Ambient)
    : StoreCall → JobRecord → JobRecord → Prop
  | claimed {now : DateTimeOffset} {workerId : String} {leaseExpiresAt : DateTimeOffset}
    {job : JobRecord} (picked : nextDue now = some job)
    (ready : job.isPending = true ∨ job.LeaseExpired now)
    (valid : JobRecord.ValidClaim workerId now leaseExpiresAt)
    : RecordStep nextDue ambient (.tryClaimNextDueJob now workerId leaseExpiresAt) job
        (job.claimedUnder ambient now workerId leaseExpiresAt)
  | renewed {job : JobRecord} {renewedAt leaseExpiresAt : DateTimeOffset}
    (running : job.status = .running) (later : renewedAt < leaseExpiresAt)
    : RecordStep nextDue ambient
        (.renewLease job.id job.currentStateChangeId renewedAt leaseExpiresAt) job
        (job.withLease leaseExpiresAt)
  | completed {job : JobRecord} (running : job.status = .running)
    : RecordStep nextDue ambient (.markCompleted job.id job.currentStateChangeId) job
        (job.markedCompleted ambient.newGuid ambient.utcNow)
  | failed {job : JobRecord} {reason : String} (running : job.status = .running)
    (present : isNullOrWhiteSpace reason = false)
    : RecordStep nextDue ambient (.markFailed job.id job.currentStateChangeId reason) job
        (job.transitionToFailed ambient.newGuid reason ambient.utcNow)
  | retried {job : JobRecord} {reason : String} {scheduledAt : DateTimeOffset}
    (running : job.status = .running) (present : isNullOrWhiteSpace reason = false)
    (attemptsLeft : job.attemptCount < job.maxAttempts)
    : RecordStep nextDue ambient
        (.scheduleRetry job.id job.currentStateChangeId reason scheduledAt) job
        (job.scheduleRetry ambient.newGuid ambient.newGuidAgain reason ambient.utcNow
          scheduledAt)
  | acknowledged {job : JobRecord} {acknowledgedBy : String}
    {acknowledgedAt : DateTimeOffset} (named : isNullOrWhiteSpace acknowledgedBy = false)
    : RecordStep nextDue ambient (.acknowledge job.id acknowledgedBy acknowledgedAt) job
        (job.acknowledgedAs acknowledgedBy acknowledgedAt)

namespace JobRecord

/-- A due job is pending, or runs under a lease that has expired. -/
theorem isDue_ready {now : DateTimeOffset} {job : JobRecord} (due : job.isDue now = true)
    : job.isPending = true ∨ job.LeaseExpired now := by
  obtain ⟨active, past⟩ := Bool.and_eq_true_iff.mp due
  by_cases running : job.status = .running
  · simp only [dueInstant, running, if_true, Option.any_eq_true, decide_eq_true_eq] at past
    obtain ⟨expiry, lease, elapsed⟩ := past
    exact Or.inr ⟨running, expiry, lease, elapsed⟩
  · exact Or.inl (by simpa [running] using active)

theorem isRunningUnder_iff {token : Guid} {job : JobRecord}
    : job.isRunningUnder token = true
      ↔ job.status = .running ∧ job.currentStateChangeId = token := by
  simp [isRunningUnder]

@[simp] theorem claimedUnder_id (job : JobRecord) (ambient : Ambient)
    (now : DateTimeOffset) (workerId : String) (leaseExpiresAt : DateTimeOffset)
    : (job.claimedUnder ambient now workerId leaseExpiresAt).id = job.id := by
  unfold claimedUnder
  split <;> rfl

end JobRecord

/-- An enabled revision is a record step, one kind of call at a time. -/
theorem RecordStep.ofRevision {nextDue : DateTimeOffset → Option JobRecord}
    {ambient : Ambient} {call : StoreCall} {revision : Revision} {job : JobRecord}
    (revises : call.revision ambient = some revision) (same : job.id = revision.jobId)
    (enabled : revision.enabled job = true)
    : RecordStep nextDue ambient call job (revision.change job) := by
  cases call with
  | add => cases revises
  | get => cases revises
  | list => cases revises
  | tryClaimNextDueJob => cases revises
  | renewLease id token renewedAt leaseExpiresAt =>
      cases revises
      obtain ⟨later, owned⟩ := Bool.and_eq_true_iff.mp enabled
      obtain ⟨running, rfl⟩ := JobRecord.isRunningUnder_iff.mp owned
      cases same
      exact .renewed running (of_decide_eq_true later)
  | markCompleted id token =>
      cases revises
      obtain ⟨running, rfl⟩ := JobRecord.isRunningUnder_iff.mp enabled
      cases same
      exact .completed running
  | markFailed id token reason =>
      cases revises
      obtain ⟨present, owned⟩ := Bool.and_eq_true_iff.mp enabled
      obtain ⟨running, rfl⟩ := JobRecord.isRunningUnder_iff.mp owned
      cases same
      exact .failed running (Bool.not_eq_true' _ ▸ present)
  | scheduleRetry id token reason scheduledAt =>
      cases revises
      obtain ⟨owned, attemptsLeft⟩ := Bool.and_eq_true_iff.mp enabled
      obtain ⟨present, owned⟩ := Bool.and_eq_true_iff.mp owned
      obtain ⟨running, rfl⟩ := JobRecord.isRunningUnder_iff.mp owned
      cases same
      exact .retried running (Bool.not_eq_true' _ ▸ present) (of_decide_eq_true attemptsLeft)
  | acknowledge id acknowledgedBy acknowledgedAt =>
      cases revises
      cases same
      exact .acknowledged (Bool.not_eq_true' _ ▸ enabled)

/-- A record step keeps the job's id, for each kind of call. -/
theorem RecordStep.id_eq {nextDue : DateTimeOffset → Option JobRecord} {ambient : Ambient}
    {call : StoreCall} {job changed : JobRecord}
    (step : RecordStep nextDue ambient call job changed)
    : changed.id = job.id := by
  cases step with
  | claimed => exact job.claimedUnder_id ambient _ _ _
  | renewed => rfl
  | completed => rfl
  | failed => rfl
  | retried => rfl
  | acknowledged => rfl

section Effects

variable {visible : JobRecord → Bool} {nextDue : DateTimeOffset → Option JobRecord}
  {ambient : Ambient} {ledger next : Ledger} {call : StoreCall} {answer : StoreAnswer}

/-- A step leaves the ledger, adds one new job, or changes one stored job. -/
theorem LedgerStep.effect
    (step : LedgerStep visible nextDue ambient ledger call answer next)
    : next = ledger
      ∨ (∃ job : JobRecord, call = .add job ∧ job.NewlyMade ∧ next = ledger.set job)
      ∨ ∃ job changed,
          RecordStep nextDue ambient call job changed
          ∧ ledger.find? job.id = some job
          ∧ visible job = true
          ∧ next = ledger.set changed := by
  cases step with
  | added made => exact Or.inr (Or.inl ⟨_, rfl, made, rfl⟩)
  | claimed picked stored seen ready valid =>
      exact Or.inr (Or.inr ⟨_, _, .claimed picked ready valid, stored, seen, rfl⟩)
  | revised revises stored seen enabled =>
      have same := KeyedTable.find?_key stored
      exact Or.inr (Or.inr
        ⟨_, _, .ofRevision revises same enabled, same ▸ stored, seen, rfl⟩)
  | got | listed | nothingClaimed | refused | conflicted | threw => exact Or.inl rfl

/-- What every stored job satisfies stays so, if new jobs satisfy it and the changes of a
single job keep it.
-/
theorem LedgerStep.forall_rows {P : JobRecord → Prop}
    (step : LedgerStep visible nextDue ambient ledger call answer next)
    (before : ∀ job ∈ ledger.rows, P job)
    (made : ∀ job : JobRecord, call = .add job → job.NewlyMade → P job)
    (changed
      : ∀ job after,
          RecordStep nextDue ambient call job after → job ∈ ledger.rows → P job → P after)
    : ∀ job ∈ next.rows, P job := by
  rcases step.effect with rfl | ⟨job, added, new, rfl⟩ | ⟨job, after, one, stored, _, rfl⟩
  · exact before
  · intro other member
    rcases KeyedTable.mem_set.mp member with rfl | ⟨old, _⟩
    · exact made other added new
    · exact before other old
  · intro other member
    have here := KeyedTable.find?_mem stored
    rcases KeyedTable.mem_set.mp member with rfl | ⟨old, _⟩
    · exact changed job other one here (before job here)
    · exact before other old

/-- Following one stored job through a step: it is untouched, replaced by a new job of the
same id, or changed by a record step.
-/
theorem LedgerStep.find?_next {id : Guid} {job : JobRecord}
    (step : LedgerStep visible nextDue ambient ledger call answer next)
    (stored : ledger.find? id = some job)
    : next.find? id = some job
      ∨ (∃ new : JobRecord, call = .add new ∧ new.id = id ∧ next.find? id = some new)
      ∨ ∃ changed,
          RecordStep nextDue ambient call job changed
          ∧ visible job = true
          ∧ next.find? id = some changed := by
  rcases step.effect with rfl | ⟨new, added, _, rfl⟩ | ⟨other, after, one, here, seen, rfl⟩
  · exact Or.inl stored
  · by_cases same : new.id = id
    · exact Or.inr (Or.inl ⟨new, added, same, by simp [KeyedTable.find?_set, same]⟩)
    · exact Or.inl (by rwa [KeyedTable.find?_set_ne same])
  · by_cases same : other.id = id
    · subst same
      cases here.symm.trans stored
      exact Or.inr (Or.inr ⟨after, one, seen, by simp [KeyedTable.find?_set, one.id_eq]⟩)
    · have apart : after.id ≠ id := one.id_eq ▸ same
      exact Or.inl (by rwa [KeyedTable.find?_set_ne apart])

end Effects

end JobScheduler
