import JobScheduler.Core.JobRecord

/-! What renumbering does to a history, and which records the transitions build. Sequence
numbers are the only thing renumbering touches, and a history that is numbered already only
has its new entries numbered.
-/

namespace JobScheduler

open Library

@[simp] theorem length_numbered (history : List JobStateChange)
    : (numbered history).length = history.length := by
  simp [numbered]

/-- Renumbering the parts of a history, the second part from where the first part ends. -/
theorem numbered_append (history added : List JobStateChange)
    : numbered (history ++ added)
      = numbered history
        ++ added.mapIdx (fun index change =>
            change.withSequence (history.length + index + 1)) := by
  simp only [numbered, List.mapIdx_append]
  congr 2
  funext index change
  congr 1
  omega

/-- A view of the entries that does not show sequence numbers is not changed. -/
theorem map_numbered {β : Type*} {view : JobStateChange → β}
    (blind : ∀ change sequence, view (change.withSequence sequence) = view change)
    (history : List JobStateChange)
    : (numbered history).map view = history.map view := by
  apply List.ext_getElem?
  intro index
  simp only [numbered, List.getElem?_map, List.getElem?_mapIdx, Option.map_map]
  congr 1
  funext change
  exact blind change (index + 1)

theorem numbered_idempotent (history : List JobStateChange)
    : numbered (numbered history) = numbered history := by
  apply List.ext_getElem?
  intro index
  simp only [numbered, List.getElem?_mapIdx, Option.map_map]
  rfl

/-- The sequence numbers of a renumbered history count from one. -/
theorem sequences_numbered (history : List JobStateChange)
    : (numbered history).map JobStateChange.sequence = List.range' 1 history.length := by
  apply List.ext_getElem?
  intro index
  simp only [numbered, List.getElem?_map, List.getElem?_mapIdx]
  by_cases inside : index < history.length
  · simp [inside, JobStateChange.withSequence, Nat.add_comm]
  · simp [inside]

@[simp] theorem ids_numbered (history : List JobStateChange)
    : (numbered history).map JobStateChange.id = history.map JobStateChange.id :=
  map_numbered (fun _ _ => rfl) history

@[simp] theorem statuses_numbered (history : List JobStateChange)
    : (numbered history).map JobStateChange.status = history.map JobStateChange.status :=
  map_numbered (fun _ _ => rfl) history

/-- Counting by status does not depend on sequence numbers. -/
theorem countP_status_numbered (history : List JobStateChange) (status : JobStatus)
    : (numbered history).countP (fun change => change.status = status)
      = history.countP (fun change => change.status = status) := by
  have viewed (entries : List JobStateChange)
      : entries.countP (fun change => change.status = status)
        = (entries.map JobStateChange.status).countP (fun found => found = status) := by
    rw [List.countP_map]
    rfl
  rw [viewed, viewed, statuses_numbered]

/-- A numbered history is what `WithOrderedHistory` sorts its entries into, in whatever order
they come, since no two of them have the same sequence number.
-/
theorem orderBy_sequence_of_perm {history entries : List JobStateChange}
    (inOrder : numbered history = history) (rearranged : entries.Perm history)
    : orderBy (fun change => toLex (change.sequence, toLex (change.changedAt, change.id)))
        entries
      = history := by
  have increasing : (history.map JobStateChange.sequence).Pairwise (· < ·) := by
    rw [← inOrder, sequences_numbered]
    exact List.pairwise_lt_range'
  refine orderBy_of_perm rearranged ((List.pairwise_map.mp increasing).imp ?_)
  intro first second less
  exact Prod.Lex.toLex_lt_toLex.mpr (Or.inl less)

/-- A numbered history is sorted the way `WithOrderedHistory` sorts it. -/
theorem orderBy_sequence_of_numbered {history : List JobStateChange}
    (inOrder : numbered history = history)
    : orderBy (fun change => toLex (change.sequence, toLex (change.changedAt, change.id)))
        history
      = history :=
  orderBy_sequence_of_perm inOrder (.refl history)

-----------------------------------------------------------------------------------------
-- The records that transitions build
-----------------------------------------------------------------------------------------

namespace JobRecord

/-- The history is numbered, as in every record the constructor returned. -/
def Numbered (job : JobRecord) : Prop := numbered job.history = job.history

/-- The record a completion builds. -/
def markedCompleted (job : JobRecord) (newGuid : Guid) (changedAt : DateTimeOffset)
    : JobRecord :=
  construct job.id job.tenantId job.createdByActorId job.type job.payload .completed newGuid
    none none none none job.acknowledgedBy job.acknowledgedAt job.maxAttempts
    job.failureReason
    (job.history ++ [.completed newGuid changedAt "Job completed successfully."])

/-- The record a due scheduled job passes through on its way to `Running`. -/
def requeued (job : JobRecord) (newGuid : Guid) (changedAt : DateTimeOffset) : JobRecord :=
  construct job.id job.tenantId job.createdByActorId job.type job.payload .queued newGuid
    (some changedAt) none none none job.acknowledgedBy job.acknowledgedAt job.maxAttempts
    job.failureReason (job.history ++ [.queued newGuid changedAt "Job queued."])

@[simp] theorem transitionTo_completed (job : JobRecord) (newGuid : Guid)
    (changedAt : DateTimeOffset)
    : job.transitionTo newGuid .completed changedAt
      = .ok (job.markedCompleted newGuid changedAt) :=
  rfl

@[simp] theorem transitionTo_queued (job : JobRecord) (newGuid : Guid)
    (changedAt : DateTimeOffset)
    : job.transitionTo newGuid .queued changedAt = .ok (job.requeued newGuid changedAt) :=
  rfl

/-- A job that `Enqueue` makes has an attempt and shows that it was accepted. -/
theorem enqueue_ok {newGuid id : Guid} {tenantId createdByActorId type : String}
    {payload : JsonElement} {maxAttempts : Int} {enqueuedAt : DateTimeOffset}
    {job : JobRecord}
    (made
      : enqueue newGuid id tenantId createdByActorId type payload maxAttempts enqueuedAt
        = .ok job)
    : 1 ≤ maxAttempts
      ∧ job
        = construct id tenantId createdByActorId type payload .queued newGuid
            (some enqueuedAt) none none none none none maxAttempts none
            [.queued newGuid enqueuedAt "Job accepted."] := by
  by_cases few : maxAttempts < 1
  · simp only [enqueue, few, if_true] at made
    cases made
  · cases owned : validateOwnership tenantId createdByActorId with
    | error exception =>
        simp only [enqueue, few, if_false, owned] at made
        cases made
    | ok =>
        simp only [enqueue, few, if_false, owned] at made
        cases made
        exact ⟨not_lt.mp few, rfl⟩

/-- A job that `Schedule` makes has an attempt and shows that it was scheduled. -/
theorem schedule_ok {newGuid id : Guid} {tenantId createdByActorId type : String}
    {payload : JsonElement} {maxAttempts : Int} {scheduledAt changedAt : DateTimeOffset}
    {job : JobRecord}
    (made
      : schedule newGuid id tenantId createdByActorId type payload maxAttempts scheduledAt
          changedAt
        = .ok job)
    : 1 ≤ maxAttempts
      ∧ job
        = construct id tenantId createdByActorId type payload .scheduled newGuid
            (some scheduledAt) none none none none none maxAttempts none
            [.scheduled newGuid changedAt "Job scheduled." scheduledAt] := by
  by_cases few : maxAttempts < 1
  · simp only [schedule, few, if_true] at made
    cases made
  · cases owned : validateOwnership tenantId createdByActorId with
    | error exception =>
        simp only [schedule, few, if_false, owned] at made
        cases made
    | ok =>
        simp only [schedule, few, if_false, owned] at made
        cases made
        exact ⟨not_lt.mp few, rfl⟩

/-- The claim arguments both stores accept: a worker is named and the lease lies ahead. -/
def ValidClaim (workerId : String) (now leaseExpiresAt : DateTimeOffset) : Prop :=
  isNullOrWhiteSpace workerId = false ∧ now < leaseExpiresAt

instance (workerId : String) (now leaseExpiresAt : DateTimeOffset)
    : Decidable (ValidClaim workerId now leaseExpiresAt) :=
  inferInstanceAs (Decidable (_ ∧ _))

theorem validateClaim_ok {workerId : String} {now leaseExpiresAt : DateTimeOffset}
    : validateClaim workerId now leaseExpiresAt = .ok ()
      ↔ ValidClaim workerId now leaseExpiresAt := by
  unfold validateClaim ValidClaim
  by_cases blank : isNullOrWhiteSpace workerId
  · simp [blank]
  · by_cases early : leaseExpiresAt ≤ now
    · simp [blank, early]
    · simp [blank, early, not_le.mp early]

/-- Arguments that are not valid make the check throw. -/
theorem validateClaim_error {workerId : String} {now leaseExpiresAt : DateTimeOffset}
    (invalid : ¬ ValidClaim workerId now leaseExpiresAt)
    : ∃ exception, validateClaim workerId now leaseExpiresAt = .error exception := by
  cases checked : validateClaim workerId now leaseExpiresAt with
  | ok => exact absurd (validateClaim_ok.mp checked) invalid
  | error exception => exact ⟨exception, rfl⟩

theorem claim_of_valid {job : JobRecord} {newGuid : Guid} {workerId : String}
    {now leaseExpiresAt : DateTimeOffset} (valid : ValidClaim workerId now leaseExpiresAt)
    : job.claim newGuid workerId now leaseExpiresAt
      = .ok (job.runUnder newGuid workerId ("Worker " ++ workerId ++ " claimed job.") now
          leaseExpiresAt) := by
  simp only [claim, validateClaim_ok.mpr valid]
  rfl

/-- A claim throws what the check throws. -/
theorem claim_of_error {job : JobRecord} {newGuid : Guid} {workerId : String}
    {now leaseExpiresAt : DateTimeOffset} {exception : SchedulerException}
    (checked : validateClaim workerId now leaseExpiresAt = .error exception)
    : job.claim newGuid workerId now leaseExpiresAt = .error exception := by
  simp only [claim, checked]
  rfl

/-- A claim that goes through had valid arguments. -/
theorem claim_ok {job claimed : JobRecord} {newGuid : Guid} {workerId : String}
    {now leaseExpiresAt : DateTimeOffset}
    (accepted : job.claim newGuid workerId now leaseExpiresAt = .ok claimed)
    : ValidClaim workerId now leaseExpiresAt
      ∧ claimed
        = job.runUnder newGuid workerId ("Worker " ++ workerId ++ " claimed job.") now
            leaseExpiresAt := by
  by_cases valid : ValidClaim workerId now leaseExpiresAt
  · rw [claim_of_valid valid] at accepted
    exact ⟨valid, (Except.ok.inj accepted).symm⟩
  · obtain ⟨exception, checked⟩ := validateClaim_error valid
    cases (claim_of_error checked).symm.trans accepted

/-- The lease of a running job had expired by the time of a claim. -/
def LeaseExpired (job : JobRecord) (now : DateTimeOffset) : Prop :=
  job.status = .running ∧ ∃ expiry, job.leaseExpiresAt = some expiry ∧ expiry ≤ now

theorem reclaim_of_valid {job : JobRecord} {newGuid : Guid} {workerId : String}
    {now leaseExpiresAt : DateTimeOffset} (expired : job.LeaseExpired now)
    (valid : ValidClaim workerId now leaseExpiresAt)
    : job.reclaimExpiredLease newGuid workerId now leaseExpiresAt
      = .ok (job.runUnder newGuid workerId
          ("Worker " ++ workerId ++ " reclaimed expired lease.") now leaseExpiresAt) := by
  obtain ⟨running, expiry, lease, past⟩ := expired
  simp only [reclaimExpiredLease, running, lease, not_lt.mpr past,
    validateClaim_ok.mpr valid]
  rfl

theorem reclaim_of_error {job : JobRecord} {newGuid : Guid} {workerId : String}
    {now leaseExpiresAt : DateTimeOffset} {exception : SchedulerException}
    (expired : job.LeaseExpired now)
    (checked : validateClaim workerId now leaseExpiresAt = .error exception)
    : job.reclaimExpiredLease newGuid workerId now leaseExpiresAt = .error exception := by
  obtain ⟨running, expiry, lease, past⟩ := expired
  simp only [reclaimExpiredLease, running, lease, not_lt.mpr past, checked]
  rfl

/-- A reclaim that goes through met an expired lease and had valid arguments. -/
theorem reclaim_ok {job reclaimed : JobRecord} {newGuid : Guid} {workerId : String}
    {now leaseExpiresAt : DateTimeOffset}
    (accepted : job.reclaimExpiredLease newGuid workerId now leaseExpiresAt = .ok reclaimed)
    : job.LeaseExpired now
      ∧ ValidClaim workerId now leaseExpiresAt
      ∧ reclaimed
        = job.runUnder newGuid workerId
            ("Worker " ++ workerId ++ " reclaimed expired lease.") now leaseExpiresAt := by
  by_cases running : job.status = .running
  · cases lease : job.leaseExpiresAt with
    | none =>
        simp only [reclaimExpiredLease, running, lease] at accepted
        cases accepted
    | some expiry =>
        by_cases unexpired : now < expiry
        · simp only [reclaimExpiredLease, running, lease, unexpired] at accepted
          cases accepted
        · have expired : job.LeaseExpired now := ⟨running, expiry, lease, not_lt.mp unexpired⟩
          by_cases valid : ValidClaim workerId now leaseExpiresAt
          · rw [reclaim_of_valid expired valid] at accepted
            exact ⟨expired, valid, (Except.ok.inj accepted).symm⟩
          · obtain ⟨exception, checked⟩ := validateClaim_error valid
            cases (reclaim_of_error expired checked).symm.trans accepted
  · simp only [reclaimExpiredLease, ne_eq, running, not_false_eq_true, if_true] at accepted
    cases accepted

theorem renewLease_of_later {job : JobRecord} {renewedAt leaseExpiresAt : DateTimeOffset}
    (running : job.status = .running) (later : renewedAt < leaseExpiresAt)
    : job.renewLease renewedAt leaseExpiresAt = .ok (job.withLease leaseExpiresAt) := by
  simp only [renewLease, running, not_le.mpr later]
  rfl

theorem acknowledge_of_named {job : JobRecord} {actorId : String}
    {acknowledgedAt : DateTimeOffset} (named : isNullOrWhiteSpace actorId = false)
    : job.acknowledge actorId acknowledgedAt
      = .ok (job.acknowledgedAs actorId acknowledgedAt) := by
  simp only [acknowledge, named]
  rfl

end JobRecord

end JobScheduler
