import Mathlib.Data.Finset.Max
import JobScheduler.Library.KeyedTable
import JobScheduler.Storage.StoreInterface

/-! The in-memory store: a dictionary of records and a sorted index of pending jobs. -/

namespace JobScheduler

open Library

structure JobQueueEntry where
  runAt : DateTimeOffset
  addedAt : DateTimeOffset
  jobId : Guid
  deriving DecidableEq, Repr

namespace JobQueueEntry

/-- `job.ScheduledAt ?? job.EnqueuedAt` is the due instant the entry is sorted by. -/
def ofJob (job : JobRecord) (addedAt : DateTimeOffset)
    : Except SchedulerException JobQueueEntry := do
  let runAt ←
    match job.scheduledAt with
    | some scheduledAt => pure scheduledAt
    | none => job.enqueuedAt
  return ⟨runAt, addedAt, job.id⟩

def compareTo (entry other : JobQueueEntry) : Ordering :=
  let runAtComparison := compare entry.runAt other.runAt
  if runAtComparison ≠ .eq then
    runAtComparison
  else
    let addedAtComparison := compare entry.addedAt other.addedAt
    if addedAtComparison ≠ .eq then addedAtComparison else compare entry.jobId other.jobId

/-- The fields in the order `compareTo` looks at them. -/
def sortKey (entry : JobQueueEntry) : DateTimeOffset ×ₗ DateTimeOffset ×ₗ Guid :=
  toLex (entry.runAt, toLex (entry.addedAt, entry.jobId))

theorem sortKey_injective : Function.Injective sortKey := by
  intro a b same
  cases a
  cases b
  simpa [sortKey] using same

/-- The order of a `SortedSet` of entries. -/
instance : LinearOrder JobQueueEntry := LinearOrder.lift' sortKey sortKey_injective

/-- The order of the set is the one the source's comparison defines. -/
theorem compareTo_isLE (entry other : JobQueueEntry)
    : (entry.compareTo other).isLE ↔ entry ≤ other := by
  change _ ↔ entry.sortKey ≤ other.sortKey
  rw [sortKey, sortKey, Prod.Lex.toLex_le_toLex, Prod.Lex.toLex_le_toLex, compareTo]
  rcases lt_trichotomy entry.runAt other.runAt with less | equal | greater
  · simp [compare_lt_iff_lt.mpr less, less]
  · rcases lt_trichotomy entry.addedAt other.addedAt with less' | equal' | greater'
    · simp [equal, compare_lt_iff_lt.mpr less', less']
    · rcases lt_trichotomy entry.jobId other.jobId with less' | same | greater'
      · simp [equal, equal', compare_lt_iff_lt.mpr less', less'.le]
      · simp [equal, equal', same]
      · simp [equal, equal', compare_gt_iff_gt.mpr greater', greater'.not_ge]
    · simp [equal, compare_gt_iff_gt.mpr greater', greater'.not_gt, greater'.ne']
  · simp [compare_gt_iff_gt.mpr greater, greater.not_gt, greater.ne']

end JobQueueEntry

/-- `_jobsById`, whose keys are the ids of the records, and `_pendingJobs`. -/
structure InMemoryJobStore where
  jobsById : KeyedTable JobRecord.id
  pendingJobs : Finset JobQueueEntry

namespace InMemoryJobStore

def empty : InMemoryJobStore := ⟨.empty, ∅⟩

def addPendingJobUnderLock (job : JobRecord) (addedAt : DateTimeOffset)
    : StoreMethod InMemoryJobStore Unit := fun store =>
  if job.status = .queued ∨ job.status = .scheduled then
    match JobQueueEntry.ofJob job addedAt with
    | .ok entry => (.ok (), { store with pendingJobs := insert entry store.pendingJobs })
    | .error exception => (.error exception, store)
  else
    (.ok (), store)

def add (ambient : Ambient) (job : JobRecord) : StoreMethod InMemoryJobStore Unit :=
  fun store =>
    addPendingJobUnderLock job ambient.utcNow
      { store with jobsById := store.jobsById.set job }

def get (id : Guid) : StoreMethod InMemoryJobStore (Option JobRecord) := fun store =>
  (.ok (store.jobsById.find? id), store)

def list : StoreMethod InMemoryJobStore (List JobRecord) := fun store =>
  (JobRecord.orderByEnqueuedAt store.jobsById.rows, store)

/-- The lease of a running job that has expired by `now`. -/
def expiredLease (now : DateTimeOffset) (job : JobRecord) : Option DateTimeOffset :=
  if job.status = .running then job.leaseExpiresAt.filter (· ≤ now) else none

def nextPendingJob (now : DateTimeOffset) (store : InMemoryJobStore) : Option JobQueueEntry :=
  match store.pendingJobs.min with
  | some pendingJob => if pendingJob.runAt ≤ now then some pendingJob else none
  | none => none

/-- The expired running job with the least lease expiry, then id. -/
def nextExpiredRunningJob (now : DateTimeOffset) (store : InMemoryJobStore)
    : Except SchedulerException (Option JobQueueEntry) :=
  let expired := store.jobsById.rows.filterMap
    (fun job => (expiredLease now job).map (fun leaseExpiresAt => (leaseExpiresAt, job)))
  match expired.argmin (fun entry => toLex (entry.1, entry.2.id)) with
  | none => .ok none
  | some (leaseExpiresAt, job) => do
      let addedAt ←
        match job.claimedAt with
        | some claimedAt => pure claimedAt
        | none => job.enqueuedAt
      return some ⟨leaseExpiresAt, addedAt, job.id⟩

def nextDuePendingOrExpiredRunningJob (now : DateTimeOffset) (store : InMemoryJobStore)
    : Except SchedulerException (Option JobQueueEntry) := do
  let expired ← nextExpiredRunningJob now store
  match nextPendingJob now store, expired with
  | none, expiredJob => return expiredJob
  | some pendingJob, none => return some pendingJob
  | some pendingJob, some expiredJob =>
      return some (if (pendingJob.compareTo expiredJob).isLE then pendingJob else expiredJob)

/-- The body of the claim loop for a job that is not running: its entry leaves the index
before anything is checked.
-/
def claimPendingJob (ambient : Ambient) (now : DateTimeOffset) (workerId : String)
    (leaseExpiresAt : DateTimeOffset) (nextJob : JobQueueEntry) (job : JobRecord)
    : StoreMethod InMemoryJobStore (Option JobRecord) := fun store =>
  let store := { store with pendingJobs := store.pendingJobs.erase nextJob }
  let queued :=
    if job.status = .scheduled then job.transitionTo ambient.newGuid .queued now else .ok job
  let claimGuid := if job.status = .scheduled then ambient.newGuidAgain else ambient.newGuid
  match queued with
  | .error exception => (.error exception, store)
  | .ok job =>
      if job.status ≠ .queued then
        (.error (.invalidOperation
          ("Pending job index contains non-runnable job '" ++ toString job.id
            ++ "' with status '" ++ toString job.status ++ "'.")), store)
      else
        match job.claim claimGuid workerId now leaseExpiresAt with
        | .error exception => (.error exception, store)
        | .ok runningJob =>
            (.ok (some runningJob), { store with jobsById := store.jobsById.set runningJob })

/-- Every path through the loop body returns or throws, so the loop is its first
iteration.
-/
def tryClaimNextDueJob (ambient : Ambient) (now : DateTimeOffset) (workerId : String)
    (leaseExpiresAt : DateTimeOffset)
    : StoreMethod InMemoryJobStore (Option JobRecord) := fun store =>
  match nextDuePendingOrExpiredRunningJob now store with
  | .error exception => (.error exception, store)
  | .ok none => (.ok none, store)
  | .ok (some nextJob) =>
      match store.jobsById.find? nextJob.jobId with
      | none =>
          (.error (.invalidOperation
            ("Pending job index contains missing job '" ++ toString nextJob.jobId ++ "'.")),
            store)
      | some job =>
          if job.status = .running then
            match job.reclaimExpiredLease ambient.newGuid workerId now leaseExpiresAt with
            | .error exception => (.error exception, store)
            | .ok reclaimedJob =>
                (.ok (some reclaimedJob),
                  { store with jobsById := store.jobsById.set reclaimedJob })
          else
            claimPendingJob ambient now workerId leaseExpiresAt nextJob job store

/-- The record stored under `id`, if it is running under the expected state change. -/
def ownedJob? (store : InMemoryJobStore) (id expectedCurrentStateChangeId : Guid)
    : Option JobRecord :=
  (store.jobsById.find? id).filter (fun job =>
    job.status = .running && job.currentStateChangeId = expectedCurrentStateChangeId)

def markCompleted (ambient : Ambient) (id expectedCurrentStateChangeId : Guid)
    : StoreMethod InMemoryJobStore Bool := fun store =>
  match store.ownedJob? id expectedCurrentStateChangeId with
  | none => (.ok false, store)
  | some job =>
      match job.transitionTo ambient.newGuid .completed ambient.utcNow with
      | .error exception => (.error exception, store)
      | .ok completedJob =>
          (.ok true, { store with jobsById := store.jobsById.set completedJob })

def renewLease (id expectedCurrentStateChangeId : Guid)
    (renewedAt leaseExpiresAt : DateTimeOffset)
    : StoreMethod InMemoryJobStore Bool := fun store =>
  if leaseExpiresAt ≤ renewedAt then
    (.ok false, store)
  else
    match store.ownedJob? id expectedCurrentStateChangeId with
    | none => (.ok false, store)
    | some job =>
        match job.renewLease renewedAt leaseExpiresAt with
        | .error exception => (.error exception, store)
        | .ok renewedJob =>
            (.ok true, { store with jobsById := store.jobsById.set renewedJob })

def markFailed (ambient : Ambient) (id expectedCurrentStateChangeId : Guid)
    (reason : String)
    : StoreMethod InMemoryJobStore Bool := fun store =>
  if isNullOrWhiteSpace reason then
    (.ok false, store)
  else
    match store.ownedJob? id expectedCurrentStateChangeId with
    | none => (.ok false, store)
    | some job =>
        let failedJob := job.transitionToFailed ambient.newGuid reason ambient.utcNow
        (.ok true, { store with jobsById := store.jobsById.set failedJob })

def scheduleRetry (ambient : Ambient) (id expectedCurrentStateChangeId : Guid)
    (reason : String) (scheduledAt : DateTimeOffset)
    : StoreMethod InMemoryJobStore Bool := fun store =>
  if isNullOrWhiteSpace reason then
    (.ok false, store)
  else
    match store.ownedJob? id expectedCurrentStateChangeId with
    | none => (.ok false, store)
    | some job =>
        if job.maxAttempts ≤ job.attemptCount then
          (.ok false, store)
        else
          let retriedJob := job.scheduleRetry ambient.newGuid ambient.newGuidAgain reason
            ambient.utcNow scheduledAt
          match addPendingJobUnderLock retriedJob ambient.utcNowAgain
            { store with jobsById := store.jobsById.set retriedJob } with
          | (.error exception, store) => (.error exception, store)
          | (.ok (), store) => (.ok true, store)

def acknowledge (id : Guid) (acknowledgedBy : String) (acknowledgedAt : DateTimeOffset)
    : StoreMethod InMemoryJobStore Bool := fun store =>
  if isNullOrWhiteSpace acknowledgedBy then
    (.ok false, store)
  else
    match store.jobsById.find? id with
    | none => (.ok false, store)
    | some job =>
        match job.acknowledge acknowledgedBy acknowledgedAt with
        | .error exception => (.error exception, store)
        | .ok acknowledgedJob =>
            (.ok true, { store with jobsById := store.jobsById.set acknowledgedJob })

/-- The in-memory implementation of the interface. -/
def methods : IJobStore InMemoryJobStore where
  add := add
  get := get
  list := list
  tryClaimNextDueJob := tryClaimNextDueJob
  renewLease := renewLease
  markCompleted := markCompleted
  markFailed := markFailed
  scheduleRetry := scheduleRetry
  acknowledge := acknowledge

end InMemoryJobStore

end JobScheduler
