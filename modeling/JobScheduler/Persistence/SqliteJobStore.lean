import JobScheduler.Persistence.Database
import JobScheduler.Storage.StoreInterface

/-! The SQLite store. Every method runs under the query filter of its call. A transaction
that is disposed without a commit leaves the database as it found it, so a method that throws
or gives up returns the database it was given.
-/

namespace JobScheduler

open Library

namespace SqliteJobStore

variable (filter : QueryFilter)

def loadJob (id : Guid) (db : Database) : Option JobRecord :=
  ((db.filteredJobs filter).find? (·.id = id)).map db.loadRow

def loadJobs (db : Database) : List JobRecord := (db.filteredJobs filter).map db.loadRow

/-- The job is stored under its own id. EF Core would draw another one in place of `Guid.Empty`,
which `Guid.NewGuid()` never gives.
-/
def add (job : JobRecord) : StoreMethod Database Unit := fun db =>
  match db.insertJob job with
  | .error exception => (.error exception, db)
  | .ok db => (.ok (), db)

def get (id : Guid) : StoreMethod Database (Option JobRecord) := fun db =>
  (.ok (loadJob filter id db), db)

def list : StoreMethod Database (List JobRecord) := fun db =>
  (JobRecord.orderByEnqueuedAt (loadJobs filter db), db)

/-- The `Where` of the due query. -/
def isDue (now : DateTimeOffset) (row : JobRow) : Bool :=
  (row.runAt.any (· ≤ now) && (row.status = .queued || row.status = .scheduled))
  || (row.status = .running && row.leaseExpiresAt.any (· ≤ now))

/-- The first sort key of the due query; SQLite puts nulls first. -/
def dueKey (row : JobRow) : WithBot DateTimeOffset :=
  if row.status = .running then row.leaseExpiresAt else row.runAt

def nextDueJobId (now : DateTimeOffset) (db : Database) : Option Guid :=
  (((db.filteredJobs filter).filter (isDue now)).argmin
    (fun row => toLex (dueKey row, row.id))).map JobRow.id

/-- The columns a reclaim sets. -/
def setReclaimed (reclaimedJob : JobRecord) (row : JobRow) : JobRow :=
  { row with
    currentStateChangeId := reclaimedJob.currentStateChangeId
    claimedBy := reclaimedJob.claimedBy
    claimedAt := reclaimedJob.claimedAt
    leaseExpiresAt := reclaimedJob.leaseExpiresAt }

/-- The columns a first claim, a completion, a failure or a retry sets besides
`FailureReason`; the status is written as a constant by each of them.
-/
def setTransition (status : JobStatus) (updatedJob : JobRecord) (row : JobRow) : JobRow :=
  { row with
    status := status
    currentStateChangeId := updatedJob.currentStateChangeId
    runAt := updatedJob.runAt
    claimedBy := updatedJob.claimedBy
    claimedAt := updatedJob.claimedAt
    leaseExpiresAt := updatedJob.leaseExpiresAt }

/-- The columns a failure or a retry sets. -/
def setFailure (status : JobStatus) (updatedJob : JobRecord) (row : JobRow) : JobRow :=
  { setTransition status updatedJob row with failureReason := updatedJob.failureReason }

/-- The column a renewal sets. -/
def setLease (leaseExpiresAt : DateTimeOffset) (row : JobRow) : JobRow :=
  { row with leaseExpiresAt := some leaseExpiresAt }

/-- The columns an acknowledgement sets. -/
def setAcknowledged (acknowledgedBy : String) (acknowledgedAt : DateTimeOffset)
    (row : JobRow)
    : JobRow :=
  { row with
    acknowledgedBy := some (trim acknowledgedBy)
    acknowledgedAt := some acknowledgedAt }

/-- None of these columns is the primary key. -/
theorem setReclaimed_id (reclaimedJob : JobRecord) (row : JobRow)
    : (setReclaimed reclaimedJob row).id = row.id :=
  rfl

theorem setTransition_id (status : JobStatus) (updatedJob : JobRecord) (row : JobRow)
    : (setTransition status updatedJob row).id = row.id :=
  rfl

theorem setFailure_id (status : JobStatus) (updatedJob : JobRecord) (row : JobRow)
    : (setFailure status updatedJob row).id = row.id :=
  rfl

theorem setLease_id (leaseExpiresAt : DateTimeOffset) (row : JobRow)
    : (setLease leaseExpiresAt row).id = row.id :=
  rfl

theorem setAcknowledged_id (acknowledgedBy : String) (acknowledgedAt : DateTimeOffset)
    (row : JobRow)
    : (setAcknowledged acknowledgedBy acknowledgedAt row).id = row.id :=
  rfl

/-- `Id`, `Status` and `CurrentStateChangeId` as a conditional write compares them. -/
def isCurrent (id : Guid) (status : JobStatus) (currentStateChangeId : Guid) (row : JobRow)
    : Bool :=
  row.id = id && row.status = status && row.currentStateChangeId = currentStateChangeId

/-- A conditional bulk update and, if it hit a row, the history entries past the first
`previousHistoryCount`; `none` when no row was hit.
-/
def tryPersistTransition (jobId : Guid) (expectedStatus : JobStatus)
    (expectedCurrentStateChangeId : Guid) (updatedJob : JobRecord)
    (previousHistoryCount : Nat) (setProperties : JobRow → JobRow)
    (keepsKey : ∀ row, (setProperties row).id = row.id) (db : Database)
    : Except SchedulerException (Option Database) :=
  let (rowsUpdated, updated) := db.executeUpdate filter
    (isCurrent jobId expectedStatus expectedCurrentStateChangeId) setProperties keepsKey
  if rowsUpdated = 0 then
    .ok none
  else
    (updated.appendStateChanges jobId (updatedJob.history.drop previousHistoryCount)).map some

/-- A claim's conditional write, commit and reload. -/
def commitClaim (job : JobRecord) (claimedJob : JobRecord) (setProperties : JobRow → JobRow)
    (keepsKey : ∀ row, (setProperties row).id = row.id)
    : StoreMethod Database (Option JobRecord) := fun db =>
  match tryPersistTransition filter claimedJob.id job.status job.currentStateChangeId
    claimedJob job.history.length setProperties keepsKey db with
  | .error exception => (.error exception, db)
  | .ok none => (.ok none, db)
  | .ok (some committed) => (.ok (loadJob filter claimedJob.id committed), committed)

/-- The claim of a job that is not running. -/
def claimPendingJob (ambient : Ambient) (now : DateTimeOffset) (workerId : String)
    (leaseExpiresAt : DateTimeOffset) (job : JobRecord)
    : StoreMethod Database (Option JobRecord) := fun db =>
  let queued :=
    if job.status = .scheduled then job.transitionTo ambient.newGuid .queued now else .ok job
  let claimGuid := if job.status = .scheduled then ambient.newGuidAgain else ambient.newGuid
  match queued with
  | .error exception => (.error exception, db)
  | .ok queuedJob =>
      if queuedJob.status ≠ .queued then
        (.error (.invalidOperation
          ("Pending job query returned non-runnable job '" ++ toString queuedJob.id
            ++ "' with status '" ++ toString queuedJob.status ++ "'.")), db)
      else
        match queuedJob.claim claimGuid workerId now leaseExpiresAt with
        | .error exception => (.error exception, db)
        | .ok runningJob =>
            commitClaim filter job runningJob (setTransition .running runningJob)
              (setTransition_id _ _) db

def tryClaimNextDueJob (ambient : Ambient) (now : DateTimeOffset) (workerId : String)
    (leaseExpiresAt : DateTimeOffset)
    : StoreMethod Database (Option JobRecord) := fun db =>
  match nextDueJobId filter now db with
  | none => (.ok none, db)
  | some jobId =>
      match loadJob filter jobId db with
      | none =>
          (.error (.invalidOperation
            ("Due job query returned missing job '" ++ toString jobId ++ "'.")), db)
      | some job =>
          if job.status = .running then
            match job.reclaimExpiredLease ambient.newGuid workerId now leaseExpiresAt with
            | .error exception => (.error exception, db)
            | .ok reclaimedJob =>
                commitClaim filter job reclaimedJob (setReclaimed reclaimedJob)
                  (setReclaimed_id _) db
          else
            claimPendingJob filter ambient now workerId leaseExpiresAt job db

-----------------------------------------------------------------------------------------
-- Updates under a claim token
-----------------------------------------------------------------------------------------

/-- A transition out of `Running` for the caller's token, committed if a row was hit. -/
def commitTransition (id expectedCurrentStateChangeId : Guid) (job updatedJob : JobRecord)
    (setProperties : JobRow → JobRow) (keepsKey : ∀ row, (setProperties row).id = row.id)
    : StoreMethod Database Bool := fun db =>
  match tryPersistTransition filter id .running expectedCurrentStateChangeId updatedJob
    job.history.length setProperties keepsKey db with
  | .error exception => (.error exception, db)
  | .ok none => (.ok false, db)
  | .ok (some committed) => (.ok true, committed)

def markCompleted (ambient : Ambient) (id expectedCurrentStateChangeId : Guid)
    : StoreMethod Database Bool := fun db =>
  match loadJob filter id db with
  | none => (.ok false, db)
  | some job =>
      if job.status ≠ .running then
        (.ok false, db)
      else
        match job.transitionTo ambient.newGuid .completed ambient.utcNow with
        | .error exception => (.error exception, db)
        | .ok completedJob =>
            commitTransition filter id expectedCurrentStateChangeId job completedJob
              (setTransition .completed completedJob) (setTransition_id _ _) db

def renewLease (id expectedCurrentStateChangeId : Guid)
    (renewedAt leaseExpiresAt : DateTimeOffset)
    : StoreMethod Database Bool := fun db =>
  if leaseExpiresAt ≤ renewedAt then
    (.ok false, db)
  else
    let (rowsUpdated, updated) := db.executeUpdate filter
      (isCurrent id .running expectedCurrentStateChangeId) (setLease leaseExpiresAt)
      (setLease_id _)
    (.ok (decide (0 < rowsUpdated)), updated)

def markFailed (ambient : Ambient) (id expectedCurrentStateChangeId : Guid)
    (reason : String)
    : StoreMethod Database Bool := fun db =>
  if isNullOrWhiteSpace reason then
    (.ok false, db)
  else
    match loadJob filter id db with
    | none => (.ok false, db)
    | some job =>
        if job.status ≠ .running then
          (.ok false, db)
        else
          let failedJob := job.transitionToFailed ambient.newGuid reason ambient.utcNow
          commitTransition filter id expectedCurrentStateChangeId job failedJob
            (setFailure .failed failedJob) (setFailure_id _ _) db

def scheduleRetry (ambient : Ambient) (id expectedCurrentStateChangeId : Guid)
    (reason : String) (scheduledAt : DateTimeOffset)
    : StoreMethod Database Bool := fun db =>
  if isNullOrWhiteSpace reason then
    (.ok false, db)
  else
    match loadJob filter id db with
    | none => (.ok false, db)
    | some job =>
        if job.status ≠ .running ∨ job.maxAttempts ≤ job.attemptCount then
          (.ok false, db)
        else
          let retriedJob := job.scheduleRetry ambient.newGuid ambient.newGuidAgain reason
            ambient.utcNow scheduledAt
          commitTransition filter id expectedCurrentStateChangeId job retriedJob
            (setFailure .scheduled retriedJob) (setFailure_id _ _) db

def acknowledge (id : Guid) (acknowledgedBy : String) (acknowledgedAt : DateTimeOffset)
    : StoreMethod Database Bool := fun db =>
  if isNullOrWhiteSpace acknowledgedBy then
    (.ok false, db)
  else
    let (rowsUpdated, updated) := db.executeUpdate filter (fun row => row.id = id)
      (setAcknowledged acknowledgedBy acknowledgedAt) (setAcknowledged_id _ _)
    (.ok (decide (0 < rowsUpdated)), updated)

/-- The SQLite implementation of the interface, under the query filter of the call. -/
def methods : IJobStore Database where
  add _ := add
  get := get filter
  list := list filter
  tryClaimNextDueJob := tryClaimNextDueJob filter
  renewLease := renewLease filter
  markCompleted := markCompleted filter
  markFailed := markFailed filter
  scheduleRetry := scheduleRetry filter
  acknowledge := acknowledge filter

end SqliteJobStore

end JobScheduler
