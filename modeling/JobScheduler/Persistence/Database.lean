import JobScheduler.Library.KeyedTable
import JobScheduler.Core.JobRecord
import JobScheduler.DataAccess.DataAccessPolicy

/-! The two tables of the SQLite database and the EF Core operations the store uses on them.
Columns hold the mapped properties as the converters give them back; the query filter of the
`Jobs` set is part of every query and bulk update of that set, and of nothing else.
-/

namespace JobScheduler

open Library

/-- A row of `Jobs`: the mapped properties of a record, all but its history. -/
structure JobRow where
  id : Guid
  tenantId : String
  createdByActorId : String
  type : String
  payload : JsonElement
  status : JobStatus
  currentStateChangeId : Guid
  runAt : Option DateTimeOffset
  claimedBy : Option String
  claimedAt : Option DateTimeOffset
  leaseExpiresAt : Option DateTimeOffset
  acknowledgedBy : Option String
  acknowledgedAt : Option DateTimeOffset
  maxAttempts : Int
  failureReason : Option String
  deriving DecidableEq, Repr

instance : ITenantScoped JobRow := ⟨JobRow.tenantId⟩

instance : IActorOwned JobRow := ⟨JobRow.createdByActorId⟩

/-- A row of `JobStateChanges`, with the foreign key the entity does not show. -/
structure JobStateChangeRow where
  jobId : Guid
  change : JobStateChange
  deriving DecidableEq, Repr

/-- The primary key of `JobStateChanges`. -/
def JobStateChangeRow.id (row : JobStateChangeRow) : Guid := row.change.id

/-- The row stored for a record. -/
def JobRow.ofRecord (job : JobRecord) : JobRow where
  id := job.id
  tenantId := job.tenantId
  createdByActorId := job.createdByActorId
  type := job.type
  payload := job.payload
  status := job.status
  currentStateChangeId := job.currentStateChangeId
  runAt := job.runAt
  claimedBy := job.claimedBy
  claimedAt := job.claimedAt
  leaseExpiresAt := job.leaseExpiresAt
  acknowledgedBy := job.acknowledgedBy
  acknowledgedAt := job.acknowledgedAt
  maxAttempts := job.maxAttempts
  failureReason := job.failureReason

/-- The record EF Core materializes from a row and its related history rows. -/
def JobRow.toRecord (row : JobRow) (history : List JobStateChange) : JobRecord where
  id := row.id
  tenantId := row.tenantId
  createdByActorId := row.createdByActorId
  type := row.type
  payload := row.payload
  status := row.status
  currentStateChangeId := row.currentStateChangeId
  runAt := row.runAt
  claimedBy := row.claimedBy
  claimedAt := row.claimedAt
  leaseExpiresAt := row.leaseExpiresAt
  acknowledgedBy := row.acknowledgedBy
  acknowledgedAt := row.acknowledgedAt
  maxAttempts := row.maxAttempts
  failureReason := row.failureReason
  history := history

-----------------------------------------------------------------------------------------
-- Query filters
-----------------------------------------------------------------------------------------

/-- The query filter of the `Jobs` set as one call evaluates it. What it looks at of a row
is who owns the row: its tenant and its creator.
-/
structure QueryFilter where
  admits : JobRow → Bool
  ownership
    : ∀ row other : JobRow,
        row.tenantId = other.tenantId
        → row.createdByActorId = other.createdByActorId
        → admits row = admits other

/-- The filter of a scope whose actor may access every row. -/
def QueryFilter.everyRow : QueryFilter := ⟨fun _ => true, fun _ _ _ _ => rfl⟩

structure Database where
  jobs : KeyedTable JobRow.id
  jobStateChanges : KeyedTable JobStateChangeRow.id

namespace Database

def empty : Database := ⟨.empty, .empty⟩

/-- The `Jobs` set under a query filter. -/
def filteredJobs (db : Database) (filter : QueryFilter) : List JobRow :=
  db.jobs.rows.filter filter.admits

/-- The history rows related to a job. -/
def historyOf (db : Database) (jobId : Guid) : List JobStateChange :=
  (db.jobStateChanges.rows.filter (·.jobId = jobId)).map JobStateChangeRow.change

/-- `Include(job => job.History)` followed by `WithOrderedHistory()`. The rows of `historyOf`
stand in the order they were stored in; `Sound.loadRow_of_perm` says that the database may give
them back in any other.
-/
def loadRow (db : Database) (row : JobRow) : JobRecord :=
  (row.toRecord (db.historyOf row.id)).withOrderedHistory

/-- `Where(condition).ExecuteUpdate(...)`: the number of rows updated, and the database.
The primary key is never among the properties set.
-/
def executeUpdate (db : Database) (filter : QueryFilter) (condition : JobRow → Bool)
    (setProperties : JobRow → JobRow) (keepsKey : ∀ row, (setProperties row).id = row.id)
    : Nat × Database :=
  let selected (row : JobRow) : Bool := filter.admits row && condition row
  (db.jobs.rows.countP selected,
    { db with jobs := db.jobs.updateWhere selected setProperties keepsKey })

/-- `AppendStateChanges` and the `SaveChanges` after it. -/
def appendStateChanges (db : Database) (jobId : Guid) (stateChanges : List JobStateChange)
    : Except SchedulerException Database :=
  match db.jobStateChanges.insertAll? (stateChanges.map (JobStateChangeRow.mk jobId)) with
  | some changes => .ok { db with jobStateChanges := changes }
  | none => .error .dbUpdate

/-- `Jobs.Add(job)` and `SaveChanges`: the row and the rows of its history, or nothing. -/
def insertJob (db : Database) (job : JobRecord) : Except SchedulerException Database :=
  match db.jobs.insert? (.ofRecord job) with
  | some jobs =>
      Database.appendStateChanges { db with jobs := jobs } job.id job.history
  | none => .error .dbUpdate

end Database

end JobScheduler
