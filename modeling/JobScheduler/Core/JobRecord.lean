import Mathlib.Data.List.Basic
import JobScheduler.Core.Values
import JobScheduler.Library.Selection

/-! Job records and their state changes, with every transition of the source.
`Guid.NewGuid()` and `DateTimeOffset.UtcNow` are arguments of the transitions that read them.
-/

namespace JobScheduler

open Library

/-- `JsonElement`, as the raw text that the payload column stores. An undefined element, which
has no text for the column, is left out.
-/
structure JsonElement where
  rawText : String
  deriving DecidableEq, Repr

inductive JobStatus
  | scheduled
  | queued
  | running
  | completed
  | failed
  deriving DecidableEq, Repr

instance : ToString JobStatus where
  toString
    | .scheduled => "Scheduled"
    | .queued => "Queued"
    | .running => "Running"
    | .completed => "Completed"
    | .failed => "Failed"

structure JobStateChange where
  id : Guid
  status : JobStatus
  changedAt : DateTimeOffset
  reason : String
  scheduledAt : Option DateTimeOffset
  sequence : Nat
  deriving DecidableEq, Repr

namespace JobStateChange

def create (newGuid : Guid) (status : JobStatus) (changedAt : DateTimeOffset)
    (reason : String) (scheduledAt : Option DateTimeOffset)
    : JobStateChange where
  id := newGuid
  status := status
  changedAt := changedAt
  reason := reason
  scheduledAt := scheduledAt
  sequence := 0

def queued (newGuid : Guid) (changedAt : DateTimeOffset) (reason : String)
    : JobStateChange :=
  create newGuid .queued changedAt reason none

def scheduled (newGuid : Guid) (changedAt : DateTimeOffset) (reason : String)
    (scheduledAt : DateTimeOffset)
    : JobStateChange :=
  create newGuid .scheduled changedAt reason (some scheduledAt)

def running (newGuid : Guid) (changedAt : DateTimeOffset) (reason : String)
    : JobStateChange :=
  create newGuid .running changedAt reason none

def completed (newGuid : Guid) (changedAt : DateTimeOffset) (reason : String)
    : JobStateChange :=
  create newGuid .completed changedAt reason none

def failed (newGuid : Guid) (changedAt : DateTimeOffset) (reason : String)
    : JobStateChange :=
  create newGuid .failed changedAt reason none

def withSequence (change : JobStateChange) (sequence : Nat) : JobStateChange :=
  { change with sequence := sequence }

end JobStateChange

-----------------------------------------------------------------------------------------
-- Records
-----------------------------------------------------------------------------------------

structure JobRecord where
  id : Guid
  tenantId : String
  createdByActorId : String
  type : String
  payload : JsonElement
  status : JobStatus
  currentStateChangeId : Guid
  runAt : Option DateTimeOffset
  claimedBy : Option String
  claimedAt : Option DateTimeOffset
  leaseExpiresAt : Option DateTimeOffset
  acknowledgedBy : Option String
  acknowledgedAt : Option DateTimeOffset
  maxAttempts : Int
  failureReason : Option String
  history : List JobStateChange
  deriving DecidableEq, Repr

/-- Every entry gets its position, counted from one, as its sequence number. -/
def numbered (history : List JobStateChange) : List JobStateChange :=
  history.mapIdx (fun index change => change.withSequence (index + 1))

namespace JobRecord

/-- The constructor every transition goes through: it renumbers the history it is given. -/
def construct (id : Guid) (tenantId createdByActorId type : String) (payload : JsonElement)
    (status : JobStatus) (currentStateChangeId : Guid) (runAt : Option DateTimeOffset)
    (claimedBy : Option String) (claimedAt leaseExpiresAt : Option DateTimeOffset)
    (acknowledgedBy : Option String) (acknowledgedAt : Option DateTimeOffset)
    (maxAttempts : Int) (failureReason : Option String) (history : List JobStateChange)
    : JobRecord where
  id := id
  tenantId := tenantId
  createdByActorId := createdByActorId
  type := type
  payload := payload
  status := status
  currentStateChangeId := currentStateChangeId
  runAt := runAt
  claimedBy := claimedBy
  claimedAt := claimedAt
  leaseExpiresAt := leaseExpiresAt
  acknowledgedBy := acknowledgedBy
  acknowledgedAt := acknowledgedAt
  maxAttempts := maxAttempts
  failureReason := failureReason
  history := numbered history

/-- `History.LastOrDefault(change => change.Status == status)`. -/
def lastChange (job : JobRecord) (status : JobStatus) : Option JobStateChange :=
  job.history.reverse.find? (fun change => change.status = status)

/-- `History[0].ChangedAt`; indexing an empty history throws. -/
def enqueuedAt (job : JobRecord) : Except SchedulerException DateTimeOffset :=
  match job.history with
  | [] =>
      .error (.argumentOutOfRange
        ("Index was out of range. Must be non-negative and less than the size of the "
          ++ "collection.") "index")
  | first :: _ => .ok first.changedAt

def scheduledAt (job : JobRecord) : Option DateTimeOffset :=
  (job.lastChange .scheduled).bind JobStateChange.scheduledAt

/-- `ChangedAt(status)`: when the job last got to a status. -/
def changedAt (job : JobRecord) (status : JobStatus) : Option DateTimeOffset :=
  (job.lastChange status).map JobStateChange.changedAt

def startedAt (job : JobRecord) : Option DateTimeOffset := job.changedAt .running

def completedAt (job : JobRecord) : Option DateTimeOffset := job.changedAt .completed

def failedAt (job : JobRecord) : Option DateTimeOffset := job.changedAt .failed

def attemptCount (job : JobRecord) : Nat :=
  job.history.countP (fun change => change.status = .running)

def validateOwnership (tenantId createdByActorId : String)
    : Except SchedulerException Unit :=
  if isNullOrWhiteSpace tenantId then
    .error (.argument "Tenant ID is required." "tenantId")
  else if isNullOrWhiteSpace createdByActorId then
    .error (.argument "Created-by actor ID is required." "createdByActorId")
  else
    .ok ()

def enqueue (newGuid id : Guid) (tenantId createdByActorId type : String)
    (payload : JsonElement) (maxAttempts : Int) (enqueuedAt : DateTimeOffset)
    : Except SchedulerException JobRecord := do
  if maxAttempts < 1 then
    throw (.argumentOutOfRange "Max attempts must be at least 1." "maxAttempts")
  validateOwnership tenantId createdByActorId
  let queuedChange := JobStateChange.queued newGuid enqueuedAt "Job accepted."
  return construct id tenantId createdByActorId type payload .queued queuedChange.id
    (some enqueuedAt) none none none none none maxAttempts none [queuedChange]

def schedule (newGuid id : Guid) (tenantId createdByActorId type : String)
    (payload : JsonElement) (maxAttempts : Int) (scheduledAt changedAt : DateTimeOffset)
    : Except SchedulerException JobRecord := do
  if maxAttempts < 1 then
    throw (.argumentOutOfRange "Max attempts must be at least 1." "maxAttempts")
  validateOwnership tenantId createdByActorId
  let scheduledChange :=
    JobStateChange.scheduled newGuid changedAt "Job scheduled." scheduledAt
  return construct id tenantId createdByActorId type payload .scheduled scheduledChange.id
    (some scheduledAt) none none none none none maxAttempts none [scheduledChange]

def reasonFor : JobStatus → String
  | .scheduled => "Job scheduled."
  | .queued => "Job queued."
  | .running => "Worker claimed job."
  | .completed => "Job completed successfully."
  | .failed => "Job failed."

def runAtFor (status : JobStatus) (changedAt : DateTimeOffset) : Option DateTimeOffset :=
  if status = .queued then some changedAt else none

def stateChangeFor (newGuid : Guid) (status : JobStatus) (changedAt : DateTimeOffset)
    (reason : String)
    : Except SchedulerException JobStateChange :=
  match status with
  | .queued => .ok (.queued newGuid changedAt reason)
  | .running => .ok (.running newGuid changedAt reason)
  | .completed => .ok (.completed newGuid changedAt reason)
  | .failed => .ok (.failed newGuid changedAt reason)
  | .scheduled => .error (.invalidOperation "Use Schedule to create scheduled state changes.")

def transitionTo (job : JobRecord) (newGuid : Guid) (nextStatus : JobStatus)
    (changedAt : DateTimeOffset)
    : Except SchedulerException JobRecord := do
  let stateChange ← stateChangeFor newGuid nextStatus changedAt (reasonFor nextStatus)
  return construct job.id job.tenantId job.createdByActorId job.type job.payload nextStatus
    stateChange.id (runAtFor nextStatus changedAt) none none none job.acknowledgedBy
    job.acknowledgedAt job.maxAttempts job.failureReason (job.history ++ [stateChange])

/-- The record `Claim` and `ReclaimExpiredLease` build, which differ in the reason alone. -/
def runUnder (job : JobRecord) (newGuid : Guid) (workerId reason : String)
    (claimedAt leaseExpiresAt : DateTimeOffset)
    : JobRecord :=
  let stateChange := JobStateChange.running newGuid claimedAt reason
  construct job.id job.tenantId job.createdByActorId job.type job.payload .running
    stateChange.id none (some workerId) (some claimedAt) (some leaseExpiresAt)
    job.acknowledgedBy job.acknowledgedAt job.maxAttempts job.failureReason
    (job.history ++ [stateChange])

/-- The argument checks `Claim` and `ReclaimExpiredLease` share. -/
def validateClaim (workerId : String) (claimedAt leaseExpiresAt : DateTimeOffset)
    : Except SchedulerException Unit :=
  if isNullOrWhiteSpace workerId then
    .error (.argument "Worker ID is required." "workerId")
  else if leaseExpiresAt ≤ claimedAt then
    .error (.argumentOutOfRange "Lease expiry must be after the claim time."
      "leaseExpiresAt")
  else
    .ok ()

def claim (job : JobRecord) (newGuid : Guid) (workerId : String)
    (claimedAt leaseExpiresAt : DateTimeOffset)
    : Except SchedulerException JobRecord := do
  validateClaim workerId claimedAt leaseExpiresAt
  return job.runUnder newGuid workerId ("Worker " ++ workerId ++ " claimed job.") claimedAt
    leaseExpiresAt

def reclaimExpiredLease (job : JobRecord) (newGuid : Guid) (workerId : String)
    (claimedAt leaseExpiresAt : DateTimeOffset)
    : Except SchedulerException JobRecord := do
  if job.status ≠ .running then
    throw (.invalidOperation "Only running jobs can have an expired lease reclaimed.")
  match job.leaseExpiresAt with
  | none => throw (.invalidOperation "Only expired job leases can be reclaimed.")
  | some expiry =>
      if claimedAt < expiry then
        throw (.invalidOperation "Only expired job leases can be reclaimed.")
  validateClaim workerId claimedAt leaseExpiresAt
  return job.runUnder newGuid workerId
    ("Worker " ++ workerId ++ " reclaimed expired lease.") claimedAt leaseExpiresAt

/-- The record `RenewLease` builds. -/
def withLease (job : JobRecord) (leaseExpiresAt : DateTimeOffset) : JobRecord :=
  construct job.id job.tenantId job.createdByActorId job.type job.payload job.status
    job.currentStateChangeId job.runAt job.claimedBy job.claimedAt (some leaseExpiresAt)
    job.acknowledgedBy job.acknowledgedAt job.maxAttempts job.failureReason job.history

def renewLease (job : JobRecord) (renewedAt leaseExpiresAt : DateTimeOffset)
    : Except SchedulerException JobRecord := do
  if job.status ≠ .running then
    throw (.invalidOperation "Only running jobs can renew a lease.")
  if leaseExpiresAt ≤ renewedAt then
    throw (.argumentOutOfRange "Lease expiry must be after the renewal time."
      "leaseExpiresAt")
  return job.withLease leaseExpiresAt

def scheduleRetry (job : JobRecord) (failedGuid scheduledGuid : Guid)
    (failureReason : String) (failedAt scheduledAt : DateTimeOffset)
    : JobRecord :=
  let failedChange := JobStateChange.failed failedGuid failedAt failureReason
  let scheduledChange :=
    JobStateChange.scheduled scheduledGuid failedAt "Retry scheduled." scheduledAt
  construct job.id job.tenantId job.createdByActorId job.type job.payload .scheduled
    scheduledChange.id (some scheduledAt) none none none job.acknowledgedBy
    job.acknowledgedAt job.maxAttempts (some failureReason)
    (job.history ++ [failedChange, scheduledChange])

def transitionToFailed (job : JobRecord) (newGuid : Guid) (reason : String)
    (changedAt : DateTimeOffset)
    : JobRecord :=
  let stateChange := JobStateChange.failed newGuid changedAt reason
  construct job.id job.tenantId job.createdByActorId job.type job.payload .failed
    stateChange.id none none none none job.acknowledgedBy job.acknowledgedAt
    job.maxAttempts (some reason) (job.history ++ [stateChange])

/-- Sorted by sequence number, then time, then id, and renumbered by the constructor. -/
def withOrderedHistory (job : JobRecord) : JobRecord :=
  construct job.id job.tenantId job.createdByActorId job.type job.payload job.status
    job.currentStateChangeId job.runAt job.claimedBy job.claimedAt job.leaseExpiresAt
    job.acknowledgedBy job.acknowledgedAt job.maxAttempts job.failureReason
    (orderBy (fun change => toLex (change.sequence, toLex (change.changedAt, change.id)))
      job.history)

/-- The record `Acknowledge` builds. -/
def acknowledgedAs (job : JobRecord) (actorId : String) (acknowledgedAt : DateTimeOffset)
    : JobRecord :=
  construct job.id job.tenantId job.createdByActorId job.type job.payload job.status
    job.currentStateChangeId job.runAt job.claimedBy job.claimedAt job.leaseExpiresAt
    (some (trim actorId)) (some acknowledgedAt) job.maxAttempts job.failureReason job.history

def acknowledge (job : JobRecord) (actorId : String) (acknowledgedAt : DateTimeOffset)
    : Except SchedulerException JobRecord := do
  if isNullOrWhiteSpace actorId then
    throw (.argument "Actor ID is required." "actorId")
  return job.acknowledgedAs actorId acknowledgedAt

/-- The records sorted by `EnqueuedAt`, which throws on a record without history. -/
def orderByEnqueuedAt (jobs : List JobRecord) : Except SchedulerException (List JobRecord) := do
  let keyed ← jobs.mapM (fun job => return (← job.enqueuedAt, job))
  return (orderBy Prod.fst keyed).map Prod.snd

end JobRecord

end JobScheduler
