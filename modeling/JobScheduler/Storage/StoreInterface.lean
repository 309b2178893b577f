import JobScheduler.Core.JobRecord

/-! The store interface shared by both stores, as methods over an explicit state, and its
calls as data, so that runs of calls can be stated.
-/

namespace JobScheduler

/-- What a call reads from its surroundings: up to two readings of `DateTimeOffset.UtcNow`
and up to two fresh `Guid.NewGuid()` values, each pair in the order they are taken.
-/
structure Ambient where
  utcNow : DateTimeOffset
  utcNowAgain : DateTimeOffset
  newGuid : Guid
  newGuidAgain : Guid
  deriving DecidableEq, Repr

/-- A method answers or throws, and leaves a state behind in both cases. -/
abbrev StoreMethod (State Answer : Type) : Type :=
  State → Except SchedulerException Answer × State

/-- A method whose answer is wrapped; exceptions pass through. -/
def StoreMethod.map {State Answer Wrapped : Type} (wrap : Answer → Wrapped)
    (method : StoreMethod State Answer)
    : StoreMethod State Wrapped := fun state =>
  (method state).map (Except.map wrap) id

/-- `IJobStore`, over the states of one implementation. -/
structure IJobStore (State : Type) where
  add : Ambient → JobRecord → StoreMethod State Unit
  get : Guid → StoreMethod State (Option JobRecord)
  list : StoreMethod State (List JobRecord)
  tryClaimNextDueJob
    : Ambient
      → (now : DateTimeOffset)
      → (workerId : String)
      → (leaseExpiresAt : DateTimeOffset)
      → StoreMethod State (Option JobRecord)
  renewLease
    : (id expectedCurrentStateChangeId : Guid)
      → (renewedAt leaseExpiresAt : DateTimeOffset)
      → StoreMethod State Bool
  markCompleted
    : Ambient → (id expectedCurrentStateChangeId : Guid) → StoreMethod State Bool
  markFailed
    : Ambient
      → (id expectedCurrentStateChangeId : Guid)
      → (reason : String)
      → StoreMethod State Bool
  scheduleRetry
    : Ambient
      → (id expectedCurrentStateChangeId : Guid)
      → (reason : String)
      → (scheduledAt : DateTimeOffset)
      → StoreMethod State Bool
  acknowledge
    : (id : Guid)
      → (acknowledgedBy : String)
      → (acknowledgedAt : DateTimeOffset)
      → StoreMethod State Bool

/-- A call of `IJobStore` with its arguments. -/
inductive StoreCall
  | add (job : JobRecord)
  | get (id : Guid)
  | list
  | tryClaimNextDueJob (now : DateTimeOffset) (workerId : String)
      (leaseExpiresAt : DateTimeOffset)
  | renewLease (id expectedCurrentStateChangeId : Guid)
      (renewedAt leaseExpiresAt : DateTimeOffset)
  | markCompleted (id expectedCurrentStateChangeId : Guid)
  | markFailed (id expectedCurrentStateChangeId : Guid) (reason : String)
  | scheduleRetry (id expectedCurrentStateChangeId : Guid) (reason : String)
      (scheduledAt : DateTimeOffset)
  | acknowledge (id : Guid) (acknowledgedBy : String) (acknowledgedAt : DateTimeOffset)
  deriving DecidableEq, Repr

/-- What the caller of a store observes. -/
inductive StoreAnswer
  | done
  | job (found : Option JobRecord)
  | jobs (found : List JobRecord)
  | flag (accepted : Bool)
  | threw (exception : SchedulerException)
  deriving DecidableEq, Repr

/-- The answer to a method's outcome; an exception is an answer of its own. -/
def StoreAnswer.of {Answer : Type} (wrap : Answer → StoreAnswer)
    : Except SchedulerException Answer → StoreAnswer
  | .ok answer => wrap answer
  | .error exception => .threw exception

@[simp] theorem StoreAnswer.of_ok {Answer : Type} (wrap : Answer → StoreAnswer)
    (answer : Answer)
    : StoreAnswer.of wrap (.ok answer) = wrap answer :=
  rfl

@[simp] theorem StoreAnswer.of_error {Answer : Type} (wrap : Answer → StoreAnswer)
    (exception : SchedulerException)
    : StoreAnswer.of wrap (.error exception) = .threw exception :=
  rfl

/-- Running one call against an implementation. -/
def IJobStore.call {State : Type} (store : IJobStore State) (ambient : Ambient)
    (call : StoreCall) (state : State)
    : StoreAnswer × State :=
  match call with
  | .add job =>
      (store.add ambient job state).map (.of fun _ => .done) id
  | .get jobId => (store.get jobId state).map (.of .job) id
  | .list => (store.list state).map (.of .jobs) id
  | .tryClaimNextDueJob now workerId leaseExpiresAt =>
      (store.tryClaimNextDueJob ambient now workerId leaseExpiresAt state).map (.of .job) id
  | .renewLease jobId token renewedAt leaseExpiresAt =>
      (store.renewLease jobId token renewedAt leaseExpiresAt state).map (.of .flag) id
  | .markCompleted jobId token =>
      (store.markCompleted ambient jobId token state).map (.of .flag) id
  | .markFailed jobId token reason =>
      (store.markFailed ambient jobId token reason state).map (.of .flag) id
  | .scheduleRetry jobId token reason scheduledAt =>
      (store.scheduleRetry ambient jobId token reason scheduledAt state).map (.of .flag) id
  | .acknowledge jobId acknowledgedBy acknowledgedAt =>
      (store.acknowledge jobId acknowledgedBy acknowledgedAt state).map (.of .flag) id

end JobScheduler
