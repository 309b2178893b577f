import JobScheduler.Actions.JobAuthorizedAction
import JobScheduler.Core.RecordHistory
import JobScheduler.Lifecycle.JobLifecycleService
import JobScheduler.Persistence.DbContextFactory

/-! The actions of the scheduler and their dispatch. Clients list, read, acknowledge and
enqueue jobs; the workers claim jobs, renew leases and complete executions.
-/

namespace JobScheduler

/-- The result records of the actions, which differ in the type of their answer alone. -/
structure JobActionResult (Answer : Type) where
  isAuthorized : Bool
  answer : Answer
  errorMessage : Option String
  deriving DecidableEq, Repr

namespace JobActionResult

def authorized {Answer : Type} (answer : Answer) : JobActionResult Answer :=
  ⟨true, answer, none⟩

def denied {Answer : Type} (nothing : Answer) (errorMessage : String)
    : JobActionResult Answer :=
  ⟨false, nothing, some errorMessage⟩

end JobActionResult

abbrev ListJobsActionResult : Type := JobActionResult (List JobRecord)

abbrev GetJobByIdActionResult : Type := JobActionResult (Option JobRecord)

abbrev AcknowledgeJobActionResult : Type := JobActionResult Bool

abbrev ClaimNextDueJobActionResult : Type := JobActionResult (Option JobRecord)

abbrev RenewJobLeaseActionResult : Type := JobActionResult Bool

abbrev CompleteJobExecutionActionResult : Type :=
  JobActionResult (Option JobExecutionCompletion)

structure JobEnqueueResult where
  accepted : Bool
  job : Option JobRecord
  errorMessage : Option String
  deriving DecidableEq, Repr

namespace JobEnqueueResult

def success (job : JobRecord) : JobEnqueueResult := ⟨true, some job, none⟩

def rejected (errorMessage : String) : JobEnqueueResult := ⟨false, none, some errorMessage⟩

end JobEnqueueResult

structure EnqueueJobActionRequest where
  type : String
  payload : JsonElement
  delaySeconds : Option Int
  deriving DecidableEq, Repr

structure ClaimNextDueJobActionRequest where
  now : DateTimeOffset
  workerId : String
  leaseExpiresAt : DateTimeOffset
  deriving DecidableEq, Repr

structure RenewJobLeaseActionRequest where
  job : JobRecord
  renewedAt : DateTimeOffset
  leaseExpiresAt : DateTimeOffset
  deriving DecidableEq, Repr

structure CompleteJobExecutionActionRequest where
  job : JobRecord
  result : JobExecutionResult
  deriving DecidableEq, Repr

-----------------------------------------------------------------------------------------
-- Client actions
-----------------------------------------------------------------------------------------

/-- The scope of the actions on stored jobs: all tenants for a global reader. -/
def globalReadScope (actor : JobActor) : Except SchedulerException DataAccessScope :=
  if actor.hasPermission JobPermissions.globalRead then
    .ok .allTenants
  else
    DataAccessScope.tenant actor.tenantId

section Actions

variable {State : Type}

def listJobsAction : JobAuthorizedAction State Unit ListJobsActionResult where
  name := "ListJobsAction"
  dataAccessOperation := .read
  buildAuthorizationRules _ := [permissionJobAuthorizationRule JobPermissions.emailRead]
  buildDataAccessScope _ actor := globalReadScope actor
  onAuthorizationDenied result :=
    .denied [] (result.errorMessage.getD "Actor is not authorized to read jobs.")
  executeAuthorized jobs _ _ _ := StoreMethod.map .authorized jobs.list

def getJobByIdAction : JobAuthorizedAction State Guid GetJobByIdActionResult where
  name := "GetJobByIdAction"
  dataAccessOperation := .read
  buildAuthorizationRules _ := [permissionJobAuthorizationRule JobPermissions.emailRead]
  buildDataAccessScope _ actor := globalReadScope actor
  onAuthorizationDenied result :=
    .denied none (result.errorMessage.getD "Actor is not authorized to read jobs.")
  executeAuthorized jobs _ id _ := StoreMethod.map .authorized (jobs.get id)

def acknowledgeJobAction : JobAuthorizedAction State Guid AcknowledgeJobActionResult where
  name := "AcknowledgeJobAction"
  dataAccessOperation := .mutate
  buildAuthorizationRules _ := [permissionJobAuthorizationRule JobPermissions.emailManage]
  buildDataAccessScope _ actor := globalReadScope actor
  onAuthorizationDenied result :=
    .denied false (result.errorMessage.getD "Actor is not authorized to acknowledge jobs.")
  executeAuthorized jobs ambient id actor :=
    StoreMethod.map .authorized (jobs.acknowledge id actor.id ambient.utcNow)

namespace EnqueueJobAction

/-- `JobEnqueueValidationResult`; an invalid one carries nothing but its message. -/
inductive JobEnqueueValidationResult
  | valid (payload : JsonElement) (retryPolicy : JobRetryPolicy) (delaySeconds : Int)
  | invalid (errorMessage : String)
  deriving DecidableEq, Repr

def immediateDelaySeconds : Int := 0

def validate (definitions : IJobDefinitionRegistry) (request : EnqueueJobActionRequest)
    : JobEnqueueValidationResult :=
  if isNullOrWhiteSpace request.type then
    .invalid "Job type is required."
  else
    match definitions request.type with
    | none => .invalid "Unsupported job type."
    | some definition =>
        let payloadValidation := definition.validatePayload request.payload
        let delaySeconds := request.delaySeconds.getD immediateDelaySeconds
        if !payloadValidation.isValid then
          .invalid (payloadValidation.errorMessage.getD "Job payload is invalid.")
        else if delaySeconds < immediateDelaySeconds then
          .invalid "Delay seconds cannot be negative."
        else if definition.maxScheduleDelaySeconds < delaySeconds then
          .invalid "Delay seconds exceeds the maximum allowed for this job type."
        else
          .valid payloadValidation.payload definition.retryPolicy delaySeconds

/-- The record of an accepted request, with the actor's tenant as the actor gives it. -/
def jobFor (ambient : Ambient) (type : String) (payload : JsonElement)
    (retryPolicy : JobRetryPolicy) (delaySeconds : Int) (actor : JobActor)
    : Except SchedulerException JobRecord :=
  let now := ambient.utcNow
  let id := ambient.newGuid
  if immediateDelaySeconds < delaySeconds then
    (now.add (.fromSeconds delaySeconds)).bind (fun scheduledAt =>
      JobRecord.schedule ambient.newGuidAgain id actor.tenantId actor.id type payload
        retryPolicy.maxAttempts scheduledAt now)
  else
    JobRecord.enqueue ambient.newGuidAgain id actor.tenantId actor.id type payload
      retryPolicy.maxAttempts now

/-- The record is scheduled for the end of a delay, or enqueued without one. -/
theorem jobFor_cases {ambient : Ambient} {type : String} {payload : JsonElement}
    {retryPolicy : JobRetryPolicy} {delaySeconds : Int} {actor : JobActor} {job : JobRecord}
    (built : jobFor ambient type payload retryPolicy delaySeconds actor = .ok job)
    : (∃ scheduledAt,
        immediateDelaySeconds < delaySeconds
        ∧ ambient.utcNow.add (.fromSeconds delaySeconds) = .ok scheduledAt
        ∧ JobRecord.schedule ambient.newGuidAgain ambient.newGuid actor.tenantId actor.id type
            payload retryPolicy.maxAttempts scheduledAt ambient.utcNow
          = .ok job)
      ∨ JobRecord.enqueue ambient.newGuidAgain ambient.newGuid actor.tenantId actor.id type
          payload retryPolicy.maxAttempts ambient.utcNow
        = .ok job := by
  unfold jobFor at built
  by_cases delayed : immediateDelaySeconds < delaySeconds
  · simp only [delayed, if_true] at built
    cases added : ambient.utcNow.add (.fromSeconds delaySeconds) with
    | error exception =>
        rw [added] at built
        cases built
    | ok scheduledAt =>
        rw [added] at built
        exact Or.inl ⟨scheduledAt, delayed, rfl, built⟩
  · simp only [delayed, if_false] at built
    exact Or.inr built

/-- The record is the actor's, under the generated id, and starts with one state change. -/
theorem jobFor_eq {ambient : Ambient} {type : String} {payload : JsonElement}
    {retryPolicy : JobRetryPolicy} {delaySeconds : Int} {actor : JobActor} {job : JobRecord}
    (built : jobFor ambient type payload retryPolicy delaySeconds actor = .ok job)
    : job.id = ambient.newGuid
      ∧ job.tenantId = actor.tenantId
      ∧ job.createdByActorId = actor.id
      ∧ ∃ change, job.history = [change] ∧ change.id = ambient.newGuidAgain := by
  rcases jobFor_cases built with ⟨scheduledAt, -, -, made⟩ | made
  · obtain ⟨-, rfl⟩ := JobRecord.schedule_ok made
    exact ⟨rfl, rfl, rfl, _, rfl, rfl⟩
  · obtain ⟨-, rfl⟩ := JobRecord.enqueue_ok made
    exact ⟨rfl, rfl, rfl, _, rfl, rfl⟩

end EnqueueJobAction

def enqueueJobAction (definitions : IJobDefinitionRegistry)
    : JobAuthorizedAction State EnqueueJobActionRequest JobEnqueueResult where
  name := "EnqueueJobAction"
  dataAccessOperation := .mutate
  buildAuthorizationRules _ := [permissionJobAuthorizationRule JobPermissions.emailEnqueue]
  buildDataAccessScope _ actor := DataAccessScope.tenant actor.tenantId
  onAuthorizationDenied result :=
    .rejected (result.errorMessage.getD "Actor is not authorized to enqueue jobs.")
  executeAuthorized jobs ambient request actor := fun state =>
    match EnqueueJobAction.validate definitions request with
    | .invalid errorMessage => (.ok (.rejected errorMessage), state)
    | .valid payload retryPolicy delaySeconds =>
        match EnqueueJobAction.jobFor ambient request.type payload retryPolicy delaySeconds
          actor with
        | .error exception => (.error exception, state)
        | .ok job => StoreMethod.map (fun _ => .success job) (jobs.add ambient job) state

-----------------------------------------------------------------------------------------
-- Worker actions
-----------------------------------------------------------------------------------------

def claimNextDueJobAction
    : JobAuthorizedAction State ClaimNextDueJobActionRequest ClaimNextDueJobActionResult where
  name := "ClaimNextDueJobAction"
  dataAccessOperation := .mutate
  buildAuthorizationRules _ := [permissionJobAuthorizationRule JobPermissions.execute]
  buildDataAccessScope _ _ := .ok .allTenants
  onAuthorizationDenied result :=
    .denied none (result.errorMessage.getD "Actor is not authorized to claim jobs.")
  executeAuthorized jobs ambient request _ :=
    StoreMethod.map .authorized
      (JobLifecycleService.claimNextDueJob jobs ambient request.now request.workerId
        request.leaseExpiresAt)

def renewJobLeaseAction
    : JobAuthorizedAction State RenewJobLeaseActionRequest RenewJobLeaseActionResult where
  name := "RenewJobLeaseAction"
  dataAccessOperation := .mutate
  buildAuthorizationRules _ := [permissionJobAuthorizationRule JobPermissions.execute]
  buildDataAccessScope _ _ := .ok .allTenants
  onAuthorizationDenied result :=
    .denied false (result.errorMessage.getD "Actor is not authorized to renew job leases.")
  executeAuthorized jobs _ request _ :=
    StoreMethod.map .authorized
      (JobLifecycleService.renewLease jobs request.job request.renewedAt
        request.leaseExpiresAt)

/-- The service reads the clock first, then the store does. -/
def completeJobExecutionAction (definitions : IJobDefinitionRegistry)
    : JobAuthorizedAction State CompleteJobExecutionActionRequest
        CompleteJobExecutionActionResult where
  name := "CompleteJobExecutionAction"
  dataAccessOperation := .mutate
  buildAuthorizationRules _ := [permissionJobAuthorizationRule JobPermissions.execute]
  buildDataAccessScope _ _ := .ok .allTenants
  onAuthorizationDenied result :=
    .denied none
      (result.errorMessage.getD "Actor is not authorized to complete job executions.")
  executeAuthorized jobs ambient request _ :=
    StoreMethod.map (fun completion => .authorized (some completion))
      (JobLifecycleService.completeExecution jobs definitions ambient.utcNow
        { ambient with utcNow := ambient.utcNowAgain } request.job request.result)

end Actions

inductive JobActionRequest
  | listJobs
  | getJobById (id : Guid)
  | acknowledgeJob (id : Guid)
  | enqueueJob (request : EnqueueJobActionRequest)
  | claimNextDueJob (request : ClaimNextDueJobActionRequest)
  | renewJobLease (request : RenewJobLeaseActionRequest)
  | completeJobExecution (request : CompleteJobExecutionActionRequest)
  deriving DecidableEq, Repr

inductive JobActionResponse
  | listJobs (result : ListJobsActionResult)
  | getJobById (result : GetJobByIdActionResult)
  | acknowledgeJob (result : AcknowledgeJobActionResult)
  | enqueueJob (result : JobEnqueueResult)
  | claimNextDueJob (result : ClaimNextDueJobActionResult)
  | renewJobLease (result : RenewJobLeaseActionResult)
  | completeJobExecution (result : CompleteJobExecutionActionResult)
  deriving DecidableEq, Repr

/-- `JobActionDispatcher.DispatchAsync`, over the SQLite store. -/
def dispatch (definitions : IJobDefinitionRegistry) (provided : JobActor)
    (scopes : DataAccessScopes) (ambient : Ambient)
    : JobActionRequest → StoreMethod DbContextFactory JobActionResponse
  | .listJobs =>
      StoreMethod.map .listJobs
        (listJobsAction.execute DbContextFactory.store provided scopes ambient ())
  | .getJobById id =>
      StoreMethod.map .getJobById
        (getJobByIdAction.execute DbContextFactory.store provided scopes ambient id)
  | .acknowledgeJob id =>
      StoreMethod.map .acknowledgeJob
        (acknowledgeJobAction.execute DbContextFactory.store provided scopes ambient id)
  | .enqueueJob request =>
      StoreMethod.map .enqueueJob
        ((enqueueJobAction definitions).execute DbContextFactory.store provided scopes ambient
          request)
  | .claimNextDueJob request =>
      StoreMethod.map .claimNextDueJob
        (claimNextDueJobAction.execute DbContextFactory.store provided scopes ambient request)
  | .renewJobLease request =>
      StoreMethod.map .renewJobLease
        (renewJobLeaseAction.execute DbContextFactory.store provided scopes ambient request)
  | .completeJobExecution request =>
      StoreMethod.map .completeJobExecution
        ((completeJobExecutionAction definitions).execute DbContextFactory.store provided
          scopes ambient request)

/-- The requests the endpoints and pages dispatch, all but those of the workers. -/
def JobActionRequest.fromClient : JobActionRequest → Bool
  | .listJobs | .getJobById _ | .acknowledgeJob _ | .enqueueJob _ => true
  | .claimNextDueJob _ | .renewJobLease _ | .completeJobExecution _ => false

end JobScheduler
