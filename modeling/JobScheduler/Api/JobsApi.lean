import JobScheduler.Actions.JobActions
import JobScheduler.Authorization.DevelopmentHeaderJobActorProvider
import JobScheduler.Core.JobAttempts

/-! The HTTP front end: the endpoints under `/api/jobs` and the two pages. Each request is
handled in a flow of control of its own, as the actor its headers give, and dispatches one
action at most.
-/

namespace JobScheduler

structure EnqueueJobRequest where
  type : String
  payload : JsonElement
  delaySeconds : Option Int
  deriving DecidableEq, Repr

/-- What the endpoints and the pages show of a state change. -/
structure JobStateChangeResponse where
  id : Guid
  status : JobStatus
  changedAt : DateTimeOffset
  reason : String
  scheduledAt : Option DateTimeOffset
  deriving DecidableEq, Repr

structure JobAttemptResponse where
  number : Nat
  status : JobStatus
  startedAt : DateTimeOffset
  completedAt : Option DateTimeOffset
  failedAt : Option DateTimeOffset
  duration : Option TimeSpan
  failureReason : Option String
  deriving DecidableEq, Repr

/-- `JobResponse` of the endpoints and `JobSummary` of the index page, which show the same of
a job; a status is its name in the one and the value in the other.
-/
structure JobResponse where
  id : Guid
  tenantId : String
  createdByActorId : String
  type : String
  status : JobStatus
  currentStateChangeId : Guid
  failureReason : Option String
  claimedBy : Option String
  claimedAt : Option DateTimeOffset
  leaseExpiresAt : Option DateTimeOffset
  acknowledgedBy : Option String
  acknowledgedAt : Option DateTimeOffset
  enqueuedAt : DateTimeOffset
  scheduledAt : Option DateTimeOffset
  startedAt : Option DateTimeOffset
  completedAt : Option DateTimeOffset
  failedAt : Option DateTimeOffset
  attemptCount : Nat
  maxAttempts : Int
  attempts : List JobAttemptResponse
  history : List JobStateChangeResponse
  statusUrl : String
  deriving DecidableEq, Repr

/-- `JobDetails`: the summary and the raw text of the payload. -/
structure JobDetails extends JobResponse where
  payload : JsonElement
  deriving DecidableEq, Repr

structure JobValidationError where
  message : String
  deriving DecidableEq, Repr

namespace JobsApi

def attemptResponse (attempt : JobAttempt) : JobAttemptResponse where
  number := attempt.number
  status := attempt.status
  startedAt := attempt.startedAt
  completedAt := attempt.completedAt
  failedAt := attempt.failedAt
  duration := attempt.duration
  failureReason := attempt.failureReason

def stateChangeResponse (stateChange : JobStateChange) : JobStateChangeResponse where
  id := stateChange.id
  status := stateChange.status
  changedAt := stateChange.changedAt
  reason := stateChange.reason
  scheduledAt := stateChange.scheduledAt

def statusUrl (id : Guid) : String := "/api/jobs/" ++ toString id

/-- The response of a job that was enqueued at the given instant. -/
def responseAt (job : JobRecord) (enqueuedAt : DateTimeOffset) : JobResponse where
  id := job.id
  tenantId := job.tenantId
  createdByActorId := job.createdByActorId
  type := job.type
  status := job.status
  currentStateChangeId := job.currentStateChangeId
  failureReason := job.failureReason
  claimedBy := job.claimedBy
  claimedAt := job.claimedAt
  leaseExpiresAt := job.leaseExpiresAt
  acknowledgedBy := job.acknowledgedBy
  acknowledgedAt := job.acknowledgedAt
  enqueuedAt := enqueuedAt
  scheduledAt := job.scheduledAt
  startedAt := job.startedAt
  completedAt := job.completedAt
  failedAt := job.failedAt
  attemptCount := job.attemptCount
  maxAttempts := job.maxAttempts
  attempts := job.attempts.map attemptResponse
  history := job.history.map stateChangeResponse
  statusUrl := statusUrl job.id

/-- `ToResponse` and `JobSummary.From`; only `EnqueuedAt` can throw. -/
def toResponse (job : JobRecord) : Except SchedulerException JobResponse :=
  job.enqueuedAt.map (responseAt job)

/-- `JobDetails.From`. -/
def toDetails (job : JobRecord) : Except SchedulerException JobDetails :=
  (toResponse job).map (fun response => { response with payload := job.payload })

end JobsApi

-----------------------------------------------------------------------------------------
-- Requests and responses
-----------------------------------------------------------------------------------------

/-- A request to an endpoint or to a handler of a page, its body and route values bound. -/
inductive WebRequest
  | postJob (body : EnqueueJobRequest)
  | getJobs
  | getJob (id : Guid)
  | indexPage
  | indexAcknowledge (id : Guid)
  | detailsPage (id : Guid)
  deriving DecidableEq, Repr

/-- `StatusLevel` and `StatusMessage` of the index page. -/
structure StatusNotice where
  level : String
  message : String
  deriving DecidableEq, Repr

inductive WebResponse
  | accepted (location : String) (job : JobResponse)
  | badRequest (error : JobValidationError)
  | ok (job : JobResponse)
  | okList (jobs : List JobResponse)
  | notFound
  | statusCode (code : Nat)
  | forbid
  | index (jobs : List JobResponse)
  | redirectToPage (notice : StatusNotice)
  | details (job : JobDetails)
  deriving DecidableEq, Repr

/-- `Guid.Empty`. -/
def Guid.empty : Guid := ⟨0⟩

namespace WebRequest

/-- The action the request dispatches; an acknowledgement without an id dispatches none. -/
def toActionRequest : WebRequest → Option JobActionRequest
  | .postJob body =>
      some (.enqueueJob ⟨body.type, body.payload, body.delaySeconds⟩)
  | .getJobs | .indexPage => some .listJobs
  | .getJob id | .detailsPage id => some (.getJobById id)
  | .indexAcknowledge id => if id = Guid.empty then none else some (.acknowledgeJob id)

theorem toActionRequest_client {request : WebRequest} {action : JobActionRequest}
    (dispatches : request.toActionRequest = some action)
    : action.fromClient = true := by
  cases request with
  | indexAcknowledge id =>
      by_cases missing : id = Guid.empty
      · rw [toActionRequest, if_pos missing] at dispatches
        cases dispatches
      · rw [toActionRequest, if_neg missing] at dispatches
        cases dispatches
        rfl
  | postJob | getJobs | getJob | indexPage | detailsPage =>
      cases dispatches
      rfl

end WebRequest

-----------------------------------------------------------------------------------------
-- Responses to the results of actions
-----------------------------------------------------------------------------------------

namespace WebResponse

/-- `EnqueueJobEndpointDefinition.ToHttpResponse`; an accepted result has a job. -/
def ofEnqueueResult (result : JobEnqueueResult) : Except SchedulerException WebResponse :=
  match result.accepted, result.job with
  | true, some job =>
      (JobsApi.toResponse job).map (fun response => .accepted response.statusUrl response)
  | _, _ => .ok (.badRequest ⟨result.errorMessage.getD "Job request is invalid."⟩)

/-- `ListJobsEndpointDefinition.ToHttpResponse`. -/
def ofListResult (result : ListJobsActionResult) : Except SchedulerException WebResponse :=
  if !result.isAuthorized then
    .ok (.statusCode 403)
  else
    (result.answer.mapM JobsApi.toResponse).map .okList

/-- `GetJobByIdEndpointDefinition.ToHttpResponse`. -/
def ofGetResult (result : GetJobByIdActionResult) : Except SchedulerException WebResponse :=
  if !result.isAuthorized then
    .ok (.statusCode 403)
  else
    match result.answer with
    | none => .ok .notFound
    | some job => (JobsApi.toResponse job).map .ok

/-- `IndexModel.OnGet`: without authorization the page shows no job. -/
def ofListResultOnIndex (result : ListJobsActionResult)
    : Except SchedulerException WebResponse :=
  if result.isAuthorized then
    (result.answer.mapM JobsApi.toResponse).map .index
  else
    .ok (.index [])

/-- `IndexModel.OnPostAcknowledge`, after the action. -/
def ofAcknowledgeResult (id : Guid) (result : AcknowledgeJobActionResult) : WebResponse :=
  if !result.isAuthorized then
    .redirectToPage ⟨"danger",
      result.errorMessage.getD "You are not authorized to acknowledge jobs."⟩
  else if !result.answer then
    .redirectToPage ⟨"warning",
      "Job could not be acknowledged. It may not exist or may be outside your scope."⟩
  else
    .redirectToPage ⟨"success", "Acknowledged job " ++ toString id ++ "."⟩

/-- `DetailsModel.OnGet`, after the action. -/
def ofGetResultOnDetails (result : GetJobByIdActionResult)
    : Except SchedulerException WebResponse :=
  if !result.isAuthorized then
    .ok .forbid
  else
    match result.answer with
    | none => .ok .notFound
    | some job => (JobsApi.toDetails job).map .details

end WebResponse

/-- A method whose answer is turned into a response, which may throw. -/
def StoreMethod.respond {State Answer Response : Type} (method : StoreMethod State Answer)
    (toHttpResponse : Answer → Except SchedulerException Response)
    : StoreMethod State Response := fun state =>
  ((method state).1.bind toHttpResponse, (method state).2)

/-- The handling of a request as an actor, in a flow that has set nothing. -/
def WebRequest.handleAs (definitions : IJobDefinitionRegistry) (actor : JobActor)
    (ambient : Ambient)
    : WebRequest → StoreMethod DbContextFactory WebResponse
  | .postJob body =>
      StoreMethod.respond
        ((enqueueJobAction definitions).execute DbContextFactory.store actor .unset ambient
          ⟨body.type, body.payload, body.delaySeconds⟩)
        WebResponse.ofEnqueueResult
  | .getJobs =>
      StoreMethod.respond
        (listJobsAction.execute DbContextFactory.store actor .unset ambient ())
        WebResponse.ofListResult
  | .getJob id =>
      StoreMethod.respond
        (getJobByIdAction.execute DbContextFactory.store actor .unset ambient id)
        WebResponse.ofGetResult
  | .indexPage =>
      StoreMethod.respond
        (listJobsAction.execute DbContextFactory.store actor .unset ambient ())
        WebResponse.ofListResultOnIndex
  | .indexAcknowledge id =>
      if id = Guid.empty then
        fun factory => (.ok (.redirectToPage ⟨"warning", "Job ID is required."⟩), factory)
      else
        StoreMethod.respond
          (acknowledgeJobAction.execute DbContextFactory.store actor .unset ambient id)
          (fun result => .ok (WebResponse.ofAcknowledgeResult id result))
  | .detailsPage id =>
      StoreMethod.respond
        (getJobByIdAction.execute DbContextFactory.store actor .unset ambient id)
        WebResponse.ofGetResultOnDetails

/-- The handling of a request with its headers. An action asks the provider for its actor,
which a request that dispatches none does not.
-/
def WebRequest.handle (definitions : IJobDefinitionRegistry) (options : DevelopmentActorOptions)
    (headers : HttpRequest) (ambient : Ambient) (request : WebRequest)
    : StoreMethod DbContextFactory WebResponse := fun factory =>
  match DevelopmentHeaderJobActorProvider.getCurrentActor options (some headers) with
  | .error exception => (.error exception, factory)
  | .ok actor => request.handleAs definitions actor ambient factory

end JobScheduler
