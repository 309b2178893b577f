import JobScheduler.Actions.EnqueuedJobs
import JobScheduler.Api.JobsApi

/-! What the endpoints and the pages show of the jobs. They never contradict each other, and
an accepted job is found again under its location for good.
-/

namespace JobScheduler

open Library DevelopmentHeaderJobActorProvider

namespace JobsApi

/-- A record with a history has a response. -/
theorem toResponse_ok {job : JobRecord} (recorded : job.history ≠ [])
    : ∃ response, toResponse job = .ok response := by
  cases history : job.history with
  | nil => exact absurd history recorded
  | cons first later =>
      refine ⟨responseAt job first.changedAt, ?_⟩
      rw [toResponse, JobRecord.enqueuedAt, history]
      rfl

theorem toResponse_eq {job : JobRecord} {response : JobResponse}
    (shown : toResponse job = .ok response)
    : ∃ enqueuedAt, job.enqueuedAt = .ok enqueuedAt ∧ response = responseAt job enqueuedAt := by
  rw [toResponse] at shown
  cases known : job.enqueuedAt with
  | error exception =>
      rw [known] at shown
      cases shown
  | ok enqueuedAt =>
      rw [known] at shown
      cases shown
      exact ⟨enqueuedAt, rfl, rfl⟩

theorem toResponse_id {job : JobRecord} {response : JobResponse}
    (shown : toResponse job = .ok response)
    : response.id = job.id := by
  obtain ⟨enqueuedAt, -, rfl⟩ := toResponse_eq shown
  rfl

/-- The details of a record are its response and its payload. -/
theorem toDetails_eq {job : JobRecord} {response : JobResponse}
    (shown : toResponse job = .ok response)
    : toDetails job = .ok ⟨response, job.payload⟩ := by
  rw [toDetails, shown]
  rfl

/-- Records that all have a history have responses, in their order, by induction on the list. -/
theorem mapM_toResponse {jobs : List JobRecord} (recorded : ∀ job ∈ jobs, job.history ≠ [])
    : ∃ responses,
        jobs.mapM toResponse = .ok responses
        ∧ responses.map JobResponse.id = jobs.map JobRecord.id
        ∧ ∀ response,
            response ∈ responses ↔ ∃ job ∈ jobs, toResponse job = .ok response := by
  induction jobs with
  | nil => exact ⟨[], rfl, rfl, by simp⟩
  | cons job rest ih =>
      obtain ⟨responses, mapped, ids, members⟩ := ih
        (fun other member => recorded other (List.mem_cons_of_mem _ member))
      obtain ⟨first, shown⟩ := toResponse_ok (recorded job List.mem_cons_self)
      refine ⟨first :: responses, ?_, ?_, ?_⟩
      · rw [List.mapM_cons, shown, mapped]
        rfl
      · rw [List.map_cons, List.map_cons, ids, toResponse_id shown]
      · intro response
        rw [List.mem_cons, members response]
        constructor
        · rintro (rfl | ⟨other, member, same⟩)
          · exact ⟨job, List.mem_cons_self, shown⟩
          · exact ⟨other, List.mem_cons_of_mem _ member, same⟩
        · rintro ⟨other, member, same⟩
          rcases List.mem_cons.mp member with rfl | later
          · exact Or.inl (Except.ok.inj (same.symm.trans shown))
          · exact Or.inr ⟨other, later, same⟩

end JobsApi

-----------------------------------------------------------------------------------------
-- What a request shows
-----------------------------------------------------------------------------------------

namespace DbContextFactory

/-- Every state reached from the empty one is recorded. -/
theorem recorded_of_later {start factory : DbContextFactory}
    (recorded : start.database.Recorded) (reached : start.Later factory)
    : factory.database.Recorded := by
  refine reached.preserves (P := fun state => state.database.Recorded) ?_ recorded
  intro state input recorded admissible
  obtain ⟨model, known, -⟩ := modelFor_eq input.context state
  change ((store input.context).call input.ambient input.call state).2.database.Recorded
  rw [call_eq input.context known]
  exact SqliteJobStore.call_recorded recorded _ _ admissible

end DbContextFactory

/-- The actions of a reader show the stored jobs that one filter admits, one by one and as a
list.
-/
theorem JobActor.reads_through {actor : JobActor} {factory : DbContextFactory}
    (recorded : factory.database.Recorded)
    (reader : actor.hasPermission JobPermissions.emailRead = true)
    : ∃ (model : JobSchedulerModel) (listed : List JobRecord),
        listed.Perm (factory.database.ledger.rows.filter
          (SqliteJobStore.visible (model.filterIn actor.readContext)))
        ∧ (∀ ambient,
            (listJobsAction.execute DbContextFactory.store actor .unset ambient () factory).1
              = .ok (.authorized listed))
        ∧ ∀ ambient id,
            (getJobByIdAction.execute DbContextFactory.store actor .unset ambient id factory).1
              = .ok (.authorized ((factory.database.ledger.find? id).filter
                  (SqliteJobStore.visible (model.filterIn actor.readContext)))) := by
  have acting : DataAccessScopeProvider.currentActor actor .unset = actor := rfl
  obtain ⟨model, known, -⟩ := DbContextFactory.modelFor_eq actor.readContext factory
  obtain ⟨listed, sorted, same⟩ := @JobRecord.orderByEnqueuedAt_ok
    (factory.database.ledger.rows.filter
      (SqliteJobStore.visible (model.filterIn actor.readContext)))
    (fun job member => recorded.entered job (List.mem_filter.mp member).1)
  refine ⟨model, listed, same, ?_, ?_⟩
  · intro ambient
    rw [JobAuthorizedAction.execute_read (fun _ => rfl) acting reader rfl rfl
      (by decide +kernel)]
    change Except.map JobActionResult.authorized
      ((DbContextFactory.store actor.readContext).list factory).1 = _
    rw [DbContextFactory.list_eq known, sorted]
    rfl
  · intro ambient id
    rw [JobAuthorizedAction.execute_read (fun _ => rfl) acting reader rfl rfl
      (by decide +kernel)]
    change Except.map JobActionResult.authorized
      ((DbContextFactory.store actor.readContext).get id factory).1 = _
    rw [DbContextFactory.get_eq known]
    rfl

section Views

variable (definitions : IJobDefinitionRegistry) (options : DevelopmentActorOptions)
  (headers : HttpRequest) (factory : DbContextFactory)

/-- The answer to a request, whatever clock and identifiers it is handled with. -/
def WebRequest.Answers (request : WebRequest) (response : WebResponse) : Prop :=
  ∀ ambient,
    (request.handle definitions options headers ambient factory).1 = .ok response

/-- The list of the endpoint and that of the index page are the given one; a job is found by
its id exactly if it is listed, and then it is shown as it is listed.
-/
structure ViewsAgree (jobs : List JobResponse) : Prop where
  list : WebRequest.getJobs.Answers definitions options headers factory (.okList jobs)
  index : WebRequest.indexPage.Answers definitions options headers factory (.index jobs)
  distinct : (jobs.map JobResponse.id).Nodup
  found
    : ∀ job ∈ jobs,
        (WebRequest.getJob job.id).Answers definitions options headers factory (.ok job)
        ∧ ∃ payload,
            (WebRequest.detailsPage job.id).Answers definitions options headers factory
              (.details ⟨job, payload⟩)
  missing
    : ∀ id,
        (∀ job ∈ jobs, job.id ≠ id)
        → (WebRequest.getJob id).Answers definitions options headers factory .notFound
          ∧ (WebRequest.detailsPage id).Answers definitions options headers factory .notFound

variable {definitions options headers factory} {actor : JobActor}

/-- A request is handled as the actor of its headers. -/
theorem WebRequest.handle_eq
    (given : getCurrentActor options (some headers) = .ok actor) (ambient : Ambient)
    (request : WebRequest)
    : request.handle definitions options headers ambient factory
      = request.handleAs definitions actor ambient factory := by
  simp only [handle, given]

/-- What the four requests show is read off the two actions behind them. -/
theorem viewsAgree_of_reads {model : JobSchedulerModel} {listed : List JobRecord}
    {responses : List JobResponse} (given : getCurrentActor options (some headers) = .ok actor)
    (recorded : factory.database.Recorded)
    (sameJobs
      : listed.Perm (factory.database.ledger.rows.filter
          (SqliteJobStore.visible (model.filterIn actor.readContext))))
    (list
      : ∀ ambient,
          (listJobsAction.execute DbContextFactory.store actor .unset ambient () factory).1
            = .ok (.authorized listed))
    (get
      : ∀ ambient id,
          (getJobByIdAction.execute DbContextFactory.store actor .unset ambient id factory).1
            = .ok (.authorized ((factory.database.ledger.find? id).filter
                (SqliteJobStore.visible (model.filterIn actor.readContext)))))
    (mapped : listed.mapM JobsApi.toResponse = .ok responses)
    (ids : responses.map JobResponse.id = listed.map JobRecord.id)
    (members
      : ∀ response,
          response ∈ responses ↔ ∃ job ∈ listed, JobsApi.toResponse job = .ok response)
    : ViewsAgree definitions options headers factory responses where
  list ambient := by
    rw [WebRequest.handle_eq given, WebRequest.handleAs, StoreMethod.respond, list]
    simp only [Except.bind, WebResponse.ofListResult, JobActionResult.authorized, mapped]
    rfl
  index ambient := by
    rw [WebRequest.handle_eq given, WebRequest.handleAs, StoreMethod.respond, list]
    simp only [Except.bind, WebResponse.ofListResultOnIndex, JobActionResult.authorized, mapped]
    rfl
  distinct := by
    rw [ids]
    refine (sameJobs.map JobRecord.id).nodup_iff.mpr ?_
    exact factory.database.ledger.distinct.sublist (List.filter_sublist.map _)
  found response member := by
    obtain ⟨job, inside, shown⟩ := (members response).mp member
    obtain ⟨stored, seen⟩ := List.mem_filter.mp (sameJobs.mem_iff.mp inside)
    have found := KeyedTable.find?_of_mem stored
    rw [JobsApi.toResponse_id shown]
    refine ⟨?_, job.payload, ?_⟩
    · intro ambient
      rw [WebRequest.handle_eq given, WebRequest.handleAs, StoreMethod.respond, get, found,
        Option.filter_some, if_pos seen]
      simp only [Except.bind, WebResponse.ofGetResult, JobActionResult.authorized, shown]
      rfl
    · intro ambient
      rw [WebRequest.handle_eq given, WebRequest.handleAs, StoreMethod.respond, get, found,
        Option.filter_some, if_pos seen]
      simp only [Except.bind, WebResponse.ofGetResultOnDetails, JobActionResult.authorized,
        JobsApi.toDetails_eq shown]
      rfl
  missing id absent := by
    have none : (factory.database.ledger.find? id).filter
        (SqliteJobStore.visible (model.filterIn actor.readContext)) = none := by
      rw [Option.filter_eq_none_iff]
      intro job found seen
      obtain ⟨response, shown⟩ :=
        JobsApi.toResponse_ok (recorded.entered job (KeyedTable.find?_mem found))
      have inside : job ∈ listed :=
        sameJobs.mem_iff.mpr (List.mem_filter.mpr ⟨KeyedTable.find?_mem found, seen⟩)
      refine absent response ((members response).mpr ⟨job, inside, shown⟩) ?_
      rw [JobsApi.toResponse_id shown]
      exact KeyedTable.find?_key found
    refine ⟨?_, ?_⟩
    · intro ambient
      rw [WebRequest.handle_eq given, WebRequest.handleAs, StoreMethod.respond, get, none]
      rfl
    · intro ambient
      rw [WebRequest.handle_eq given, WebRequest.handleAs, StoreMethod.respond, get, none]
      rfl

end Views

/-- The headers of an actor of the tenant who may enqueue and read emails. -/
def emailHeaders (tenantId : String) : HttpRequest where
  headers name :=
    if name = actorIdHeaderName then "erin"
    else if name = tenantIdHeaderName then tenantId
    else if name = permissionsHeaderName then "jobs.email.enqueue, jobs.email.read"
    else ""

/-- White space around the tenant does not reach the actor. -/
theorem emailHeaders_actor
    : getCurrentActor .unset (some (emailHeaders " tenant-a "))
      = .ok (emailActor "tenant-a" tenantA_present) := by
  decide +kernel

/-- The second response is a later one of the same job. -/
structure JobResponse.Continues (job later : JobResponse) : Prop where
  id : later.id = job.id
  tenantId : later.tenantId = job.tenantId
  createdByActorId : later.createdByActorId = job.createdByActorId
  type : later.type = job.type
  maxAttempts : later.maxAttempts = job.maxAttempts
  enqueuedAt : later.enqueuedAt = job.enqueuedAt
  statusUrl : later.statusUrl = job.statusUrl
  history : job.history <+: later.history

/-- A record that continues shows as a response that continues. -/
theorem JobRecord.Continues.response {job record : JobRecord} {response : JobResponse}
    (continued : job.Continues record) (shown : JobsApi.toResponse job = .ok response)
    : ∃ later, JobsApi.toResponse record = .ok later ∧ response.Continues later := by
  obtain ⟨enqueuedAt, known, rfl⟩ := JobsApi.toResponse_eq shown
  have same : record.enqueuedAt = .ok enqueuedAt := by
    obtain ⟨added, extended⟩ := continued.history
    cases history : job.history with
    | nil =>
        rw [JobRecord.enqueuedAt, history] at known
        cases known
    | cons first rest =>
        rw [JobRecord.enqueuedAt, history] at known
        rw [JobRecord.enqueuedAt, ← extended, history]
        exact known
  refine ⟨JobsApi.responseAt record enqueuedAt, ?_, ?_⟩
  · rw [JobsApi.toResponse, same]
    rfl
  · have url : JobsApi.statusUrl record.id = JobsApi.statusUrl job.id := by rw [continued.id]
    exact ⟨continued.id, continued.tenantId, continued.createdByActorId, continued.type,
      continued.maxAttempts, rfl, url, continued.history.map JobsApi.stateChangeResponse⟩

/-- A request is answered with an accepted job exactly when the action succeeds with it. -/
theorem WebRequest.accepted_of_handleAs {definitions : IJobDefinitionRegistry}
    {actor : JobActor} {ambient : Ambient} {body : EnqueueJobRequest}
    {factory next : DbContextFactory} {location : String} {response : JobResponse}
    (accepted
      : (WebRequest.postJob body).handleAs definitions actor ambient factory
        = (.ok (.accepted location response), next))
    : ∃ payload retryPolicy delaySeconds job,
        EnqueueJobAction.validate definitions ⟨body.type, body.payload, body.delaySeconds⟩
          = .valid payload retryPolicy delaySeconds
        ∧ EnqueueJobAction.jobFor ambient body.type payload retryPolicy delaySeconds actor
          = .ok job
        ∧ (enqueueJobAction definitions).execute DbContextFactory.store actor .unset ambient
            ⟨body.type, body.payload, body.delaySeconds⟩ factory
          = (.ok (.success job), next)
        ∧ JobsApi.toResponse job = .ok response
        ∧ location = response.statusUrl := by
  have acting : DataAccessScopeProvider.currentActor actor .unset = actor := rfl
  rw [handleAs, StoreMethod.respond] at accepted
  rcases EnqueueJobAction.execute_cases definitions acting ambient
    ⟨body.type, body.payload, body.delaySeconds⟩ factory with
    ⟨outcome, nothing, runs⟩ | ⟨payload, retryPolicy, delaySeconds, job, valid, built, runs⟩
  · rw [runs] at accepted
    cases nothing with
    | threw exception => cases accepted
    | rejected message => cases accepted
  · rw [runs] at accepted
    refine ⟨payload, retryPolicy, delaySeconds, job, valid, built, ?_⟩
    rcases attempt
      : (DbContextFactory.store (actor.tenantContext .mutate)).add ambient job factory
      with ⟨exception | done, after⟩
    · simp only [StoreMethod.map, attempt] at accepted
      cases accepted
    · simp only [StoreMethod.map, attempt] at accepted runs
      obtain ⟨answered, same⟩ := Prod.mk.inj accepted
      change WebResponse.ofEnqueueResult (.success job) = _ at answered
      rw [WebResponse.ofEnqueueResult] at answered
      cases shown : JobsApi.toResponse job with
      | error exception =>
          simp only [JobEnqueueResult.success, shown] at answered
          cases answered
      | ok response =>
          simp only [JobEnqueueResult.success, shown] at answered
          cases answered
          exact ⟨runs.trans (Prod.ext rfl same), rfl, rfl⟩

/-- A job accepted over HTTP from an actor who may read jobs is found for good. Whatever calls
anyone makes afterwards, a request with the same headers is shown a later state of the job under
the location it was given, in the list, and on its details page with the payload its definition
made of the body.
-/
theorem location_answers (definitions : IJobDefinitionRegistry)
    (options : DevelopmentActorOptions) (headers : HttpRequest) {actor : JobActor}
    {factory next later : DbContextFactory} {ambient : Ambient} {body : EnqueueJobRequest}
    {location : String} {response : JobResponse}
    (reached : (DbContextFactory.start .empty).Later factory)
    (given : getCurrentActor options (some headers) = .ok actor)
    (reader : actor.hasPermission JobPermissions.emailRead = true)
    (accepted
      : (WebRequest.postJob body).handle definitions options headers ambient factory
        = (.ok (.accepted location response), next))
    (since : next.Later later)
    : location = JobsApi.statusUrl response.id
      ∧ ∃ jobs job definition,
          response.Continues job
          ∧ definitions body.type = some definition
          ∧ WebRequest.getJobs.Answers definitions options headers later (.okList jobs)
          ∧ job ∈ jobs
          ∧ (WebRequest.getJob response.id).Answers definitions options headers later (.ok job)
          ∧ (WebRequest.detailsPage response.id).Answers definitions options headers later
              (.details ⟨job, (definition.validatePayload body.payload).payload⟩) := by
  have acting : DataAccessScopeProvider.currentActor actor .unset = actor := rfl
  have recorded := DbContextFactory.recorded_of_later Database.empty_recorded reached
  obtain ⟨_, again, -, trimmed⟩ := getCurrentActor_trimmed options (some headers)
  cases given.symm.trans again
  rw [WebRequest.handle_eq given] at accepted
  obtain ⟨payload, retryPolicy, delaySeconds, made, valid, built, runs, shown, rfl⟩ :=
    WebRequest.accepted_of_handleAs accepted
  obtain ⟨definition, registered, -, samePayload, -⟩ := EnqueueJobAction.validate_valid valid
  obtain ⟨-, asked, -⟩ := EnqueueJobAction.jobFor_asks built
  obtain ⟨-, tenant, creator, -⟩ := EnqueueJobAction.accepted_adds definitions acting runs
  have holds := (EnqueueJobAction.accepted_holds definitions recorded acting runs).later since
  obtain ⟨record, stored, continued⟩ := holds.stored
  obtain ⟨job, nowShown, follows⟩ := continued.response shown
  obtain ⟨model, listed, same, list, get⟩ := actor.reads_through holds.recorded reader
  obtain ⟨responses, mapped, ids, members⟩ := @JobsApi.mapM_toResponse listed
    (fun other member => holds.recorded.entered other
      (List.mem_filter.mp (same.mem_iff.mp member)).1)
  have views := @viewsAgree_of_reads definitions options headers later _ _ _ _ given
    holds.recorded same list get mapped ids members
  have seen := (actor.visible_own model (continued.tenantId.trans tenant)
    (continued.createdByActorId.trans creator)).mpr (Or.inl trimmed.2)
  have member : job ∈ responses := (members job).mpr
    ⟨record, same.mem_iff.mpr (List.mem_filter.mpr ⟨KeyedTable.find?_mem stored, seen⟩),
      nowShown⟩
  have found := (views.found job member).1
  rw [follows.id] at found
  refine ⟨?_, responses, job, definition, follows, registered, views.list, member, found, ?_⟩
  · obtain ⟨enqueuedAt, -, rfl⟩ := JobsApi.toResponse_eq shown
    rfl
  · intro later
    have id := JobsApi.toResponse_id shown
    rw [WebRequest.handle_eq given, WebRequest.handleAs, StoreMethod.respond, get, id, stored,
      Option.filter_some, if_pos seen]
    simp only [Except.bind, WebResponse.ofGetResultOnDetails, JobActionResult.authorized,
      JobsApi.toDetails_eq nowShown, continued.payload, asked, samePayload]
    rfl

/-- The answer to the actor's first email, and the state after it. -/
def postedEmail : Except SchedulerException WebResponse × DbContextFactory :=
  (WebRequest.postJob ⟨"email", ⟨"{}"⟩, none⟩).handle (fun _ => some emailDefinition) .unset
    (emailHeaders " tenant-a ") (smallAmbient 0) (.start .empty)

/-- The first email is found under its location. -/
theorem location_answers_email
    : postedEmail.1
        = .ok (.accepted "/api/jobs/00000000-0000-0000-0000-0000000003e8"
            (JobsApi.responseAt (emailJob "tenant-a") (.ofTicks 0)))
      ∧ ∃ jobs job,
          WebRequest.getJobs.Answers (fun _ => some emailDefinition) .unset
            (emailHeaders " tenant-a ") postedEmail.2 (.okList jobs)
          ∧ job ∈ jobs
          ∧ (WebRequest.getJob ⟨1000⟩).Answers (fun _ => some emailDefinition) .unset
              (emailHeaders " tenant-a ") postedEmail.2 (.ok job) := by
  have answered : postedEmail.1
      = .ok (.accepted "/api/jobs/00000000-0000-0000-0000-0000000003e8"
          (JobsApi.responseAt (emailJob "tenant-a") (.ofTicks 0))) := by
    decide +kernel
  obtain ⟨-, jobs, job, -, -, -, listed, member, found, -⟩ :=
    location_answers (fun _ => some emailDefinition) .unset (emailHeaders " tenant-a ") (.refl _)
      emailHeaders_actor (by decide +kernel)
      (show postedEmail = _ from Prod.ext answered rfl) (.refl postedEmail.2)
  exact ⟨answered, jobs, job, listed, member, found⟩

end JobScheduler
