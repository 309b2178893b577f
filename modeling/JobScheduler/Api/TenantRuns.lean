import JobScheduler.Api.ReadBack
import JobScheduler.Library.Noninterference
import JobScheduler.Workers.PoolSteps

/-! Runs of HTTP requests as the clients of one tenant see them. What they are answered does
not depend on the requests of other tenants, once the model has been built: the first context
decides the operation of its filter for everyone.
-/

namespace JobScheduler

open Library DevelopmentHeaderJobActorProvider

-----------------------------------------------------------------------------------------
-- Identifiers in use
-----------------------------------------------------------------------------------------

namespace Database

/-- A bulk update changes no identifier. -/
theorem unused_executeUpdate {db : Database} {filter : QueryFilter}
    {condition : JobRow → Bool} {setProperties : JobRow → JobRow}
    {keepsKey : ∀ row, (setProperties row).id = row.id} {guid : Guid}
    : (db.executeUpdate filter condition setProperties keepsKey).2.Unused guid
      ↔ db.Unused guid := by
  have sameId (row : JobRow)
      : (if filter.admits row && condition row then setProperties row else row).id = row.id := by
    by_cases selected : (filter.admits row && condition row) = true <;>
      simp [selected, keepsKey]
  constructor
  · rintro ⟨jobs, history⟩
    refine ⟨?_, history⟩
    intro row member
    have changed := jobs _ (List.mem_map_of_mem member)
    rwa [sameId] at changed
  · rintro ⟨jobs, history⟩
    refine ⟨?_, history⟩
    intro row member
    obtain ⟨before, stored, rfl⟩ := List.mem_map.mp member
    rw [sameId]
    exact jobs before stored

/-- An inserted job takes its id and those of its history. -/
theorem unused_insertJob {db : Database} {job : JobRecord} {change : JobStateChange}
    (unused : db.Unused job.id) (history : job.history = [change])
    (unusedChange : db.Unused change.id)
    : ∃ next,
        db.insertJob job = .ok next
        ∧ ∀ guid, next.Unused guid ↔ db.Unused guid ∧ guid ≠ job.id ∧ guid ≠ change.id := by
  obtain ⟨next, inserted, jobs, changes⟩ := @insertJob_rows db job unused (by simp [history])
    (by
      intro other member
      rw [history, List.mem_singleton] at member
      exact member ▸ unusedChange)
  refine ⟨next, inserted, fun guid => ⟨?_, ?_⟩⟩
  · rintro ⟨noJob, noChange⟩
    rw [jobs] at noJob
    rw [changes, history] at noChange
    refine ⟨⟨?_, ?_⟩, ?_, ?_⟩
    · exact fun row member => noJob row (List.mem_append_left _ member)
    · exact fun entry member => noChange entry (List.mem_append_left _ member)
    · exact fun same => noJob (.ofRecord job) (by simp) same.symm
    · exact fun same => (noChange ⟨job.id, change⟩ (by simp)).1 same.symm
  · rintro ⟨⟨noJob, noChange⟩, notJob, notChange⟩
    refine ⟨?_, ?_⟩
    · intro row member
      rw [jobs, List.mem_append, List.mem_singleton] at member
      rcases member with older | rfl
      · exact noJob row older
      · exact notJob.symm
    · intro entry member
      rw [changes, history, List.mem_append, List.map_singleton, List.mem_singleton] at member
      rcases member with older | rfl
      · exact noChange entry older
      · exact ⟨notChange.symm, notJob.symm⟩

end Database

/-- The answer tells that a job was added. -/
def JobActionResponse.addsJob : Except SchedulerException JobActionResponse → Bool
  | .ok (.enqueueJob result) => result.accepted
  | _ => false

section Requests

variable {definitions : IJobDefinitionRegistry} {actor : JobActor} {ambient : Ambient}
  {factory : DbContextFactory}

/-- An action whose call takes no identifier leaves them as they were. -/
theorem JobAuthorizedAction.execute_unused {Request Response : Type}
    (action : JobAuthorizedAction DbContextFactory Request Response) (request : Request)
    (guid : Guid)
    (effect
      : ∀ context,
          ∃ call,
            (action.executeAuthorized (DbContextFactory.store context) ambient request
                (DataAccessScopeProvider.currentActor actor .unset) factory).2
              = ((DbContextFactory.store context).call ambient call factory).2
            ∧ ∀ filter,
                ((SqliteJobStore.methods filter).call ambient call
                    factory.database).2.Unused guid
                ↔ factory.database.Unused guid)
    : (action.execute DbContextFactory.store actor .unset ambient request
          factory).2.database.Unused guid
      ↔ factory.database.Unused guid := by
  rcases action.execute_cases DbContextFactory.store actor .unset ambient request factory with
    same | ⟨context, runs⟩
  · rw [same]
  · obtain ⟨call, made, kept⟩ := effect context
    obtain ⟨filter, database⟩ := DbContextFactory.call_database context ambient call factory
    have left := kept filter
    rw [database] at left
    rwa [runs, made]

/-- An enqueue request takes the identifiers it drew if it is accepted, and none otherwise. -/
theorem enqueueJobAction_unused (request : EnqueueJobActionRequest)
    (unused : ambient.Unused factory.database) (guid : Guid)
    : ((enqueueJobAction definitions).execute DbContextFactory.store actor .unset ambient
          request factory).2.database.Unused guid
      ↔ factory.database.Unused guid
        ∧ (JobActionResponse.addsJob
              (Except.map .enqueueJob
                ((enqueueJobAction definitions).execute DbContextFactory.store actor .unset
                  ambient request factory).1) = true
          → guid ≠ ambient.newGuid ∧ guid ≠ ambient.newGuidAgain) := by
  have acting : DataAccessScopeProvider.currentActor actor .unset = actor := rfl
  rcases EnqueueJobAction.execute_cases definitions acting ambient request factory with
    ⟨outcome, nothing, runs⟩ | ⟨payload, retryPolicy, delaySeconds, job, -, built, runs⟩
  · have none : JobActionResponse.addsJob (Except.map .enqueueJob outcome) = false := by
      cases nothing <;> rfl
    simp [runs, none]
  · obtain ⟨sameId, -, -, change, history, drawn⟩ := EnqueueJobAction.jobFor_eq built
    obtain ⟨next, inserted, taken⟩ := @Database.unused_insertJob factory.database job change
      (sameId ▸ unused.1) history (drawn ▸ unused.2)
    obtain ⟨model, known, -⟩ :=
      DbContextFactory.modelFor_eq (actor.tenantContext .mutate) factory
    have added : (DbContextFactory.store (actor.tenantContext .mutate)).add ambient job factory
        = (.ok (), ⟨some model, next⟩) := by
      simp only [DbContextFactory.store, DbContextFactory.inContext, known,
        SqliteJobStore.methods, SqliteJobStore.add, inserted]
      rfl
    rw [runs, StoreMethod.map, added]
    change next.Unused guid ↔ _ ∧ (true = true → _)
    rw [taken guid, sameId, drawn]
    simp

/-- After a client request an identifier is unused if it was, and was not drawn for a job that
the request added.
-/
theorem dispatch_unused {request : JobActionRequest} (client : request.fromClient = true)
    (unused : ambient.Unused factory.database) (guid : Guid)
    : (dispatch definitions actor .unset ambient request factory).2.database.Unused guid
      ↔ factory.database.Unused guid
        ∧ (JobActionResponse.addsJob
              (dispatch definitions actor .unset ambient request factory).1 = true
          → guid ≠ ambient.newGuid ∧ guid ≠ ambient.newGuidAgain) := by
  cases request with
  | listJobs =>
      have kept := @JobAuthorizedAction.execute_unused actor ambient factory _ _ listJobsAction
        () guid (fun _ => ⟨.list, listJobsAction_effect _ _ _ _, fun _ => Iff.rfl⟩)
      have none (answer : Except SchedulerException ListJobsActionResult)
          : JobActionResponse.addsJob (Except.map .listJobs answer) = false := by
        cases answer <;> rfl
      exact kept.trans (and_iff_left (by simp [dispatch, StoreMethod.map, none])).symm
  | getJobById id =>
      have kept := @JobAuthorizedAction.execute_unused actor ambient factory _ _
        getJobByIdAction id guid
        (fun _ => ⟨.get id, getJobByIdAction_effect _ _ _ _ _, fun _ => Iff.rfl⟩)
      have none (answer : Except SchedulerException GetJobByIdActionResult)
          : JobActionResponse.addsJob (Except.map .getJobById answer) = false := by
        cases answer <;> rfl
      exact kept.trans (and_iff_left (by simp [dispatch, StoreMethod.map, none])).symm
  | acknowledgeJob id =>
      have keeps (filter : QueryFilter)
          : ((SqliteJobStore.methods filter).call ambient
                (.acknowledge id actor.id ambient.utcNow) factory.database).2.Unused guid
            ↔ factory.database.Unused guid := by
        simp only [IJobStore.call, SqliteJobStore.methods, SqliteJobStore.acknowledge]
        split
        · exact Iff.rfl
        · exact Database.unused_executeUpdate
      have kept := @JobAuthorizedAction.execute_unused actor ambient factory _ _
        acknowledgeJobAction id guid
        (fun _ => ⟨_, acknowledgeJobAction_effect _ _ _ _ _, keeps⟩)
      have none (answer : Except SchedulerException AcknowledgeJobActionResult)
          : JobActionResponse.addsJob (Except.map .acknowledgeJob answer) = false := by
        cases answer <;> rfl
      exact kept.trans (and_iff_left (by simp [dispatch, StoreMethod.map, none])).symm
  | enqueueJob request => exact enqueueJobAction_unused request unused guid
  | claimNextDueJob request => cases client
  | renewJobLease request => cases client
  | completeJobExecution request => cases client

/-- Client requests keep the model. -/
theorem dispatch_model {request : JobActionRequest} (client : request.fromClient = true)
    {model : JobSchedulerModel} (built : factory.model = some model)
    : (dispatch definitions actor .unset ambient request factory).2.model = some model := by
  rcases @dispatch_client definitions actor .unset ambient _ client factory with
    same | ⟨context, call, -, -, made⟩
  · rw [same]
    exact built
  · rw [made]
    exact DbContextFactory.call_model built

end Requests

-----------------------------------------------------------------------------------------
-- Requests as steps
-----------------------------------------------------------------------------------------

namespace WebRequest

/-- What a request makes of the answer to the action it dispatches. -/
def respondTo : WebRequest → JobActionResponse → Except SchedulerException WebResponse
  | .postJob _, .enqueueJob result => WebResponse.ofEnqueueResult result
  | .getJobs, .listJobs result => WebResponse.ofListResult result
  | .getJob _, .getJobById result => WebResponse.ofGetResult result
  | .indexPage, .listJobs result => WebResponse.ofListResultOnIndex result
  | .indexAcknowledge id, .acknowledgeJob result =>
      .ok (WebResponse.ofAcknowledgeResult id result)
  | .detailsPage _, .getJobById result => WebResponse.ofGetResultOnDetails result
  | _, _ => .ok .notFound

/-- A request that dispatches an action answers what it makes of the action's answer. -/
theorem handleAs_eq (definitions : IJobDefinitionRegistry) (actor : JobActor)
    (ambient : Ambient) {request : WebRequest} {action : JobActionRequest}
    (dispatches : request.toActionRequest = some action) (factory : DbContextFactory)
    : request.handleAs definitions actor ambient factory
      = ((dispatch definitions actor .unset ambient action factory).1.bind request.respondTo,
          (dispatch definitions actor .unset ambient action factory).2) := by
  cases request with
  | postJob body =>
      cases dispatches
      simp only [handleAs, StoreMethod.respond, dispatch, StoreMethod.map, Prod.map, id_eq]
      cases ((enqueueJobAction definitions).execute DbContextFactory.store actor .unset ambient
        ⟨body.type, body.payload, body.delaySeconds⟩ factory).1 <;> rfl
  | getJobs | indexPage =>
      cases dispatches
      simp only [handleAs, StoreMethod.respond, dispatch, StoreMethod.map, Prod.map, id_eq]
      cases (listJobsAction.execute DbContextFactory.store actor .unset ambient () factory).1 <;>
        rfl
  | getJob id | detailsPage id =>
      cases dispatches
      simp only [handleAs, StoreMethod.respond, dispatch, StoreMethod.map, Prod.map, id_eq]
      cases (getJobByIdAction.execute DbContextFactory.store actor .unset ambient id
        factory).1 <;> rfl
  | indexAcknowledge id =>
      by_cases missing : id = Guid.empty
      · rw [toActionRequest, if_pos missing] at dispatches
        cases dispatches
      · rw [toActionRequest, if_neg missing] at dispatches
        cases dispatches
        simp only [handleAs, if_neg missing, StoreMethod.respond, dispatch, StoreMethod.map,
          Prod.map, id_eq]
        cases (acknowledgeJobAction.execute DbContextFactory.store actor .unset ambient id
          factory).1 <;> rfl

/-- A request that dispatches no action leaves the state and answers by itself. -/
theorem handleAs_none (definitions : IJobDefinitionRegistry) (actor : JobActor)
    (ambient : Ambient) {request : WebRequest} (dispatches : request.toActionRequest = none)
    : ∃ answer, ∀ factory,
        request.handleAs definitions actor ambient factory = (answer, factory) := by
  cases request with
  | indexAcknowledge id =>
      by_cases missing : id = Guid.empty
      · exact ⟨_, fun factory => by rw [handleAs, if_pos missing]⟩
      · rw [toActionRequest, if_neg missing] at dispatches
        cases dispatches
  | postJob | getJobs | getJob | indexPage | detailsPage => cases dispatches

end WebRequest

/-- A request as it comes in, with what its handling reads from its surroundings. -/
structure WebInput where
  headers : HttpRequest
  ambient : Ambient
  request : WebRequest

/-- The front end, handling requests one after the other. -/
def webMachine (definitions : IJobDefinitionRegistry) (options : DevelopmentActorOptions)
    : Machine DbContextFactory WebInput (Except SchedulerException WebResponse) where
  step factory input := input.request.handle definitions options input.headers input.ambient factory

/-- The request comes from the tenant: the actor of its headers is of it. -/
def WebInput.isFrom (options : DevelopmentActorOptions) (tenantId : String) (input : WebInput)
    : Bool :=
  match getCurrentActor options (some input.headers) with
  | .ok actor => actor.tenantId = tenantId
  | .error _ => false

/-- The actor of the request is no global reader, and the identifiers drawn are unused. -/
structure WebInput.Confined (options : DevelopmentActorOptions) (factory : DbContextFactory)
    (input : WebInput) : Prop where
  notGlobal
    : ∀ actor,
        getCurrentActor options (some input.headers) = .ok actor
        → actor.hasPermission JobPermissions.globalRead = false
  unused : input.ambient.Unused factory.database

/-- The request is not one of a global reader. -/
def WebInput.isLocal (options : DevelopmentActorOptions) (input : WebInput) : Bool :=
  match getCurrentActor options (some input.headers) with
  | .ok actor => !actor.hasPermission JobPermissions.globalRead
  | .error _ => true

instance (db : Database) (guid : Guid) : Decidable (db.Unused guid) :=
  decidable_of_iff
    ((∀ row ∈ db.jobs.rows, row.id ≠ guid)
      ∧ ∀ entry ∈ db.jobStateChanges.rows, entry.id ≠ guid ∧ entry.jobId ≠ guid)
    ⟨fun both => ⟨both.1, both.2⟩, fun unused => ⟨unused.jobs, unused.history⟩⟩

instance (ambient : Ambient) (db : Database) : Decidable (ambient.Unused db) :=
  inferInstanceAs (Decidable (_ ∧ _))

instance (options : DevelopmentActorOptions) (factory : DbContextFactory) (input : WebInput)
    : Decidable (input.Confined options factory) :=
  decidable_of_iff (input.isLocal options = true ∧ input.ambient.Unused factory.database) <| by
    constructor
    · rintro ⟨notGlobal, unused⟩
      refine ⟨?_, unused⟩
      intro actor given
      simpa [WebInput.isLocal, given] using notGlobal
    · rintro ⟨notGlobal, unused⟩
      refine ⟨?_, unused⟩
      unfold WebInput.isLocal
      split
      · rename_i actor given
        simp [notGlobal actor given]
      · rfl

/-- To the clients of a tenant the states are alike: the model is the same and has been built,
the tenant's rows are the same, and no identifier is used in the second state alone.
-/
structure AlikeTo (tenantId : String) (factory twin : DbContextFactory) : Prop where
  model : ∃ model, factory.model = some model ∧ twin.model = some model
  view : factory.database.tenantView tenantId = twin.database.tenantView tenantId
  unused : ∀ guid, factory.database.Unused guid → twin.database.Unused guid

/-- Own requests keep the states alike, by the isolation of each of them; requests of others
leave the tenant's rows and only use more identifiers.
-/
theorem webMachine_unwinds (definitions : IJobDefinitionRegistry)
    (options : DevelopmentActorOptions) {tenantId : String} (trimmed : trim tenantId = tenantId)
    : (webMachine definitions options).Unwinds (fun factory input => input.Confined options factory)
        (WebInput.isFrom options tenantId) (AlikeTo tenantId) where
  own := by
    rintro ⟨-, db⟩ ⟨-, twin⟩ ⟨headers, ambient, request⟩ ⟨⟨model, rfl, rfl⟩, view, unused⟩
      ⟨notGlobal, fresh⟩ mine
    obtain ⟨actor, given, -, tenant⟩ := getCurrentActor_trimmed options (some headers)
    have same : actor.tenantId = tenantId := by simpa [WebInput.isFrom, given] using mine
    have twinFresh : ambient.Unused twin := ⟨unused _ fresh.1, unused _ fresh.2⟩
    simp only [webMachine, WebRequest.handle, given]
    cases dispatches : request.toActionRequest with
    | none =>
        obtain ⟨answer, answers⟩ := WebRequest.handleAs_none definitions actor ambient dispatches
        rw [answers, answers]
        exact ⟨rfl, ⟨model, rfl, rfl⟩, view, unused⟩
    | some action =>
        have answers := WebRequest.handleAs_eq definitions actor ambient dispatches
        have client := WebRequest.toActionRequest_client dispatches
        have acting : DataAccessScopeProvider.currentActor actor .unset = actor := rfl
        have isolates := @dispatch_isolates _ _ _ ambient definitions acting
          (notGlobal actor given) _ client
        rw [same, trimmed] at isolates
        obtain ⟨answered, -, views⟩ := isolates.alike (some model) db twin fresh twinFresh view
        rw [answers, answers]
        refine ⟨congrArg (Except.bind · request.respondTo) answered, ⟨model, ?_, ?_⟩, views, ?_⟩
        · exact dispatch_model client rfl
        · exact dispatch_model client rfl
        · intro guid
          rw [dispatch_unused client fresh, dispatch_unused client twinFresh, answered]
          exact And.imp_left (unused guid)
  other := by
    rintro ⟨-, db⟩ ⟨-, twin⟩ ⟨headers, ambient, request⟩ ⟨⟨model, rfl, rfl⟩, view, unused⟩
      ⟨notGlobal, fresh⟩ notMine
    obtain ⟨actor, given, -, tenant⟩ := getCurrentActor_trimmed options (some headers)
    have different : actor.tenantId ≠ tenantId := by
      simpa [WebInput.isFrom, given] using notMine
    simp only [webMachine, WebRequest.handle, given]
    cases dispatches : request.toActionRequest with
    | none =>
        obtain ⟨answer, answers⟩ := WebRequest.handleAs_none definitions actor ambient dispatches
        rw [answers]
        exact ⟨⟨model, rfl, rfl⟩, view, unused⟩
    | some action =>
        have answers := WebRequest.handleAs_eq definitions actor ambient dispatches
        have client := WebRequest.toActionRequest_client dispatches
        have acting : DataAccessScopeProvider.currentActor actor .unset = actor := rfl
        have isolates := @dispatch_isolates _ _ _ ambient definitions acting
          (notGlobal actor given) _ client
        have kept := (isolates.confined (some model) db fresh).unchanged tenantId (by
          rw [trimmed, tenant.2]
          exact different.symm)
        rw [answers]
        refine ⟨⟨model, dispatch_model client rfl, rfl⟩, kept.trans view, ?_⟩
        intro guid free
        exact unused guid ((dispatch_unused client fresh guid).mp free).1

/-- The clients of a tenant do not notice those of others. In every run of requests of clients
that are no global readers, in any order and with any headers, they get the answers they would
get without the requests of other tenants, and leave behind the same rows of the tenant.
-/
theorem tenant_runs_undisturbed (definitions : IJobDefinitionRegistry)
    (options : DevelopmentActorOptions) {tenantId : String} (trimmed : trim tenantId = tenantId)
    {factory : DbContextFactory} (built : factory.model.isSome = true) {inputs : List WebInput}
    (confined
      : (webMachine definitions options).AlongSteps
          (fun factory input => input.Confined options factory) factory inputs)
    : let own := inputs.filter (WebInput.isFrom options tenantId)
      (webMachine definitions options).observed (WebInput.isFrom options tenantId) factory inputs
        = ((webMachine definitions options).run factory own).1
      ∧ ((webMachine definitions options).run factory inputs).2.database.tenantView tenantId
        = ((webMachine definitions options).run factory own).2.database.tenantView tenantId := by
  have unwinds := webMachine_unwinds definitions options trimmed
  obtain ⟨model, known⟩ := Option.isSome_iff_exists.mp built
  have alike : AlikeTo tenantId factory factory := ⟨⟨model, known, known⟩, rfl, fun _ => id⟩
  exact ⟨unwinds.observed_eq alike confined, (unwinds.alike_run alike confined).view⟩

/-- The state after a first request, which has built the model. -/
def modelBuilt : DbContextFactory :=
  ((webMachine (fun _ => some emailDefinition) .unset).step (.start .empty)
    ⟨emailHeaders "tenant-a", smallAmbient 0, .getJobs⟩).2

/-- A client of each of two tenants posts an email, then the first one lists its jobs. -/
def twoTenants : List WebInput :=
  [⟨emailHeaders "tenant-a", smallAmbient 1, .postJob ⟨"email", ⟨"{}"⟩, none⟩⟩,
    ⟨emailHeaders "tenant-b", smallAmbient 2, .postJob ⟨"email", ⟨"{}"⟩, none⟩⟩,
    ⟨emailHeaders "tenant-a", smallAmbient 3, .getJobs⟩]

/-- The first client does not notice the email of the second one. -/
theorem tenant_runs_undisturbed_email
    : ((webMachine (fun _ => some emailDefinition) .unset).run modelBuilt
          twoTenants).2.database.jobs.rows.length = 2
      ∧ (webMachine (fun _ => some emailDefinition) .unset).observed
          (WebInput.isFrom .unset "tenant-a") modelBuilt twoTenants
        = ((webMachine (fun _ => some emailDefinition) .unset).run modelBuilt
            (twoTenants.filter (WebInput.isFrom .unset "tenant-a"))).1 := by
  have confined : (webMachine (fun _ => some emailDefinition) .unset).AlongSteps
      (fun factory input => input.Confined .unset factory) modelBuilt twoTenants := by
    decide +kernel
  have undisturbed := tenant_runs_undisturbed (fun _ => some emailDefinition) .unset
    (show trim "tenant-a" = "tenant-a" by decide +kernel)
    (show modelBuilt.model.isSome = true by decide +kernel) confined
  exact ⟨by decide +kernel, undisturbed.1⟩

end JobScheduler
