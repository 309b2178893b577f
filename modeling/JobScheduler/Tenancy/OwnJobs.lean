import JobScheduler.DataAccess.FilterLifetime
import JobScheduler.Definitions.SendWelcomeEmail
import JobScheduler.Persistence.RowWrites
import JobScheduler.Tenancy.Isolation

/-! An actor reads back the jobs it enqueued. The enqueue action stores the actor's tenant as
it is given, the scope of a read action has the white space around it removed; an actor whose
tenant this changes finds its jobs as a global reader only.
-/

namespace JobScheduler

open Library

namespace JobRecord

/-- The second record is a later one of the same job: what the request decided is the same,
and the history has grown.
-/
structure Continues (job record : JobRecord) : Prop extends SameTerms job record where
  type : record.type = job.type
  payload : record.payload = job.payload
  history : job.history <+: record.history

theorem Continues.refl (job : JobRecord) : job.Continues job :=
  ⟨.refl job, rfl, rfl, List.prefix_refl _⟩

theorem Continues.trans {first second third : JobRecord} (before : first.Continues second)
    (after : second.Continues third)
    : first.Continues third :=
  ⟨before.toSameTerms.trans after.toSameTerms, after.type.trans before.type,
    after.payload.trans before.payload, before.history.trans after.history⟩

/-- Records that all have a history are listed, each of them once. -/
theorem orderByEnqueuedAt_ok {jobs : List JobRecord}
    (recorded : ∀ job ∈ jobs, job.history ≠ [])
    : ∃ listed, orderByEnqueuedAt jobs = .ok listed ∧ listed.Perm jobs := by
  have keyed
      : ∃ keyed : List (DateTimeOffset × JobRecord),
          jobs.mapM (fun job => do return (← job.enqueuedAt, job)) = .ok keyed
          ∧ keyed.map Prod.snd = jobs := by
    induction jobs with
    | nil => exact ⟨[], rfl, rfl⟩
    | cons job rest ih =>
        obtain ⟨keyed, mapped, same⟩ := ih
          (fun other member => recorded other (List.mem_cons_of_mem _ member))
        have known : ∃ instant, job.enqueuedAt = .ok instant := by
          have present := recorded job List.mem_cons_self
          unfold enqueuedAt
          cases history : job.history with
          | nil => exact absurd history present
          | cons first later => exact ⟨first.changedAt, rfl⟩
        obtain ⟨instant, read⟩ := known
        refine ⟨(instant, job) :: keyed, ?_, by rw [List.map_cons, same]⟩
        rw [List.mapM_cons, mapped, read]
        rfl
  obtain ⟨keyed, mapped, same⟩ := keyed
  refine ⟨(orderBy Prod.fst keyed).map Prod.snd, ?_, ?_⟩
  · rw [orderByEnqueuedAt, mapped]
    rfl
  · exact same ▸ (orderBy_perm Prod.fst keyed).map Prod.snd

end JobRecord

/-- Every record step continues the record of its job. -/
theorem RecordStep.continues {nextDue : DateTimeOffset → Option JobRecord}
    {ambient : Ambient} {call : StoreCall} {job changed : JobRecord}
    (step : RecordStep nextDue ambient call job changed) (inOrder : job.Numbered)
    : job.Continues changed := by
  obtain ⟨entries, extended, -⟩ := (step.extends inOrder).history
  refine ⟨step.sameTerms, step.type_eq, ?_, extended ▸ List.prefix_append _ _⟩
  cases step with
  | @claimed now workerId leaseExpiresAt =>
      obtain ⟨last, -, -, record⟩ := job.claimedUnder_eq ambient now workerId leaseExpiresAt
      rw [record]
  | renewed | completed | failed | retried | acknowledged => rfl

namespace Database

/-- A database the store works on: the tables fit together, and every job was stored with
its first state change.
-/
structure Recorded (db : Database) : Prop extends Sound db where
  entered : ∀ job ∈ db.ledger.rows, job.history ≠ []

theorem empty_recorded : Database.empty.Recorded where
  toSound := SqliteJobStore.empty_sound
  entered _ member := absurd member List.not_mem_nil

/-- The records of a sound database are numbered in order. -/
theorem Sound.numbered_of_mem {db : Database} (sound : db.Sound) {job : JobRecord}
    (member : job ∈ db.ledger.rows)
    : job.Numbered := by
  obtain ⟨row, stored, rfl⟩ := List.mem_map.mp member
  rw [loadRow_of_inOrder (sound.inOrder row stored)]
  exact sound.inOrder row stored

end Database

namespace SqliteJobStore

/-- Every call keeps the database recorded: no job loses an entry. -/
theorem call_recorded {db : Database} (recorded : db.Recorded) (filter : QueryFilter)
    (ambient : Ambient) {call : StoreCall} (admissible : call.Admissible)
    : ((methods filter).call ambient call db).2.Recorded := by
  have step := lawful.follows filter ambient call db recorded.toSound admissible
  refine ⟨lawful.stays filter ambient call db recorded.toSound admissible, ?_⟩
  refine step.forall_rows recorded.entered ?_ ?_
  · intro job _ new absent
    obtain ⟨_, _, _, made, -⟩ := new.cases
    rcases made with ⟨history, -⟩ | ⟨_, history, -⟩
    · cases history.symm.trans absent
    · cases history.symm.trans absent
  · intro job changed one member present absent
    have grown := (one.continues (recorded.numbered_of_mem member)).history
    rw [absent, List.prefix_nil] at grown
    exact present grown

/-- A stored job stays stored: calls continue its record, and the primary key refuses another
job under its id.
-/
theorem call_continues {db : Database} (sound : db.Sound) (filter : QueryFilter)
    (ambient : Ambient) {call : StoreCall} (admissible : call.Admissible) {id : Guid}
    {job : JobRecord} (stored : db.ledger.find? id = some job)
    : ∃ record,
        ((methods filter).call ambient call db).2.ledger.find? id = some record
        ∧ job.Continues record := by
  have step := lawful.follows filter ambient call db sound admissible
  rcases step.find?_next stored with
    kept | ⟨new, rfl, same, found⟩ | ⟨record, one, -, found⟩
  · exact ⟨job, kept, .refl job⟩
  · rcases @add_cases db filter ambient new with
      ⟨exception, refused⟩ | ⟨next, -, inserted⟩
    · rw [refused]
      exact ⟨job, stored, .refl job⟩
    · rw [Database.find?_ledger, ← same, (Database.insertJob_ok inserted).1] at stored
      cases stored
  · exact ⟨record, found, one.continues (sound.numbered_of_mem (KeyedTable.find?_mem stored))⟩

end SqliteJobStore

namespace DbContextFactory

/-- The second state is reached from the first by store calls of anyone, which add jobs as
`Enqueue` and `Schedule` make them.
-/
abbrev Later : DbContextFactory → DbContextFactory → Prop :=
  machine.Reaches (fun _ input => input.call.Admissible)

/-- The job, or what later calls made of it, is stored in a recorded database. -/
structure Holds (factory : DbContextFactory) (job : JobRecord) : Prop where
  recorded : factory.database.Recorded
  stored
    : ∃ record, factory.database.ledger.find? job.id = some record ∧ job.Continues record

/-- No call of anyone takes a job away, by the calls of the SQLite store. -/
theorem Holds.later {factory later : DbContextFactory} {job : JobRecord}
    (holds : factory.Holds job) (reached : factory.Later later)
    : later.Holds job := by
  refine reached.preserves (P := fun state => state.Holds job) ?_ holds
  intro state input holds admissible
  obtain ⟨model, known, -⟩ := modelFor_eq input.context state
  change Holds ((store input.context).call input.ambient input.call state).2 job
  rw [call_eq input.context known]
  obtain ⟨record, found, continued⟩ := holds.stored
  obtain ⟨after, stored, further⟩ := SqliteJobStore.call_continues holds.recorded.toSound
    (model.filterIn input.context) input.ambient admissible found
  exact ⟨SqliteJobStore.call_recorded holds.recorded _ _ admissible, after, stored,
    continued.trans further⟩

/-- Reading one job through a context shows the stored one if the context's filter does. -/
theorem get_eq {context : DataAccessPolicyContext} {factory : DbContextFactory}
    {model : JobSchedulerModel} (known : factory.modelFor context = .ok model) (id : Guid)
    : ((store context).get id factory).1
      = .ok ((factory.database.ledger.find? id).filter
          (SqliteJobStore.visible (model.filterIn context))) := by
  simp only [store, inContext, known, SqliteJobStore.methods, SqliteJobStore.get,
    SqliteJobStore.loadJob_eq]

/-- Listing the jobs through a context sorts those its filter shows. -/
theorem list_eq {context : DataAccessPolicyContext} {factory : DbContextFactory}
    {model : JobSchedulerModel} (known : factory.modelFor context = .ok model)
    : ((store context).list factory).1
      = JobRecord.orderByEnqueuedAt (factory.database.ledger.rows.filter
          (SqliteJobStore.visible (model.filterIn context))) := by
  simp only [store, inContext, known, SqliteJobStore.methods, SqliteJobStore.list,
    SqliteJobStore.loadJobs_eq]

end DbContextFactory

section Reading

variable {provided actor : JobActor} {scopes : DataAccessScopes} {ambient : Ambient}

/-- The context the read actions of an actor run in. -/
def JobActor.readContext (actor : JobActor) : DataAccessPolicyContext :=
  ⟨actor, if actor.hasPermission JobPermissions.globalRead then .allTenants
    else actor.tenantScope, .read⟩

/-- The actor's read actions show the rows stored with the actor's tenant: it is a global
reader, or its tenant has no white space around it.
-/
def JobActor.ReadsOwnTenant (actor : JobActor) : Prop :=
  trim actor.tenantId = actor.tenantId
  ∨ actor.hasPermission JobPermissions.globalRead = true

/-- In the scope of all tenants an authorized action runs under exactly this scope, if the
actor may use it.
-/
theorem JobAuthorizedAction.execute_allTenants {State Request Response : Type}
    {action : JobAuthorizedAction State Request Response} {permission : String}
    (requires : action.Requires permission)
    {storeIn : DataAccessPolicyContext → IJobStore State}
    (acting : DataAccessScopeProvider.currentActor provided scopes = actor)
    (granted : actor.hasPermission permission = true) {request : Request}
    (built : action.buildDataAccessScope request actor = .ok .allTenants)
    (crosses
      : DataAccessScopeProvider.canUseCrossTenantScope actor action.dataAccessOperation = true)
    (reason : isNullOrWhiteSpace (action.name ++ " requested cross-tenant scope.") = false)
    (state : State)
    : action.execute storeIn provided scopes ambient request state
      = action.executeAuthorized (storeIn ⟨actor, .allTenants, action.dataAccessOperation⟩)
          ambient request actor state := by
  subst acting
  have opened : action.openScope provided scopes request
        (DataAccessScopeProvider.currentActor provided scopes)
      = .ok ⟨scopes.currentActor, some .allTenants, some action.dataAccessOperation,
          scopes.crossTenantScopeDepth + 1⟩ := by
    simp only [openScope, built, bind, Except.bind,
      DataAccessScopeProvider.beginCrossTenantScope, reason, crosses,
      DataAccessScopeProvider.beginScope]
    rfl
  unfold execute
  simp only [requires request, JobAuthorizationRuleEvaluator.evaluate_permission, granted,
    opened]
  rfl

/-- The actions that read jobs run in the context for reading. -/
theorem JobAuthorizedAction.execute_read {State Request Response : Type}
    {action : JobAuthorizedAction State Request Response}
    (requires : action.Requires JobPermissions.emailRead)
    {storeIn : DataAccessPolicyContext → IJobStore State}
    (acting : DataAccessScopeProvider.currentActor provided scopes = actor)
    (reader : actor.hasPermission JobPermissions.emailRead = true) {request : Request}
    (built : action.buildDataAccessScope request actor = globalReadScope actor)
    (reads : action.dataAccessOperation = .read)
    (reason : isNullOrWhiteSpace (action.name ++ " requested cross-tenant scope.") = false)
    (state : State)
    : action.execute storeIn provided scopes ambient request state
      = action.executeAuthorized (storeIn actor.readContext) ambient request actor state := by
  cases permitted : actor.hasPermission JobPermissions.globalRead with
  | false =>
      have scope := built.trans (globalReadScope_eq permitted)
      have context : actor.readContext = ⟨actor, actor.tenantScope, .read⟩ := by
        simp [JobActor.readContext, permitted]
      rw [context, ← reads]
      exact execute_oneTenant requires acting reader scope rfl ambient state
  | true =>
      have scope : action.buildDataAccessScope request actor = .ok .allTenants := by
        rw [built, globalReadScope, if_pos permitted]
      have context : actor.readContext = ⟨actor, .allTenants, .read⟩ := by
        simp [JobActor.readContext, permitted]
      have crosses : DataAccessScopeProvider.canUseCrossTenantScope actor
          action.dataAccessOperation = true := by
        rw [reads]
        simp [DataAccessScopeProvider.canUseCrossTenantScope, permitted]
      rw [context, ← reads]
      exact execute_allTenants requires acting reader scope crosses reason state

/-- The context for reading shows a job stored for the actor exactly if it shows rows of the
actor's tenant; the grant to the owner then admits the row, whatever the model was built for.
-/
theorem JobActor.visible_own (model : JobSchedulerModel) {record : JobRecord}
    (tenant : record.tenantId = actor.tenantId)
    (creator : record.createdByActorId = actor.id)
    : SqliteJobStore.visible (model.filterIn actor.readContext) record = true
      ↔ actor.ReadsOwnTenant := by
  rw [SqliteJobStore.visible, JobSchedulerModel.filterIn_admits]
  have owner : decide ((JobRow.ofRecord record).createdByActorId
      = actor.readContext.currentActorId) = true := decide_eq_true creator
  rw [owner, Bool.true_or, Bool.true_or, Bool.and_true]
  have row : (JobRow.ofRecord record).tenantId = actor.tenantId := tenant
  cases permitted : actor.hasPermission JobPermissions.globalRead with
  | false =>
      simp [DataAccessPolicyContext.includesAllTenants,
        DataAccessPolicyContext.currentTenantId, readContext, permitted, tenantScope, row,
        ReadsOwnTenant, eq_comm]
  | true =>
      simp [DataAccessPolicyContext.includesAllTenants, readContext, permitted,
        DataAccessScope.allTenants, ReadsOwnTenant]

/-- Whatever flow of control the actor reads in, it gets the job by its id, as later calls
left it, and finds the same record in its list.
-/
def JobActor.ReadsBack (actor : JobActor) (job : JobRecord) (later : DbContextFactory)
    : Prop :=
  ∀ provided scopes ambient,
    DataAccessScopeProvider.currentActor provided scopes = actor
    → ∃ record listed,
        job.Continues record
        ∧ (getJobByIdAction.execute DbContextFactory.store provided scopes ambient job.id
            later).1 = .ok (.authorized (some record))
        ∧ (listJobsAction.execute DbContextFactory.store provided scopes ambient ()
            later).1 = .ok (.authorized listed)
        ∧ record ∈ listed

/-- The actor is answered as if there were no such job. -/
def JobActor.Misses (actor : JobActor) (job : JobRecord) (later : DbContextFactory) : Prop :=
  ∀ provided scopes ambient,
    DataAccessScopeProvider.currentActor provided scopes = actor
    → (getJobByIdAction.execute DbContextFactory.store provided scopes ambient job.id
          later).1 = .ok (.authorized none)
      ∧ ∃ listed,
          (listJobsAction.execute DbContextFactory.store provided scopes ambient ()
            later).1 = .ok (.authorized listed)
          ∧ ∀ record ∈ listed, record.id ≠ job.id

/-- What a reader's two actions answer: the stored record of the id through the filter of
the context, and the records that filter shows.
-/
theorem JobActor.read_eq {later : DbContextFactory} (recorded : later.database.Recorded)
    (acting : DataAccessScopeProvider.currentActor provided scopes = actor)
    (reader : actor.hasPermission JobPermissions.emailRead = true) (id : Guid)
    : ∃ (model : JobSchedulerModel) (listed : List JobRecord),
        (getJobByIdAction.execute DbContextFactory.store provided scopes ambient id later).1
          = .ok (.authorized ((later.database.ledger.find? id).filter
              (SqliteJobStore.visible (model.filterIn actor.readContext))))
        ∧ (listJobsAction.execute DbContextFactory.store provided scopes ambient () later).1
          = .ok (.authorized listed)
        ∧ ∀ record,
            record ∈ listed
            ↔ record ∈ later.database.ledger.rows
              ∧ SqliteJobStore.visible (model.filterIn actor.readContext) record = true := by
  obtain ⟨model, known, -⟩ := DbContextFactory.modelFor_eq actor.readContext later
  obtain ⟨listed, sorted, same⟩ := @JobRecord.orderByEnqueuedAt_ok
    (later.database.ledger.rows.filter
      (SqliteJobStore.visible (model.filterIn actor.readContext)))
    (fun job member => recorded.entered job (List.mem_filter.mp member).1)
  refine ⟨model, listed, ?_, ?_, ?_⟩
  · rw [JobAuthorizedAction.execute_read (fun _ => rfl) acting reader rfl rfl
      (by decide +kernel)]
    change Except.map JobActionResult.authorized
      ((DbContextFactory.store actor.readContext).get id later).1 = _
    rw [DbContextFactory.get_eq known]
    rfl
  · rw [JobAuthorizedAction.execute_read (fun _ => rfl) acting reader rfl rfl
      (by decide +kernel)]
    change Except.map JobActionResult.authorized
      ((DbContextFactory.store actor.readContext).list later).1 = _
    rw [DbContextFactory.list_eq known, sorted]
    rfl
  · intro record
    rw [same.mem_iff, List.mem_filter]

/-- In a state that holds a job of the actor, its read actions either both show the job or
both answer as if there were none, and it is the tenant that decides.
-/
theorem DbContextFactory.Holds.reads {later : DbContextFactory} {job : JobRecord}
    (holds : later.Holds job) (tenant : job.tenantId = actor.tenantId)
    (creator : job.createdByActorId = actor.id)
    (reader : actor.hasPermission JobPermissions.emailRead = true)
    : (actor.ReadsOwnTenant → actor.ReadsBack job later)
      ∧ (¬ actor.ReadsOwnTenant → actor.Misses job later) := by
  obtain ⟨record, stored, continued⟩ := holds.stored
  have shown (model : JobSchedulerModel) :=
    actor.visible_own model (continued.tenantId.trans tenant)
      (continued.createdByActorId.trans creator)
  refine ⟨?_, ?_⟩
  · intro own provided scopes ambient acting
    obtain ⟨model, listed, got, list, member⟩ := @JobActor.read_eq provided actor scopes
      ambient later holds.recorded acting reader job.id
    refine ⟨record, listed, continued, ?_, list, ?_⟩
    · rw [got, stored, Option.filter_some, if_pos ((shown model).mpr own)]
    · exact (member record).mpr ⟨KeyedTable.find?_mem stored, (shown model).mpr own⟩
  · intro other provided scopes ambient acting
    obtain ⟨model, listed, got, list, member⟩ := @JobActor.read_eq provided actor scopes
      ambient later holds.recorded acting reader job.id
    have hidden := mt (shown model).mp other
    refine ⟨?_, listed, list, ?_⟩
    · rw [got, stored, Option.filter_some, if_neg hidden]
    · intro another there same
      obtain ⟨inside, seen⟩ := (member another).mp there
      have found := KeyedTable.find?_of_mem inside
      rw [same, stored] at found
      cases found
      exact hidden seen

end Reading

section Enqueueing

variable {provided actor : JobActor} {scopes : DataAccessScopes} {ambient : Ambient}
  {request : EnqueueJobActionRequest} {job : JobRecord} {factory next : DbContextFactory}

/-- The record of an accepted request is made by `Enqueue` or `Schedule`. -/
theorem EnqueueJobAction.jobFor_newlyMade {type : String} {payload : JsonElement}
    {retryPolicy : JobRetryPolicy} {delaySeconds : Int}
    (built : jobFor ambient type payload retryPolicy delaySeconds actor = .ok job)
    : job.NewlyMade := by
  rcases jobFor_cases built with ⟨_, -, -, made⟩ | made
  · exact .scheduled made
  · exact .enqueued made

/-- An accepted request has added its record under the actor's tenant and id. -/
theorem EnqueueJobAction.accepted_adds (definitions : IJobDefinitionRegistry)
    (acting : DataAccessScopeProvider.currentActor provided scopes = actor)
    (accepted
      : (enqueueJobAction definitions).execute DbContextFactory.store provided scopes ambient
          request factory = (.ok (.success job), next))
    : job.NewlyMade
      ∧ job.tenantId = actor.tenantId
      ∧ job.createdByActorId = actor.id
      ∧ (DbContextFactory.store (actor.tenantContext .mutate)).call ambient (.add job) factory
        = (.done, next) := by
  cases granted : actor.hasPermission JobPermissions.emailEnqueue with
  | false =>
      rw [JobAuthorizedAction.execute_denied (fun _ => rfl) acting granted] at accepted
      cases accepted
  | true =>
      rw [JobAuthorizedAction.execute_oneTenant (fun _ => rfl) acting granted actor.tenant_eq
        rfl] at accepted
      simp only [enqueueJobAction] at accepted
      split at accepted
      next => cases accepted
      next payload retryPolicy delaySeconds _ =>
        split at accepted
        next => cases accepted
        next made built =>
          obtain ⟨-, tenant, creator, -⟩ := jobFor_eq built
          generalize outcome
            : (DbContextFactory.store (actor.tenantContext .mutate)).add ambient made factory
              = result
          obtain ⟨answer, after⟩ := result
          change StoreMethod.map _
            ((DbContextFactory.store (actor.tenantContext .mutate)).add ambient made) factory
            = _ at accepted
          rw [StoreMethod.map, outcome] at accepted
          cases answer with
          | error exception => cases accepted
          | ok =>
              cases accepted
              exact ⟨jobFor_newlyMade built, tenant, creator,
                by rw [IJobStore.call, outcome]; rfl⟩

/-- An accepted job is held from then on. -/
theorem EnqueueJobAction.accepted_holds (definitions : IJobDefinitionRegistry)
    (recorded : factory.database.Recorded)
    (acting : DataAccessScopeProvider.currentActor provided scopes = actor)
    (accepted
      : (enqueueJobAction definitions).execute DbContextFactory.store provided scopes ambient
          request factory = (.ok (.success job), next))
    : next.Holds job := by
  obtain ⟨new, -, -, added⟩ := accepted_adds definitions acting accepted
  obtain ⟨model, known, -⟩ := DbContextFactory.modelFor_eq (actor.tenantContext .mutate) factory
  have admissible : (StoreCall.add job).Admissible := by
    rintro other same
    cases same
    exact new
  have kept := SqliteJobStore.call_recorded recorded
    (model.filterIn (actor.tenantContext .mutate)) ambient admissible
  rw [DbContextFactory.call_eq _ known] at added
  rcases @SqliteJobStore.call_add (model.filterIn (actor.tenantContext .mutate)) factory.database
      recorded.toSound _ new ambient with ⟨after, stored, written⟩ | ⟨refused, -⟩
  · rw [stored] at added kept
    cases added
    refine ⟨kept, job, ?_, .refl job⟩
    change after.ledger.find? job.id = some job
    rw [written.1]
    exact KeyedTable.find?_set_self _ _
  · rw [refused] at added
    cases added

/-- An actor that may read and whose request is accepted with a job reads this job back in
every later state exactly if its tenant has no white space around it or it is a global
reader, which `jobs.*` makes it too. Otherwise the job is missing from its answers in every
later state.
-/
theorem own_jobs_read_back (definitions : IJobDefinitionRegistry)
    (recorded : factory.database.Recorded)
    (acting : DataAccessScopeProvider.currentActor provided scopes = actor)
    (reader : actor.hasPermission JobPermissions.emailRead = true)
    (accepted
      : (enqueueJobAction definitions).execute DbContextFactory.store provided scopes ambient
          request factory = (.ok (.success job), next))
    : ((∀ later, next.Later later → actor.ReadsBack job later)
        ↔ trim actor.tenantId = actor.tenantId
          ∨ actor.hasPermission JobPermissions.globalRead = true)
      ∧ (¬ (trim actor.tenantId = actor.tenantId
            ∨ actor.hasPermission JobPermissions.globalRead = true)
          → ∀ later, next.Later later → actor.Misses job later) := by
  obtain ⟨-, tenant, creator, -⟩ :=
    EnqueueJobAction.accepted_adds definitions acting accepted
  have holds := EnqueueJobAction.accepted_holds definitions recorded acting accepted
  have reads (later : DbContextFactory) (reached : next.Later later) :=
    (holds.later reached).reads tenant creator reader
  refine ⟨⟨?_, ?_⟩, ?_⟩
  · intro always
    by_contra other
    obtain ⟨record, -, -, got, -⟩ := always next (.refl next) provided scopes ambient acting
    have missing := ((reads next (.refl next)).2 other provided scopes ambient acting).1
    rw [missing] at got
    cases got
  · exact fun own later reached => (reads later reached).1 own
  · exact fun other later reached => (reads later reached).2 other

end Enqueueing

/-- The actor of a tenant, as the constructor gets it, who may enqueue and read emails. -/
def emailActor (tenantId : String) (present : isNullOrWhiteSpace tenantId = false) : JobActor :=
  ⟨"erin", tenantId, [JobPermissions.emailEnqueue, JobPermissions.emailRead], by decide,
    present⟩

/-- A request of the program's job type. -/
def welcomeRequest : EnqueueJobActionRequest where
  type := JobTypes.sendWelcomeEmail
  payload :=
    ⟨"\x7b\"userId\":\"user_123\",\"email\":\"person@example.com\",\"shouldFail\":false\x7d"⟩
  delaySeconds := none

/-- The answer to the actor's first request, and the state after it. -/
def firstWelcome (actor : JobActor)
    : Except SchedulerException JobEnqueueResult × DbContextFactory :=
  (enqueueJobAction welcomeDefinitions).execute DbContextFactory.store actor .unset
    (smallAmbient 0) welcomeRequest ⟨none, .empty⟩

/-- The record of that request. -/
def welcomeJob (tenantId : String) : JobRecord :=
  .construct ⟨1000⟩ tenantId "erin" JobTypes.sendWelcomeEmail welcomeRequest.payload .queued
    ⟨1001⟩ (some (.ofTicks 0)) none none none none none 3 none
    [.queued ⟨1001⟩ (.ofTicks 0) "Job accepted."]

/-- The actor of a tenant without white space around it reads its job back for good. -/
theorem own_jobs_read_back_email
    : (firstWelcome (emailActor "tenant-a" (by decide))).1
        = .ok (.success (welcomeJob "tenant-a"))
      ∧ ∀ later,
          (firstWelcome (emailActor "tenant-a" (by decide))).2.Later later
          → (emailActor "tenant-a" (by decide)).ReadsBack (welcomeJob "tenant-a") later := by
  have answer : (firstWelcome (emailActor "tenant-a" (by decide))).1
      = .ok (.success (welcomeJob "tenant-a")) := by decide +kernel
  have accepted : firstWelcome (emailActor "tenant-a" (by decide))
      = (.ok (.success (welcomeJob "tenant-a")),
          (firstWelcome (emailActor "tenant-a" (by decide))).2) :=
    Prod.ext answer rfl
  exact ⟨answer, (@own_jobs_read_back (emailActor "tenant-a" (by decide)) _ .unset
    (smallAmbient 0) _ _ _ _ welcomeDefinitions Database.empty_recorded rfl
    (by decide +kernel) accepted).1.mpr (Or.inl (by decide +kernel))⟩

/-- With a space on each side of its tenant the actor is told that its job was accepted, and
does not find it right after.
-/
theorem own_job_missing_spaced
    : JobActor.create "erin" " tenant-a " [JobPermissions.emailEnqueue, JobPermissions.emailRead]
        = .ok (emailActor " tenant-a " (by decide))
      ∧ (firstWelcome (emailActor " tenant-a " (by decide))).1
        = .ok (.success (welcomeJob " tenant-a "))
      ∧ (getJobByIdAction.execute DbContextFactory.store (emailActor " tenant-a " (by decide))
          .unset (smallAmbient 1) (welcomeJob " tenant-a ").id
          (firstWelcome (emailActor " tenant-a " (by decide))).2).1
        = .ok (.authorized none)
      ∧ (listJobsAction.execute DbContextFactory.store (emailActor " tenant-a " (by decide))
          .unset (smallAmbient 1) ()
          (firstWelcome (emailActor " tenant-a " (by decide))).2).1
        = .ok (.authorized [])
      ∧ ¬ ∀ later,
          (firstWelcome (emailActor " tenant-a " (by decide))).2.Later later
          → (emailActor " tenant-a " (by decide)).ReadsBack (welcomeJob " tenant-a ") later := by
  have missing
      : (getJobByIdAction.execute DbContextFactory.store (emailActor " tenant-a " (by decide))
          .unset (smallAmbient 1) (welcomeJob " tenant-a ").id
          (firstWelcome (emailActor " tenant-a " (by decide))).2).1
        = .ok (.authorized none) := by decide +kernel
  refine ⟨by decide +kernel, by decide +kernel, missing, by decide +kernel, ?_⟩
  intro always
  obtain ⟨record, -, -, got, -⟩ := always _ (.refl _) (emailActor " tenant-a " (by decide))
    .unset (smallAmbient 1) rfl
  cases missing.symm.trans got

end JobScheduler
