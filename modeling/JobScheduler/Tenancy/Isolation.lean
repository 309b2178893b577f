import JobScheduler.Actions.JobActions
import JobScheduler.Ledger.LawfulStore
import JobScheduler.Tenancy.TenantView

/-! Tenants are isolated from each other. A method that works within one tenant answers from
the view of this tenant, changes it in the same way whatever else the database holds, and
keeps the rows of all other tenants.
-/

namespace JobScheduler

open Library

/-- The identifiers a call generates occur nowhere in the database. -/
def Ambient.Unused (ambient : Ambient) (db : Database) : Prop :=
  db.Unused ambient.newGuid ∧ db.Unused ambient.newGuidAgain

/-- The rows of the tenants other than the given one are kept as they were. No row is added
to them either, except under a name that is the given one but for white space around it.
-/
structure Database.KeepsOthers (before after : Database) (tenantId : String) : Prop where
  kept
    : ∀ other, other ≠ tenantId → (before.tenantView other).Keeps (after.tenantView other)
  unchanged
    : ∀ other, trim other ≠ tenantId → after.tenantView other = before.tenantView other

theorem Database.KeepsOthers.of_same {before after : Database} {tenantId : String}
    (trimmed : trim tenantId = tenantId)
    (same : ∀ other, other ≠ tenantId → after.tenantView other = before.tenantView other)
    : before.KeepsOthers after tenantId where
  kept other different := same other different ▸ .refl _
  unchanged other different := same other (fun equal => different (equal ▸ trimmed))

/-- Databases that agree on the tenant get the same answer and agree on it again; the rows
of other tenants are kept.
-/
structure Database.Isolates {Answer : Type} (tenantId : String) (ambient : Ambient)
    (method : StoreMethod Database Answer) : Prop where
  alike
    : ∀ db twin : Database,
        ambient.Unused db
        → ambient.Unused twin
        → db.tenantView tenantId = twin.tenantView tenantId
        → (method db).1 = (method twin).1
          ∧ (method db).2.tenantView tenantId = (method twin).2.tenantView tenantId
  confined
    : ∀ db : Database, ambient.Unused db → db.KeepsOthers (method db).2 tenantId

/-- The same of methods over the factory, whose model does not depend on the rows. -/
structure DbContextFactory.Isolates {Answer : Type} (tenantId : String) (ambient : Ambient)
    (method : StoreMethod DbContextFactory Answer) : Prop where
  alike
    : ∀ (model : Option JobSchedulerModel) (db twin : Database),
        ambient.Unused db
        → ambient.Unused twin
        → db.tenantView tenantId = twin.tenantView tenantId
        → (method ⟨model, db⟩).1 = (method ⟨model, twin⟩).1
          ∧ (method ⟨model, db⟩).2.model = (method ⟨model, twin⟩).2.model
          ∧ (method ⟨model, db⟩).2.database.tenantView tenantId
            = (method ⟨model, twin⟩).2.database.tenantView tenantId
  confined
    : ∀ (model : Option JobSchedulerModel) (db : Database),
        ambient.Unused db → db.KeepsOthers (method ⟨model, db⟩).2.database tenantId

namespace DbContextFactory

variable {Answer Wrapped : Type} {tenantId : String} {ambient : Ambient}

/-- A method that does not touch the database isolates. -/
theorem Isolates.const (trimmed : trim tenantId = tenantId)
    (outcome : Except SchedulerException Answer)
    : Isolates tenantId ambient (fun factory => (outcome, factory)) where
  alike _ _ _ _ _ same := ⟨rfl, rfl, same⟩
  confined _ _ _ := .of_same trimmed (fun _ _ => rfl)

/-- What a method answers may be wrapped. -/
theorem Isolates.map {method : StoreMethod DbContextFactory Answer}
    (isolates : Isolates tenantId ambient method) (wrap : Answer → Wrapped)
    : Isolates tenantId ambient (StoreMethod.map wrap method) where
  alike model db twin unused twinUnused same := by
    obtain ⟨answers, rest⟩ := isolates.alike model db twin unused twinUnused same
    refine ⟨?_, rest⟩
    change Except.map wrap (method ⟨model, db⟩).1 = Except.map wrap (method ⟨model, twin⟩).1
    rw [answers]
  confined model db unused := isolates.confined model db unused

/-- In the context of one tenant every model admits rows of this tenant only, whichever
operation it was built for.
-/
theorem filterIn_within {context : DataAccessPolicyContext} (model : JobSchedulerModel)
    (oneTenant : context.includesAllTenants = false)
    (named : context.currentTenantId = some tenantId)
    : (model.filterIn context).Within tenantId := by
  intro row admitted
  rw [JobSchedulerModel.filterIn_admits, oneTenant, named] at admitted
  simp only [Bool.false_or, Bool.and_eq_true, decide_eq_true_eq] at admitted
  exact Option.some.inj admitted.1

/-- A store method isolates in the context of one tenant if it does so under every filter
within the tenant.
-/
theorem Isolates.inContext {context : DataAccessPolicyContext}
    (oneTenant : context.includesAllTenants = false)
    (named : context.currentTenantId = some tenantId) (call : StoreCall)
    {method : QueryFilter → StoreMethod Database Answer}
    (isolates
      : ∀ filter : QueryFilter,
          filter.Within tenantId → Database.Isolates tenantId ambient (method filter))
    : Isolates tenantId ambient (DbContextFactory.inContext context call method) where
  alike model db twin unused twinUnused same := by
    have sameModel : modelFor context ⟨model, db⟩ = modelFor context ⟨model, twin⟩ := rfl
    obtain ⟨used, known, -⟩ := modelFor_eq context ⟨model, db⟩
    obtain ⟨answers, views⟩ := (isolates _ (filterIn_within used oneTenant named)).alike db
      twin unused twinUnused same
    simp only [DbContextFactory.inContext, ← sameModel, known]
    exact ⟨answers, trivial, views⟩
  confined model db unused := by
    obtain ⟨used, known, -⟩ := modelFor_eq context ⟨model, db⟩
    simp only [DbContextFactory.inContext, known]
    exact (isolates _ (filterIn_within used oneTenant named)).confined db unused

end DbContextFactory

-----------------------------------------------------------------------------------------
-- The methods of the store
-----------------------------------------------------------------------------------------

namespace SqliteJobStore

variable {tenantId : String} {ambient : Ambient} {filter : QueryFilter}

theorem get_isolates (trimmed : trim tenantId = tenantId) (within : filter.Within tenantId)
    (id : Guid)
    : Database.Isolates tenantId ambient (get filter id) where
  alike db twin _ _ same := by
    refine ⟨?_, same⟩
    simp only [get, Database.loadJob_within within, same]
  confined _ _ := .of_same trimmed (fun _ _ => rfl)

theorem list_isolates (trimmed : trim tenantId = tenantId) (within : filter.Within tenantId)
    : Database.Isolates tenantId ambient (list filter) where
  alike db twin _ _ same := by
    refine ⟨?_, same⟩
    simp only [list, Database.loadJobs_within within, same]
  confined _ _ := .of_same trimmed (fun _ _ => rfl)

theorem acknowledge_isolates (trimmed : trim tenantId = tenantId)
    (within : filter.Within tenantId) (id : Guid) (acknowledgedBy : String)
    (acknowledgedAt : DateTimeOffset)
    : Database.Isolates tenantId ambient
        (acknowledge filter id acknowledgedBy acknowledgedAt) where
  alike db twin _ _ same := by
    have keepsTenant : ∀ row,
        (setAcknowledged acknowledgedBy acknowledgedAt row).tenantId = row.tenantId :=
      fun _ => rfl
    unfold acknowledge
    split
    · exact ⟨rfl, same⟩
    · refine ⟨?_, ?_⟩
      · simp only [Database.executeUpdate_count within, same]
      · simp only [Database.tenantView_executeUpdate keepsTenant, same]
  confined db _ := by
    refine .of_same trimmed ?_
    intro other different
    unfold acknowledge
    split
    · rfl
    · exact Database.tenantView_executeUpdate_other within (fun _ => rfl) different

/-- A new job goes to the view of its own tenant, under fresh identifiers. -/
theorem add_isolates {job : JobRecord} (owner : trim job.tenantId = tenantId)
    (id : job.id = ambient.newGuid) {change : JobStateChange} (history : job.history = [change])
    (changeId : change.id = ambient.newGuidAgain)
    : Database.Isolates tenantId ambient (add job) := by
  have inserts : ∀ db : Database, ambient.Unused db
      → ∃ next,
          add job db = (.ok (), next)
          ∧ ∀ viewed,
            next.tenantView viewed
              = if job.tenantId = viewed then
                  { jobs := (db.tenantView viewed).jobs ++ [.ofRecord job]
                    history := (db.tenantView viewed).history
                      ++ job.history.map (JobStateChangeRow.mk job.id) }
                else
                  db.tenantView viewed := by
    intro db unused
    obtain ⟨next, inserted, views⟩ := @Database.tenantView_insertJob db job
      (id ▸ unused.1) (by simp [history]) (by
        intro other member
        rw [history, List.mem_singleton] at member
        exact member ▸ changeId ▸ unused.2)
    exact ⟨next, by simp only [add, inserted], views⟩
  refine ⟨?_, ?_⟩
  · intro db twin unused twinUnused same
    obtain ⟨next, added, views⟩ := inserts db unused
    obtain ⟨twinNext, twinAdded, twinViews⟩ := inserts twin twinUnused
    rw [added, twinAdded]
    refine ⟨rfl, ?_⟩
    simp only [views tenantId, twinViews tenantId, same]
  · intro db unused
    obtain ⟨next, added, views⟩ := inserts db unused
    rw [added]
    refine ⟨?_, ?_⟩
    · intro other different
      rw [views other]
      split
      · exact ⟨List.prefix_append _ _, List.prefix_append _ _⟩
      · exact .refl _
    · intro other different
      have elsewhere : job.tenantId ≠ other := by
        rintro rfl
        exact different owner
      rw [views other, if_neg elsewhere]

end SqliteJobStore

section Actions

variable {provided actor : JobActor} {scopes : DataAccessScopes} {ambient : Ambient}

/-- The context of an action in the actor's own tenant. -/
def JobActor.tenantContext (actor : JobActor) (operation : DataAccessOperation)
    : DataAccessPolicyContext :=
  ⟨actor, actor.tenantScope, operation⟩

/-- The scope of an actor who is not a global reader is that of its own tenant. -/
theorem globalReadScope_eq (notGlobal : actor.hasPermission JobPermissions.globalRead = false)
    : globalReadScope actor = .ok actor.tenantScope := by
  simp [globalReadScope, notGlobal, actor.tenant_eq]

/-- An action in the scope of the actor's tenant isolates if what it does to the store does;
an actor without the permission does not reach the store.
-/
theorem JobAuthorizedAction.execute_isolates {Request Response : Type}
    {action : JobAuthorizedAction DbContextFactory Request Response} {permission : String}
    (requires : action.Requires permission)
    (acting : DataAccessScopeProvider.currentActor provided scopes = actor)
    {request : Request}
    (built : action.buildDataAccessScope request actor = .ok actor.tenantScope)
    (isolates
      : DbContextFactory.Isolates (trim actor.tenantId) ambient
          (action.executeAuthorized
            (DbContextFactory.store (actor.tenantContext action.dataAccessOperation)) ambient
            request actor))
    : DbContextFactory.Isolates (trim actor.tenantId) ambient
        (action.execute DbContextFactory.store provided scopes ambient request) := by
  cases granted : actor.hasPermission permission with
  | false =>
      have denied : action.execute DbContextFactory.store provided scopes ambient request
          = fun factory => (.ok (action.onAuthorizationDenied (.deny none)), factory) :=
        funext (execute_denied requires acting granted ambient request)
      rw [denied]
      exact .const (trim_trim _) _
  | true =>
      have runs : action.execute DbContextFactory.store provided scopes ambient request
          = action.executeAuthorized
              (DbContextFactory.store (actor.tenantContext action.dataAccessOperation)) ambient
              request actor :=
        funext (execute_oneTenant requires acting granted built rfl ambient)
      rw [runs]
      exact isolates

/-- Every client request of an actor who is not a global reader isolates. -/
theorem dispatch_isolates (definitions : IJobDefinitionRegistry)
    (acting : DataAccessScopeProvider.currentActor provided scopes = actor)
    (notGlobal : actor.hasPermission JobPermissions.globalRead = false)
    {request : JobActionRequest} (client : request.fromClient = true)
    : DbContextFactory.Isolates (trim actor.tenantId) ambient
        (dispatch definitions provided scopes ambient request) := by
  have ownTenant := globalReadScope_eq notGlobal
  have trimmed := trim_trim actor.tenantId
  cases request with
  | listJobs =>
      refine .map (JobAuthorizedAction.execute_isolates (fun _ => rfl) acting ownTenant ?_) _
      exact .map (.inContext rfl rfl _ (fun _ within =>
        SqliteJobStore.list_isolates trimmed within)) _
  | getJobById id =>
      refine .map (JobAuthorizedAction.execute_isolates (fun _ => rfl) acting ownTenant ?_) _
      exact .map (.inContext rfl rfl _ (fun _ within =>
        SqliteJobStore.get_isolates trimmed within id)) _
  | acknowledgeJob id =>
      refine .map (JobAuthorizedAction.execute_isolates (fun _ => rfl) acting ownTenant ?_) _
      exact .map (.inContext rfl rfl _ (fun _ within =>
        SqliteJobStore.acknowledge_isolates trimmed within id actor.id ambient.utcNow)) _
  | enqueueJob request =>
      refine .map (JobAuthorizedAction.execute_isolates (fun _ => rfl) acting
        actor.tenant_eq ?_) _
      simp only [enqueueJobAction]
      split
      next => exact .const trimmed _
      next payload retryPolicy delaySeconds _ =>
        split
        next => exact .const trimmed _
        next job built =>
          obtain ⟨id, tenant, -, change, history, changeId⟩ :=
            EnqueueJobAction.jobFor_eq built
          exact .map (.inContext rfl rfl _ (fun _ _ =>
            SqliteJobStore.add_isolates (by rw [tenant]) id history changeId)) _
  | claimNextDueJob request => cases client
  | renewJobLease request => cases client
  | completeJobExecution request => cases client

/-- Tenant isolation. A client request of an actor without the global read permission, which
`jobs.*` would include, gets the same response from any two databases that agree on the
actor's tenant, and leaves them in agreement on it. In each of them it keeps the rows of the
other tenants. Whether and for which operation the model was built makes no difference.
-/
theorem tenants_isolated (definitions : IJobDefinitionRegistry)
    (model : Option JobSchedulerModel) (db twin : Database)
    (acting : DataAccessScopeProvider.currentActor provided scopes = actor)
    (notGlobal : actor.hasPermission JobPermissions.globalRead = false)
    {request : JobActionRequest} (client : request.fromClient = true)
    (unused : ambient.Unused db) (twinUnused : ambient.Unused twin)
    (agree
      : db.tenantView (trim actor.tenantId) = twin.tenantView (trim actor.tenantId))
    : let reached := dispatch definitions provided scopes ambient request ⟨model, db⟩
      let twinReached := dispatch definitions provided scopes ambient request ⟨model, twin⟩
      reached.1 = twinReached.1
      ∧ reached.2.database.tenantView (trim actor.tenantId)
        = twinReached.2.database.tenantView (trim actor.tenantId)
      ∧ db.KeepsOthers reached.2.database (trim actor.tenantId)
      ∧ twin.KeepsOthers twinReached.2.database (trim actor.tenantId) := by
  have isolates := @dispatch_isolates _ _ _ ambient definitions acting notGlobal _ client
  obtain ⟨answers, -, views⟩ := isolates.alike model db twin unused twinUnused agree
  exact ⟨answers, views, isolates.confined model db unused,
    isolates.confined model twin twinUnused⟩

/-- A manager whose tenant is written with white space around it. -/
def smallManager : JobActor :=
  ⟨"dave", " tenant-a ", [JobPermissions.emailManage], by decide, by decide⟩

/-- Two databases with the small job, one of them with a job of another tenant too. -/
def Database.ofTenantA : Database := (SqliteJobStore.add smallJob .empty).2

def Database.ofBothTenants : Database :=
  (SqliteJobStore.add
    (.construct ⟨2⟩ "tenant-b" "carol" "email" ⟨"{}"⟩ .queued ⟨200⟩ (some (.ofTicks 0)) none
      none none none none 1 none [.queued ⟨200⟩ (.ofTicks 0) "Job accepted."])
    .ofTenantA).2

/-- The manager acknowledges the small job in both databases. -/
theorem tenants_isolated_acknowledgement
    : let request := dispatch (fun _ => none) smallManager DataAccessScopes.unset
        (smallAmbient 1) (.acknowledgeJob ⟨1⟩)
      let reached := request ⟨none, .ofBothTenants⟩
      let twinReached := request ⟨none, .ofTenantA⟩
      reached.1 = .ok (.acknowledgeJob (.authorized true))
      ∧ reached.1 = twinReached.1
      ∧ reached.2.database.tenantView (trim " tenant-a ")
        = twinReached.2.database.tenantView (trim " tenant-a ")
      ∧ Database.ofBothTenants.KeepsOthers reached.2.database (trim " tenant-a ")
      ∧ Database.ofTenantA.KeepsOthers twinReached.2.database (trim " tenant-a ") := by
  refine ⟨by decide +kernel, ?_⟩
  exact @tenants_isolated smallManager smallManager .unset (smallAmbient 1) (fun _ => none)
    none .ofBothTenants .ofTenantA rfl (by decide +kernel) (.acknowledgeJob ⟨1⟩) rfl
    ⟨⟨by decide +kernel, by decide +kernel⟩, ⟨by decide +kernel, by decide +kernel⟩⟩
    ⟨⟨by decide +kernel, by decide +kernel⟩, ⟨by decide +kernel, by decide +kernel⟩⟩
    (by decide +kernel)

end Actions

end JobScheduler
