import JobScheduler.Persistence.SqliteJobStore

/-! `JobSchedulerDbContext` and its factory. EF Core builds the model when a context is used
for the first time and keeps it for all later contexts; the query filter in it refers to the
context, so each context evaluates it for itself.
-/

namespace JobScheduler

/-- The query filter of the policy, as a function of the context: inside the tenant
boundary one of the grants has to hold, the last of them by the list the filter was built
from.
-/
theorem JobRow.admitted_iff {builtWith context : DataAccessPolicyContext}
    {queryFilter : DataAccessFilter JobRow}
    (built : (jobDataAccessPolicy JobRow).buildFilter builtWith = .ok queryFilter)
    (row : JobRow)
    : queryFilter context row
      = ((context.includesAllTenants || some row.tenantId = context.currentTenantId)
        && ((decide (row.createdByActorId = context.currentActorId)
            || context.canManageEmailJobs)
          || context.operationGrant builtWith.operation)) := by
  rw [jobDataAccessPolicy_buildFilter] at built
  cases built
  rfl

/-- A built model: the query filter of `JobRecord`, and the operation of the context it was
built with. `JobStateChange` has no policy and no filter.
-/
structure JobSchedulerModel where
  queryFilter : DataAccessFilter JobRow
  operation : DataAccessOperation
  built
    : ∃ builtWith,
        builtWith.operation = operation
        ∧ (jobDataAccessPolicy JobRow).buildFilter builtWith = .ok queryFilter

namespace JobSchedulerModel

/-- `OnModelCreating`, as far as query filters go. -/
def onModelCreating (context : DataAccessPolicyContext)
    : Except SchedulerException JobSchedulerModel :=
  match built : (jobDataAccessPolicy JobRow).buildFilter context with
  | .error exception => .error exception
  | .ok queryFilter => .ok ⟨queryFilter, context.operation, context, rfl, built⟩

/-- The query filter as one context evaluates it. -/
def filterIn (model : JobSchedulerModel) (context : DataAccessPolicyContext) : QueryFilter where
  admits := model.queryFilter context
  ownership := by
    intro row other sameTenant sameCreator
    obtain ⟨builtWith, -, built⟩ := model.built
    rw [JobRow.admitted_iff built, JobRow.admitted_iff built, sameTenant, sameCreator]

theorem filterIn_admits (model : JobSchedulerModel) (context : DataAccessPolicyContext)
    (row : JobRow)
    : (model.filterIn context).admits row
      = ((context.includesAllTenants || some row.tenantId = context.currentTenantId)
        && ((decide (row.createdByActorId = context.currentActorId)
            || context.canManageEmailJobs)
          || context.operationGrant model.operation)) := by
  obtain ⟨builtWith, operation, built⟩ := model.built
  exact operation ▸ JobRow.admitted_iff built row

/-- The model can be built in every context, for the operation of that context. -/
theorem onModelCreating_eq (context : DataAccessPolicyContext)
    : ∃ model, onModelCreating context = .ok model ∧ model.operation = context.operation := by
  unfold onModelCreating
  split
  next exception built =>
    rw [jobDataAccessPolicy_buildFilter] at built
    cases built
  next => exact ⟨_, rfl, rfl⟩

end JobSchedulerModel

/-- The database of the process, and the model once it has been built. -/
structure DbContextFactory where
  model : Option JobSchedulerModel
  database : Database

/-- Whether a method of the store gets to create a context; some return before it. -/
def StoreCall.createsContext : StoreCall → Bool
  | .renewLease _ _ renewedAt leaseExpiresAt => renewedAt < leaseExpiresAt
  | .markFailed _ _ reason => !isNullOrWhiteSpace reason
  | .scheduleRetry _ _ reason _ => !isNullOrWhiteSpace reason
  | .acknowledge _ acknowledgedBy _ => !isNullOrWhiteSpace acknowledgedBy
  | _ => true

namespace DbContextFactory

variable (context : DataAccessPolicyContext)

/-- The model a context works with: the one there is, or a new one. -/
def modelFor (factory : DbContextFactory) : Except SchedulerException JobSchedulerModel :=
  match factory.model with
  | some model => .ok model
  | none => JobSchedulerModel.onModelCreating context

/-- A store method under the context's query filter. -/
def inContext {Answer : Type} (call : StoreCall)
    (method : QueryFilter → StoreMethod Database Answer)
    : StoreMethod DbContextFactory Answer := fun factory =>
  match factory.modelFor context with
  | .error exception => (.error exception, factory)
  | .ok model =>
      let (answer, database) := method (model.filterIn context) factory.database
      (answer,
        { model := if call.createsContext then some model else factory.model
          database := database })

/-- `SqliteJobStore` over the factory, for callers under one context. -/
def store : IJobStore DbContextFactory where
  add ambient job :=
    inContext context (.add job) (fun filter => (SqliteJobStore.methods filter).add ambient job)
  get id := inContext context (.get id) (fun filter => (SqliteJobStore.methods filter).get id)
  list := inContext context .list (fun filter => (SqliteJobStore.methods filter).list)
  tryClaimNextDueJob ambient now workerId leaseExpiresAt :=
    inContext context (.tryClaimNextDueJob now workerId leaseExpiresAt) (fun filter =>
      (SqliteJobStore.methods filter).tryClaimNextDueJob ambient now workerId leaseExpiresAt)
  renewLease id token renewedAt leaseExpiresAt :=
    inContext context (.renewLease id token renewedAt leaseExpiresAt) (fun filter =>
      (SqliteJobStore.methods filter).renewLease id token renewedAt leaseExpiresAt)
  markCompleted ambient id token :=
    inContext context (.markCompleted id token) (fun filter =>
      (SqliteJobStore.methods filter).markCompleted ambient id token)
  markFailed ambient id token reason :=
    inContext context (.markFailed id token reason) (fun filter =>
      (SqliteJobStore.methods filter).markFailed ambient id token reason)
  scheduleRetry ambient id token reason scheduledAt :=
    inContext context (.scheduleRetry id token reason scheduledAt) (fun filter =>
      (SqliteJobStore.methods filter).scheduleRetry ambient id token reason scheduledAt)
  acknowledge id acknowledgedBy acknowledgedAt :=
    inContext context (.acknowledge id acknowledgedBy acknowledgedAt) (fun filter =>
      (SqliteJobStore.methods filter).acknowledge id acknowledgedBy acknowledgedAt)

/-- A context always has a model: the one of the factory, or one for its own operation. -/
theorem modelFor_eq (factory : DbContextFactory)
    : ∃ model,
        factory.modelFor context = .ok model
        ∧ model.operation
          = (factory.model.map JobSchedulerModel.operation).getD context.operation := by
  unfold modelFor
  cases known : factory.model with
  | none => exact JobSchedulerModel.onModelCreating_eq context
  | some model => exact ⟨model, rfl, rfl⟩

/-- A call works on the database as the SQLite store does under the filter of its context,
and leaves a model behind if it created the context.
-/
theorem call_eq {factory : DbContextFactory} {model : JobSchedulerModel}
    (known : factory.modelFor context = .ok model) (ambient : Ambient) (call : StoreCall)
    : (store context).call ambient call factory
      = (((SqliteJobStore.methods (model.filterIn context)).call ambient call
            factory.database).1,
          { model := if call.createsContext then some model else factory.model
            database := ((SqliteJobStore.methods (model.filterIn context)).call ambient call
              factory.database).2 }) := by
  cases call <;> simp only [IJobStore.call, store, inContext, known] <;> rfl

end DbContextFactory

end JobScheduler
