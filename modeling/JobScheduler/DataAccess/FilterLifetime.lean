import JobScheduler.Actions.JobActions
import JobScheduler.Ledger.LawfulStore

/-! The query filter over the lifetime of a process. It is built once, from the rule list of
the operation at hand, and every later context evaluates this one filter. So the first context
decides which grant counts, and a call under the other operation may reach other rows than the
policy allows it.
-/

namespace JobScheduler

open Library

/-- A call of the store, and the context its action has set for it. -/
structure ScopedCall where
  context : DataAccessPolicyContext
  ambient : Ambient
  call : StoreCall
  deriving DecidableEq, Repr

namespace DbContextFactory

/-- A process answers calls, each of them under its own context. -/
def machine : Machine DbContextFactory ScopedCall StoreAnswer where
  step factory input := (store input.context).call input.ambient input.call factory

/-- A process that has not used a context yet. -/
def start (db : Database) : DbContextFactory := ⟨none, db⟩

/-- The process after the given calls. -/
def after (db : Database) (calls : List ScopedCall) : DbContextFactory :=
  (machine.run (start db) calls).2

/-- The rows a call under the context can read or update: those its filter admits; see
`call_rowsInReach`.
-/
def rowsInReach (factory : DbContextFactory) (context : DataAccessPolicyContext)
    : List JobRow :=
  match factory.modelFor context with
  | .error _ => []
  | .ok model => factory.database.filteredJobs (model.filterIn context)

end DbContextFactory

-----------------------------------------------------------------------------------------
-- What a call works on
-----------------------------------------------------------------------------------------

/-- The second database has the job rows of the first one, of which only those in reach may
have been rewritten.
-/
def Database.WrittenWithin (reach : List JobRow) (db next : Database) : Prop :=
  List.Forall₂ (fun before after => after = before ∨ before ∈ reach) db.jobs.rows
    next.jobs.rows

theorem Database.WrittenWithin.refl (reach : List JobRow) (db : Database)
    : Database.WrittenWithin reach db db :=
  List.forall₂_same.mpr (fun _ _ => Or.inl rfl)

theorem Database.executeUpdate_within (db : Database) (filter : QueryFilter)
    (condition : JobRow → Bool) (setProperties : JobRow → JobRow)
    (keepsKey : ∀ row, (setProperties row).id = row.id)
    : Database.WrittenWithin (db.filteredJobs filter) db
        (db.executeUpdate filter condition setProperties keepsKey).2 := by
  refine List.forall₂_map_right_iff.mpr (List.forall₂_same.mpr ?_)
  intro row member
  dsimp only
  split
  · rename_i selected
    exact Or.inr (List.mem_filter.mpr ⟨member, (Bool.and_eq_true_iff.mp selected).1⟩)
  · exact Or.inl rfl

namespace SqliteJobStore

variable {filter : QueryFilter} {db next : Database}

theorem tryPersistTransition_within {id token : Guid} {status : JobStatus} {job : JobRecord}
    {count : Nat} {setProperties : JobRow → JobRow}
    {keepsKey : ∀ row, (setProperties row).id = row.id}
    (persisted
      : tryPersistTransition filter id status token job count setProperties keepsKey db
        = .ok (some next))
    : Database.WrittenWithin (db.filteredJobs filter) db next := by
  unfold tryPersistTransition at persisted
  simp only at persisted
  split at persisted
  · cases persisted
  · unfold Database.appendStateChanges at persisted
    split at persisted
    · cases persisted
      exact db.executeUpdate_within filter _ setProperties keepsKey
    · cases persisted

theorem commitClaim_within {job claimedJob : JobRecord} {setProperties : JobRow → JobRow}
    {keepsKey : ∀ row, (setProperties row).id = row.id}
    : Database.WrittenWithin (db.filteredJobs filter) db
        (commitClaim filter job claimedJob setProperties keepsKey db).2 := by
  unfold commitClaim
  split
  · exact .refl _ db
  · exact .refl _ db
  · rename_i persisted
    exact tryPersistTransition_within persisted

theorem commitTransition_within {id token : Guid} {job updatedJob : JobRecord}
    {setProperties : JobRow → JobRow} {keepsKey : ∀ row, (setProperties row).id = row.id}
    : Database.WrittenWithin (db.filteredJobs filter) db
        (commitTransition filter id token job updatedJob setProperties keepsKey db).2 := by
  unfold commitTransition
  split
  · exact .refl _ db
  · exact .refl _ db
  · rename_i persisted
    exact tryPersistTransition_within persisted

/-- Only an addition writes a row that the filter of its call does not admit. -/
theorem call_within (filter : QueryFilter) (ambient : Ambient) {call : StoreCall}
    (noAddition : ∀ job, call ≠ .add job) (db : Database)
    : Database.WrittenWithin (db.filteredJobs filter) db
        ((methods filter).call ambient call db).2 := by
  cases call with
  | add job => exact absurd rfl (noAddition job)
  | get | list => exact .refl _ db
  | tryClaimNextDueJob now workerId leaseExpiresAt =>
      simp only [IJobStore.call, methods, tryClaimNextDueJob]
      split
      · exact .refl _ db
      · split
        · exact .refl _ db
        · split
          · split
            · exact .refl _ db
            · exact commitClaim_within
          · simp only [claimPendingJob]
            split
            · exact .refl _ db
            · split
              · exact .refl _ db
              · split
                · exact .refl _ db
                · exact commitClaim_within
  | renewLease id token renewedAt leaseExpiresAt =>
      simp only [IJobStore.call, methods, renewLease]
      split
      · exact .refl _ db
      · exact db.executeUpdate_within filter _ _ _
  | markCompleted id token =>
      simp only [IJobStore.call, methods, markCompleted]
      split
      · exact .refl _ db
      · split
        · exact .refl _ db
        · split
          · exact .refl _ db
          · exact commitTransition_within
  | markFailed id token reason =>
      simp only [IJobStore.call, methods, markFailed]
      split
      · exact .refl _ db
      · split
        · exact .refl _ db
        · split
          · exact .refl _ db
          · exact commitTransition_within
  | scheduleRetry id token reason scheduledAt =>
      simp only [IJobStore.call, methods, scheduleRetry]
      split
      · exact .refl _ db
      · split
        · exact .refl _ db
        · split
          · exact .refl _ db
          · exact commitTransition_within
  | acknowledge id acknowledgedBy acknowledgedAt =>
      simp only [IJobStore.call, methods, acknowledge]
      split
      · exact .refl _ db
      · exact db.executeUpdate_within filter _ _ _

end SqliteJobStore

namespace DbContextFactory

/-- The rows in reach are what a call under the context works on: a lookup and the list answer
with them, a claim takes the first of them that is due, and only an addition writes another row.
-/
theorem call_rowsInReach (factory : DbContextFactory) (context : DataAccessPolicyContext)
    (ambient : Ambient)
    : (∀ id,
        ((store context).call ambient (.get id) factory).1
        = .job (((factory.rowsInReach context).find? (·.id = id)).map factory.database.loadRow))
      ∧ ((store context).call ambient .list factory).1
        = .of .jobs
            (JobRecord.orderByEnqueuedAt
              ((factory.rowsInReach context).map factory.database.loadRow))
      ∧ (∀ now workerId leaseExpiresAt,
          (∀ row ∈ factory.rowsInReach context, SqliteJobStore.isDue now row = false)
          → ((store context).call ambient (.tryClaimNextDueJob now workerId leaseExpiresAt)
              factory).1
            = .job none)
      ∧ ∀ call,
          (∀ job, call ≠ .add job)
          → Database.WrittenWithin (factory.rowsInReach context) factory.database
              ((store context).call ambient call factory).2.database := by
  obtain ⟨model, known, -⟩ := modelFor_eq context factory
  have reach : factory.rowsInReach context
      = factory.database.filteredJobs (model.filterIn context) := by
    simp only [rowsInReach, known]
  rw [reach]
  refine ⟨?_, ?_, ?_, ?_⟩
  · intro id
    rw [call_eq context known]
    rfl
  · rw [call_eq context known]
    rfl
  · intro now workerId leaseExpiresAt idle
    have nothing : SqliteJobStore.nextDueJobId (model.filterIn context) now factory.database
        = none := by
      have none : (factory.database.filteredJobs (model.filterIn context)).filter
          (SqliteJobStore.isDue now) = [] := by
        refine List.filter_eq_nil_iff.mpr ?_
        intro row member
        exact Bool.eq_false_iff.mp (idle row member)
      rw [SqliteJobStore.nextDueJobId, none]
      rfl
    rw [call_eq context known]
    simp only [IJobStore.call, SqliteJobStore.methods, SqliteJobStore.tryClaimNextDueJob, nothing]
    rfl
  · intro call noAddition
    rw [call_eq context known]
    exact SqliteJobStore.call_within _ ambient noAddition factory.database

end DbContextFactory

-----------------------------------------------------------------------------------------
-- What the policy allows
-----------------------------------------------------------------------------------------

namespace DataAccessPolicyContext

/-- The row lies inside the tenant boundary of the scope. -/
def InScope (context : DataAccessPolicyContext) (row : JobRow) : Prop :=
  context.scope.includesAllTenants = true ∨ some row.tenantId = context.scope.tenantId

/-- What the policy allows for the operation of the context itself: the tenant boundary and
one of the grants of this operation.
-/
def Allows (context : DataAccessPolicyContext) (row : JobRow) : Prop :=
  context.InScope row
  ∧ match context.operation with
    | .read =>
        row.createdByActorId = context.actor.id
        ∨ context.actor.hasPermission JobPermissions.emailManage = true
        ∨ context.actor.hasPermission JobPermissions.globalRead = true
    | .mutate =>
        row.createdByActorId = context.actor.id
        ∨ context.actor.hasPermission JobPermissions.emailManage = true
        ∨ context.actor.hasPermission JobPermissions.execute = true

instance (context : DataAccessPolicyContext) (row : JobRow)
    : Decidable (context.InScope row) :=
  inferInstanceAs (Decidable (_ ∨ _))

instance (context : DataAccessPolicyContext) (row : JobRow)
    : Decidable (context.Allows row) :=
  match operation : context.operation with
  | .read => decidable_of_iff (context.InScope row ∧ _) (by rw [Allows, operation])
  | .mutate => decidable_of_iff (context.InScope row ∧ _) (by rw [Allows, operation])

/-- It makes no difference to the context which operation the filter was built for: it is
the context's own, or the actor manages jobs, or has both or none of the permissions that
the rule lists differ in, or created all jobs inside the tenant boundary.
-/
def Indifferent (context : DataAccessPolicyContext) (builtFor : DataAccessOperation)
    (db : Database) : Prop :=
  builtFor = context.operation
  ∨ context.actor.hasPermission JobPermissions.emailManage = true
  ∨ context.actor.hasPermission JobPermissions.globalRead
    = context.actor.hasPermission JobPermissions.execute
  ∨ ∀ row ∈ db.jobs.rows, context.InScope row → row.createdByActorId = context.actor.id

end DataAccessPolicyContext

-----------------------------------------------------------------------------------------
-- The model of a run
-----------------------------------------------------------------------------------------

/-- The operation of the first call that gets to create a context. -/
def firstOperation (calls : List ScopedCall) : Option DataAccessOperation :=
  (calls.find? (·.call.createsContext)).map (·.context.operation)

namespace DbContextFactory

/-- A call keeps the model there is; without one it builds the model for its operation, if
it creates a context.
-/
theorem model_of_step (factory : DbContextFactory) (input : ScopedCall)
    : (machine.step factory input).2.model.map JobSchedulerModel.operation
      = (factory.model.map JobSchedulerModel.operation).or (firstOperation [input]) := by
  obtain ⟨model, known, builtFor⟩ := modelFor_eq input.context factory
  change ((store input.context).call input.ambient input.call factory).2.model.map _ = _
  rw [call_eq input.context known]
  cases creates : input.call.createsContext with
  | false => simp [firstOperation, creates]
  | true =>
      cases earlier : factory.model <;>
        simp [firstOperation, creates, earlier, builtFor]

/-- After a run the model is that of the first operation, by induction on the calls. -/
theorem model_of_run (factory : DbContextFactory) (calls : List ScopedCall)
    : (machine.run factory calls).2.model.map JobSchedulerModel.operation
      = (factory.model.map JobSchedulerModel.operation).or (firstOperation calls) := by
  induction calls generalizing factory with
  | nil => simp [firstOperation]
  | cons input rest ih =>
      have split : firstOperation (input :: rest)
          = (firstOperation [input]).or (firstOperation rest) := by
        cases creates : input.call.createsContext <;> simp [firstOperation, creates]
      rw [Machine.run_cons, ih, model_of_step, Option.or_assoc, split]

/-- The rows in reach are inside the tenant boundary and satisfy a grant of the list the
filter was built from.
-/
theorem rowsInReach_eq (factory : DbContextFactory) (context : DataAccessPolicyContext)
    : factory.rowsInReach context
      = factory.database.jobs.rows.filter (fun row =>
          decide (context.InScope row)
          && ((decide (row.createdByActorId = context.actor.id)
              || context.actor.hasPermission JobPermissions.emailManage)
            || context.operationGrant
                ((factory.model.map JobSchedulerModel.operation).getD context.operation))) := by
  obtain ⟨model, known, builtFor⟩ := modelFor_eq context factory
  simp only [rowsInReach, known, Database.filteredJobs]
  refine List.filter_congr ?_
  intro row _
  rw [JobSchedulerModel.filterIn_admits, builtFor]
  congr 1
  rw [Bool.eq_iff_iff, decide_eq_true_iff, Bool.or_eq_true, decide_eq_true_iff]
  rfl

end DbContextFactory

/-- The policy of the context's own operation, in the form of the filter. -/
theorem DataAccessPolicyContext.allows_iff (context : DataAccessPolicyContext) (row : JobRow)
    : decide (context.Allows row)
      = (decide (context.InScope row)
        && ((decide (row.createdByActorId = context.actor.id)
            || context.actor.hasPermission JobPermissions.emailManage)
          || context.operationGrant context.operation)) := by
  cases operation : context.operation <;>
    simp [Allows, operation, operationGrant, canReadAllTenantsJobs, canExecuteJobs, Bool.or_assoc]

-----------------------------------------------------------------------------------------
-- When the filter follows the operation
-----------------------------------------------------------------------------------------

/-- Every call of the run reaches exactly the rows that the policy allows for its own
operation.
-/
def FollowsOperations (db : Database) (calls : List ScopedCall) : Prop :=
  ∀ before input rest,
    calls = before ++ input :: rest
    → (DbContextFactory.after db before).rowsInReach input.context
      = (DbContextFactory.after db before).database.jobs.rows.filter
          (fun row => decide (input.context.Allows row))

/-- Two selections agree exactly if the tests agree on every row. -/
theorem filter_eq_filter_iff {Row : Type} {rows : List Row} {first second : Row → Bool}
    : rows.filter first = rows.filter second ↔ ∀ row ∈ rows, first row = second row := by
  refine ⟨?_, List.filter_congr⟩
  intro same row member
  refine Bool.eq_iff_iff.mpr ⟨?_, ?_⟩
  · intro passes
    have there : row ∈ rows.filter second := same ▸ List.mem_filter.mpr ⟨member, passes⟩
    exact (List.mem_filter.mp there).2
  · intro passes
    have there : row ∈ rows.filter first := same ▸ List.mem_filter.mpr ⟨member, passes⟩
    exact (List.mem_filter.mp there).2

namespace DbContextFactory

/-- The grants of the two rule lists differ for an actor with one of their permissions. -/
theorem operationGrant_eq_iff (context : DataAccessPolicyContext)
    (builtFor : DataAccessOperation)
    : context.operationGrant builtFor = context.operationGrant context.operation
      ↔ builtFor = context.operation
        ∨ context.actor.hasPermission JobPermissions.globalRead
          = context.actor.hasPermission JobPermissions.execute := by
  cases builtFor <;> cases operation : context.operation <;>
    simp [DataAccessPolicyContext.operationGrant,
      DataAccessPolicyContext.canReadAllTenantsJobs, DataAccessPolicyContext.canExecuteJobs,
      eq_comm]

/-- Two grants admit the same of one row exactly if an earlier grant of both admits it, or
they are equal, or the row does not depend on them.
-/
theorem sameVerdict_iff (inScope owner manages grant other : Bool)
    : (inScope && ((owner || manages) || grant)) = (inScope && ((owner || manages) || other))
      ↔ manages = true ∨ grant = other ∨ (inScope = true → owner = true) := by
  revert inScope owner manages grant other
  decide

/-- The rows in reach are the allowed ones exactly if the context is indifferent to the
operation the filter was built for.
-/
theorem rowsInReach_eq_allowed_iff (factory : DbContextFactory)
    (context : DataAccessPolicyContext)
    : factory.rowsInReach context
        = factory.database.jobs.rows.filter (fun row => decide (context.Allows row))
      ↔ context.Indifferent
          ((factory.model.map JobSchedulerModel.operation).getD context.operation)
          factory.database := by
  rw [rowsInReach_eq, filter_eq_filter_iff]
  simp only [DataAccessPolicyContext.allows_iff, sameVerdict_iff, decide_eq_true_eq,
    operationGrant_eq_iff]
  constructor
  · intro verdicts
    by_contra depends
    simp only [DataAccessPolicyContext.Indifferent, not_or, not_forall] at depends
    obtain ⟨other, unmanaged, onePermission, row, member, inScope, foreign⟩ := depends
    rcases verdicts row member with manages | (own | both) | owned
    · exact unmanaged manages
    · exact other own
    · exact onePermission both
    · exact foreign (owned inScope)
  · rintro (own | manages | both | owned) row member
    · exact .inr (.inl (.inl own))
    · exact .inl manages
    · exact .inr (.inl (.inr both))
    · exact .inr (.inr (owned row member))

/-- In a run, every call reaches the rows allowed for its own operation exactly if every
call is indifferent to the operation of the first one that created a context.
-/
theorem followsOperations_iff (db : Database) (calls : List ScopedCall)
    : FollowsOperations db calls
      ↔ ∀ before input rest,
          calls = before ++ input :: rest
          → input.context.Indifferent
              ((firstOperation before).getD input.context.operation)
              (after db before).database := by
  have builtFor (before : List ScopedCall)
      : (after db before).model.map JobSchedulerModel.operation = firstOperation before :=
    model_of_run (start db) before
  have each (before : List ScopedCall) (input : ScopedCall) :=
    rowsInReach_eq_allowed_iff (after db before) input.context
  constructor
  · intro follows before input rest split
    rw [← builtFor]
    exact (each before input).mp (follows before input rest split)
  · intro indifferent before input rest split
    refine (each before input).mpr ?_
    rw [builtFor]
    exact indifferent before input rest split

end DbContextFactory

/-- A reader of jobs, and the worker with the one permission it has by default. -/
def smallReader : JobActor :=
  ⟨"bob", "tenant-a", [JobPermissions.emailRead], by decide, by decide⟩

def smallWorker : JobActor :=
  ⟨"worker-service", "system", [JobPermissions.execute], by decide, by decide⟩

/-- The database of an earlier process, with one job that is due. -/
def Database.dueJob : Database := (SqliteJobStore.add smallJob .empty).2

/-- The reader lists its tenant, then the worker claims a job. -/
def claimAfterListing : List ScopedCall :=
  [⟨⟨smallReader, smallReader.tenantScope, .read⟩, smallAmbient 1, .list⟩,
    ⟨⟨smallWorker, .allTenants, .mutate⟩, smallAmbient 2,
      .tryClaimNextDueJob (.ofTicks 2) "worker-1" (.ofTicks 7)⟩]

/-- A process whose first context reads leaves its worker without rows: the claim after the
listing reaches no row, though the policy allows the worker all of them, and the action finds
no job where it finds one in a new process.
-/
theorem claim_after_listing_finds_nothing
    : ¬ FollowsOperations .dueJob claimAfterListing
      ∧ (let claim := JobActionRequest.claimNextDueJob ⟨.ofTicks 2, "worker-1", .ofTicks 7⟩
        let listed := (dispatch (fun _ => none) smallReader .unset (smallAmbient 1) .listJobs
          (.start .dueJob)).2
        (dispatch (fun _ => none) smallWorker .unset (smallAmbient 2) claim listed).1
            = .ok (.claimNextDueJob (.authorized none))
          ∧ (dispatch (fun _ => none) smallWorker .unset (smallAmbient 2) claim
              (.start .dueJob)).1
            = .ok (.claimNextDueJob (.authorized (some
                (smallJob.claimedUnder (smallAmbient 2) (.ofTicks 2) "worker-1"
                  (.ofTicks 7)))))) := by
  refine ⟨?_, by decide +kernel, by decide +kernel⟩
  intro follows
  have reached := follows [_] _ [] rfl
  revert reached
  decide +kernel

end JobScheduler
