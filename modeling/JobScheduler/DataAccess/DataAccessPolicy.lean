import JobScheduler.Authorization.JobActor

/-! Data-access scopes, rules and policies. A rule's filter is an expression over the
context it was built with; evaluating it again in another context is a function of that
context, so a filter here takes the context and the entity.
-/

namespace JobScheduler

inductive DataAccessOperation
  | read
  | mutate
  deriving DecidableEq, Repr

instance : ToString DataAccessOperation where
  toString
    | .read => "Read"
    | .mutate => "Mutate"

/-- A scope names one tenant or includes all of them; its constructor is private. -/
structure DataAccessScope where
  tenantId : Option String
  includesAllTenants : Bool
  oneOrAll : includesAllTenants = tenantId.isNone
  deriving DecidableEq, Repr

namespace DataAccessScope

def tenant (tenantId : String) : Except SchedulerException DataAccessScope :=
  if isNullOrWhiteSpace tenantId then
    .error (.argument "Tenant ID is required." "tenantId")
  else
    .ok ⟨some (trim tenantId), false, rfl⟩

def allTenants : DataAccessScope := ⟨none, true, rfl⟩

end DataAccessScope

structure DataAccessPolicyContext where
  actor : JobActor
  scope : DataAccessScope
  operation : DataAccessOperation
  deriving DecidableEq, Repr

namespace DataAccessPolicyContext

def currentActorId (context : DataAccessPolicyContext) : String := context.actor.id

def includesAllTenants (context : DataAccessPolicyContext) : Bool :=
  context.scope.includesAllTenants

def currentTenantId (context : DataAccessPolicyContext) : Option String :=
  context.scope.tenantId

def canManageEmailJobs (context : DataAccessPolicyContext) : Bool :=
  context.actor.hasPermission JobPermissions.emailManage

def canReadAllTenantsJobs (context : DataAccessPolicyContext) : Bool :=
  context.actor.hasPermission JobPermissions.globalRead

def canExecuteJobs (context : DataAccessPolicyContext) : Bool :=
  context.actor.hasPermission JobPermissions.execute

end DataAccessPolicyContext

class ITenantScoped (Entity : Type) where
  tenantId : Entity → String

class IActorOwned (Entity : Type) where
  createdByActorId : Entity → String

inductive DataAccessRuleKind
  | boundary
  | grant
  deriving DecidableEq, Repr

abbrev DataAccessFilter (Entity : Type) : Type := DataAccessPolicyContext → Entity → Bool

structure IDataAccessRule (Entity : Type) where
  kind : DataAccessRuleKind
  buildFilter : DataAccessFilter Entity

section Rules

variable (Entity : Type)

def tenantBoundaryRule [ITenantScoped Entity] : IDataAccessRule Entity where
  kind := .boundary
  buildFilter context entity :=
    context.includesAllTenants
    || some (ITenantScoped.tenantId entity) = context.currentTenantId

def ownerGrantRule [IActorOwned Entity] : IDataAccessRule Entity where
  kind := .grant
  buildFilter context entity :=
    IActorOwned.createdByActorId entity = context.currentActorId

def emailManageGrantRule : IDataAccessRule Entity where
  kind := .grant
  buildFilter context _ := context.canManageEmailJobs

def globalReadGrantRule : IDataAccessRule Entity where
  kind := .grant
  buildFilter context _ := context.canReadAllTenantsJobs

def executeGrantRule : IDataAccessRule Entity where
  kind := .grant
  buildFilter context _ := context.canExecuteJobs

end Rules

-----------------------------------------------------------------------------------------
-- Composition and policies
-----------------------------------------------------------------------------------------

namespace DataAccessRuleExpressionComposer

variable {Entity : Type}

def combine (merge : Bool → Bool → Bool) (left right : DataAccessFilter Entity)
    : DataAccessFilter Entity :=
  fun context entity => merge (left context entity) (right context entity)

/-- `Aggregate` without a seed; there is nothing to combine in an empty list. -/
def combineAll (merge : Bool → Bool → Bool)
    : List (DataAccessFilter Entity) → Option (DataAccessFilter Entity)
  | [] => none
  | first :: rest => some (rest.foldl (combine merge) first)

def combineAnd : List (DataAccessFilter Entity) → Option (DataAccessFilter Entity) :=
  combineAll and

def combineOr : List (DataAccessFilter Entity) → Option (DataAccessFilter Entity) :=
  combineAll or

def allowAll : DataAccessFilter Entity := fun _ _ => true

def compose (rules : List (IDataAccessRule Entity))
    : Except SchedulerException (DataAccessFilter Entity) :=
  if rules.isEmpty then
    .error (.invalidOperation
      "Data access policy for JobRecord must define at least one rule.")
  else
    let boundaries := (rules.filter (·.kind = .boundary)).map IDataAccessRule.buildFilter
    let grants := (rules.filter (·.kind = .grant)).map IDataAccessRule.buildFilter
    let filter := (combineAnd boundaries).getD allowAll
    match combineOr grants with
    | none => .ok filter
    | some grantFilter => .ok (combine and filter grantFilter)

end DataAccessRuleExpressionComposer

/-- `DataAccessPolicy<TEntity>`, with the operation dictionary as a lookup. -/
structure DataAccessPolicy (Entity : Type) where
  commonRules : List (IDataAccessRule Entity)
  rulesByOperation : DataAccessOperation → Option (List (IDataAccessRule Entity))

/-- The rule list is picked from the operation of the context at hand. -/
def DataAccessPolicy.buildFilter {Entity : Type} (policy : DataAccessPolicy Entity)
    (context : DataAccessPolicyContext)
    : Except SchedulerException (DataAccessFilter Entity) :=
  match policy.rulesByOperation context.operation with
  | none =>
      .error (.invalidOperation
        ("Data access policy for JobRecord does not define rules for operation '"
          ++ toString context.operation ++ "'."))
  | some operationRules =>
      DataAccessRuleExpressionComposer.compose (policy.commonRules ++ operationRules)

def jobDataAccessPolicy (Entity : Type) [ITenantScoped Entity] [IActorOwned Entity]
    : DataAccessPolicy Entity where
  commonRules := [tenantBoundaryRule Entity]
  rulesByOperation
    | .read =>
        some [ownerGrantRule Entity, emailManageGrantRule Entity, globalReadGrantRule Entity]
    | .mutate =>
        some [ownerGrantRule Entity, emailManageGrantRule Entity, executeGrantRule Entity]

/-- The last grant of each operation's rule list, the one place where the lists differ. -/
def DataAccessPolicyContext.operationGrant (context : DataAccessPolicyContext)
    : DataAccessOperation → Bool
  | .read => context.canReadAllTenantsJobs
  | .mutate => context.canExecuteJobs

/-- Both rule lists build a filter: inside the tenant boundary, one of the three grants
of the list has to hold.
-/
theorem jobDataAccessPolicy_buildFilter {Entity : Type} [ITenantScoped Entity]
    [IActorOwned Entity] (builtWith : DataAccessPolicyContext)
    : (jobDataAccessPolicy Entity).buildFilter builtWith
      = .ok (fun context entity =>
          (context.includesAllTenants
            || some (ITenantScoped.tenantId entity) = context.currentTenantId)
          && ((decide (IActorOwned.createdByActorId entity = context.currentActorId)
              || context.canManageEmailJobs)
            || context.operationGrant builtWith.operation)) := by
  cases operation : builtWith.operation <;>
    simp only [DataAccessPolicy.buildFilter, jobDataAccessPolicy, operation] <;> rfl

end JobScheduler
