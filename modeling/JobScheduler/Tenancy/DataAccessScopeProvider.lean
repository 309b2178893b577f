import JobScheduler.DataAccess.DataAccessPolicy

/-! The ambient scopes of a flow of control. The provider keeps them in `AsyncLocal` values:
a method sets them for what it calls, and what an asynchronous method sets is gone when it
returns to its caller.
-/

namespace JobScheduler

/-- The `AsyncLocal` values of the provider, as one flow of control sees them. -/
structure DataAccessScopes where
  currentActor : Option JobActor
  currentScope : Option DataAccessScope
  currentOperation : Option DataAccessOperation
  crossTenantScopeDepth : Nat
  deriving DecidableEq, Repr

/-- A flow of control that has set nothing. -/
def DataAccessScopes.unset : DataAccessScopes := ⟨none, none, none, 0⟩

namespace DataAccessScopeProvider

-- The actor that `IJobActorProvider.GetCurrentActor()` gives throughout a request.
variable (provided : JobActor)

def scopedActor (scopes : DataAccessScopes) : Option JobActor := scopes.currentActor

def currentActor (scopes : DataAccessScopes) : JobActor :=
  (scopedActor scopes).getD provided

def current (scopes : DataAccessScopes) : Except SchedulerException DataAccessScope :=
  match scopes.currentScope with
  | some scope => .ok scope
  | none => DataAccessScope.tenant (currentActor provided scopes).tenantId

def currentOperation (scopes : DataAccessScopes) : DataAccessOperation :=
  scopes.currentOperation.getD .read

def beginScope (scope : DataAccessScope) (operation : DataAccessOperation)
    (scopes : DataAccessScopes)
    : Except SchedulerException DataAccessScopes :=
  if scope.includesAllTenants && scopes.crossTenantScopeDepth = 0 then
    .error (.invalidOperation "Cross-tenant scope requires BeginCrossTenantScope.")
  else
    .ok { scopes with currentScope := some scope, currentOperation := some operation }

/-- Both operations ask for the same permissions. -/
def canUseCrossTenantScope (actor : JobActor) (operation : DataAccessOperation) : Bool :=
  actor.hasPermission JobPermissions.all
  || match operation with
    | .read =>
        actor.hasPermission JobPermissions.globalRead
        || actor.hasPermission JobPermissions.execute
    | .mutate =>
        actor.hasPermission JobPermissions.globalRead
        || actor.hasPermission JobPermissions.execute

def beginCrossTenantScope (operation : DataAccessOperation) (reason : String)
    (scopes : DataAccessScopes)
    : Except SchedulerException DataAccessScopes :=
  if isNullOrWhiteSpace reason then
    .error (.argument
      "The value cannot be an empty string or composed entirely of whitespace." "reason")
  else
    let actor := currentActor provided scopes
    if canUseCrossTenantScope actor operation then
      beginScope .allTenants operation
        { scopes with crossTenantScopeDepth := scopes.crossTenantScopeDepth + 1 }
    else
      .error (.invalidOperation
        ("Actor '" ++ actor.id ++ "' is not authorized for cross-tenant '"
          ++ toString operation ++ "' scope."))

def beginActorScope (actor : JobActor) (scopes : DataAccessScopes) : DataAccessScopes :=
  { scopes with currentActor := some actor }

/-- What a context created under these scopes shows of them. -/
def policyContext (scopes : DataAccessScopes)
    : Except SchedulerException DataAccessPolicyContext := do
  let scope ← current provided scopes
  return ⟨currentActor provided scopes, scope, currentOperation scopes⟩

end DataAccessScopeProvider

/-- The scope of an actor's own tenant. -/
def JobActor.tenantScope (actor : JobActor) : DataAccessScope :=
  ⟨some (trim actor.tenantId), false, rfl⟩

/-- An actor's tenant is never blank, so its scope can always be built. -/
theorem JobActor.tenant_eq (actor : JobActor)
    : DataAccessScope.tenant actor.tenantId = .ok actor.tenantScope := by
  simp [DataAccessScope.tenant, actor.tenantPresent, tenantScope]

namespace DataAccessScopeProvider

/-- Entering the scope of one tenant always succeeds, and a context shows exactly it. -/
theorem policyContext_of_beginScope {provided actor : JobActor} {scopes : DataAccessScopes}
    (acting : currentActor provided scopes = actor) (scope : DataAccessScope)
    (oneTenant : scope.includesAllTenants = false) (operation : DataAccessOperation)
    : (beginScope scope operation scopes).bind (policyContext provided)
      = .ok ⟨actor, scope, operation⟩ := by
  subst acting
  simp only [beginScope, oneTenant, Bool.false_and, Bool.false_eq_true, if_false,
    Except.bind]
  rfl

end DataAccessScopeProvider

end JobScheduler
