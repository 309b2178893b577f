import JobScheduler.Authorization.AuthorizationRules
import JobScheduler.Storage.StoreInterface
import JobScheduler.Tenancy.DataAccessScopeProvider

/-! The template every action goes through: authorize the actor, open the data-access scope
of the request, and run the action on the store under that scope.
-/

namespace JobScheduler

/-- `JobAuthorizedAction<TRequest, TResponse>`, with the members its subclasses override; the
actions reach the store directly or through the lifecycle service.
-/
structure JobAuthorizedAction (State Request Response : Type) where
  name : String
  dataAccessOperation : DataAccessOperation
  buildDataAccessScope : Request → JobActor → Except SchedulerException DataAccessScope
  buildAuthorizationRules : Request → List IJobAuthorizationRule
  onAuthorizationDenied : JobAuthorizationResult → Response
  executeAuthorized
    : IJobStore State → Ambient → Request → JobActor → StoreMethod State Response

namespace JobAuthorizedAction

variable {State Request Response : Type}

/-- The scopes an authorized request runs under. -/
def openScope (action : JobAuthorizedAction State Request Response) (provided : JobActor)
    (scopes : DataAccessScopes) (request : Request) (actor : JobActor)
    : Except SchedulerException DataAccessScopes := do
  let dataAccessScope ← action.buildDataAccessScope request actor
  if dataAccessScope.includesAllTenants then
    DataAccessScopeProvider.beginCrossTenantScope provided action.dataAccessOperation
      (action.name ++ " requested cross-tenant scope.") scopes
  else
    DataAccessScopeProvider.beginScope dataAccessScope action.dataAccessOperation scopes

/-- `ExecuteAsync`. The store is the one for callers under a given context. -/
def execute (action : JobAuthorizedAction State Request Response)
    (storeIn : DataAccessPolicyContext → IJobStore State) (provided : JobActor)
    (scopes : DataAccessScopes) (ambient : Ambient) (request : Request)
    : StoreMethod State Response := fun state =>
  let rules := action.buildAuthorizationRules request
  if rules.isEmpty then
    (.error (.invalidOperation
      (action.name ++ " must define at least one authorization rule.")), state)
  else
    let actor := DataAccessScopeProvider.currentActor provided scopes
    let authorization := JobAuthorizationRuleEvaluator.evaluate actor rules
    if !authorization.isAuthorized then
      (.ok (action.onAuthorizationDenied authorization), state)
    else
      let opened := action.openScope provided scopes request actor
      match opened.bind (DataAccessScopeProvider.policyContext provided) with
      | .error exception => (.error exception, state)
      | .ok context => action.executeAuthorized (storeIn context) ambient request actor state

/-- An action asks for one permission. -/
def Requires (action : JobAuthorizedAction State Request Response) (permission : String)
    : Prop :=
  ∀ request,
    action.buildAuthorizationRules request = [permissionJobAuthorizationRule permission]

/-- An action that asks for one permission turns away the actors without it. -/
theorem execute_denied {action : JobAuthorizedAction State Request Response}
    {permission : String} (requires : action.Requires permission)
    {storeIn : DataAccessPolicyContext → IJobStore State} {provided actor : JobActor}
    {scopes : DataAccessScopes}
    (acting : DataAccessScopeProvider.currentActor provided scopes = actor)
    (lacks : actor.hasPermission permission = false) (ambient : Ambient) (request : Request)
    (state : State)
    : action.execute storeIn provided scopes ambient request state
      = (.ok (action.onAuthorizationDenied (.deny none)), state) := by
  unfold execute
  simp only [requires request, acting, JobAuthorizationRuleEvaluator.evaluate_permission, lacks]
  rfl

/-- In the scope of one tenant an authorized action runs under exactly this scope. -/
theorem execute_oneTenant {action : JobAuthorizedAction State Request Response}
    {permission : String} (requires : action.Requires permission)
    {storeIn : DataAccessPolicyContext → IJobStore State} {provided actor : JobActor}
    {scopes : DataAccessScopes}
    (acting : DataAccessScopeProvider.currentActor provided scopes = actor)
    (granted : actor.hasPermission permission = true) {request : Request}
    {scope : DataAccessScope} (built : action.buildDataAccessScope request actor = .ok scope)
    (oneTenant : scope.includesAllTenants = false) (ambient : Ambient) (state : State)
    : action.execute storeIn provided scopes ambient request state
      = action.executeAuthorized (storeIn ⟨actor, scope, action.dataAccessOperation⟩) ambient
          request actor state := by
  have opened : action.openScope provided scopes request actor
      = DataAccessScopeProvider.beginScope scope action.dataAccessOperation scopes := by
    simp only [openScope, built, bind, Except.bind, oneTenant, Bool.false_eq_true, if_false]
  have context := DataAccessScopeProvider.policyContext_of_beginScope acting scope oneTenant
    action.dataAccessOperation
  unfold execute
  simp only [requires request, acting, JobAuthorizationRuleEvaluator.evaluate_permission,
    granted, opened, context]
  rfl

end JobAuthorizedAction

end JobScheduler
