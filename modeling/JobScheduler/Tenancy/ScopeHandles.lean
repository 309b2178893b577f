import JobScheduler.Library.Machine
import JobScheduler.Tenancy.DataAccessScopeProvider

/-! Handles of scopes, and the runs of one flow of control that opens and disposes them. A
method of the provider answers a handle or throws, and leaves the ambient values behind in
both cases; a handle remembers what it has to put back.
-/

namespace JobScheduler

open Library

/-- What the closure of a handle puts back. The inner handle of a cross-tenant scope is
disposed by the outer one alone, so it needs no flag of its own.
-/
inductive DisposeAction
  | scope (previousScope : Option DataAccessScope)
    (previousOperation : Option DataAccessOperation)
  | crossTenant (scopeHandle : DisposeAction) (previousDepth : Nat)
  | actor (previousActor : Option JobActor)
  deriving DecidableEq, Repr

def DisposeAction.run (scopes : DataAccessScopes) : DisposeAction → DataAccessScopes
  | scope previousScope previousOperation =>
      { scopes with currentScope := previousScope, currentOperation := previousOperation }
  | crossTenant scopeHandle previousDepth =>
      { scopeHandle.run scopes with crossTenantScopeDepth := previousDepth }
  | actor previousActor => { scopes with currentActor := previousActor }

/-- A method of the provider, with the ambient values it leaves behind. -/
abbrev ScopeMethod : Type :=
  DataAccessScopes → Except SchedulerException DisposeAction × DataAccessScopes

/-- A call that opens a scope. The nulls that the source checks for are arguments too. -/
inductive BeginCall
  | scope (scope : DataAccessScope) (operation : DataAccessOperation)
  | readScope (scope : DataAccessScope)
  | crossTenantScope (operation : DataAccessOperation) (reason : Option String)
  | actorScope (actor : Option JobActor)
  deriving DecidableEq, Repr

namespace DataAccessScopeProvider

def openScope (scope : DataAccessScope) (operation : DataAccessOperation) : ScopeMethod :=
  fun scopes =>
    if scope.includesAllTenants && scopes.crossTenantScopeDepth = 0 then
      (.error (.invalidOperation "Cross-tenant scope requires BeginCrossTenantScope."), scopes)
    else
      (.ok (.scope scopes.currentScope scopes.currentOperation),
        { scopes with currentScope := some scope, currentOperation := some operation })

/-- The depth is raised before the inner scope is opened, and would stay raised if that
threw.
-/
def openCrossTenantScope (provided : JobActor) (operation : DataAccessOperation)
    (reason : Option String)
    : ScopeMethod := fun scopes =>
  match reason with
  | none => (.error (.argument "Value cannot be null." "reason"), scopes)
  | some reason =>
      if isNullOrWhiteSpace reason then
        (.error (.argument
          "The value cannot be an empty string or composed entirely of whitespace." "reason"),
          scopes)
      else
        let actor := currentActor provided scopes
        if canUseCrossTenantScope actor operation then
          let previousDepth := scopes.crossTenantScopeDepth
          match openScope .allTenants operation
            { scopes with crossTenantScopeDepth := previousDepth + 1 } with
          | (.error exception, scopes) => (.error exception, scopes)
          | (.ok scopeHandle, scopes) => (.ok (.crossTenant scopeHandle previousDepth), scopes)
        else
          (.error (.invalidOperation
            ("Actor '" ++ actor.id ++ "' is not authorized for cross-tenant '"
              ++ toString operation ++ "' scope.")), scopes)

def openActorScope (actor : Option JobActor) : ScopeMethod := fun scopes =>
  match actor with
  | none => (.error (.argument "Value cannot be null." "actor"), scopes)
  | some actor => (.ok (.actor scopes.currentActor), beginActorScope actor scopes)

def openBy (provided : JobActor) : BeginCall → ScopeMethod
  | .scope scope operation => openScope scope operation
  | .readScope scope => openScope scope .read
  | .crossTenantScope operation reason => openCrossTenantScope provided operation reason
  | .actorScope actor => openActorScope actor

/-- `DataAccessScopedJobStore.BeginOperation`: the current scope is entered again. -/
def beginOperation (provided : JobActor) (operation : DataAccessOperation) : ScopeMethod :=
  fun scopes =>
    match current provided scopes with
    | .error exception => (.error exception, scopes)
    | .ok scope => openScope scope operation scopes

/-- Without their handles the methods are those an action calls. -/
theorem beginScope_eq (scope : DataAccessScope) (operation : DataAccessOperation)
    (scopes : DataAccessScopes)
    : beginScope scope operation scopes
      = (openScope scope operation scopes).1.map
          (fun _ => (openScope scope operation scopes).2) := by
  unfold beginScope openScope
  split <;> rfl

theorem beginCrossTenantScope_eq (provided : JobActor) (operation : DataAccessOperation)
    (reason : String) (scopes : DataAccessScopes)
    : beginCrossTenantScope provided operation reason scopes
      = (openCrossTenantScope provided operation (some reason) scopes).1.map
          (fun _ => (openCrossTenantScope provided operation (some reason) scopes).2) := by
  by_cases blank : isNullOrWhiteSpace reason
  · simp only [beginCrossTenantScope, openCrossTenantScope, blank, if_true]
    rfl
  · by_cases granted : canUseCrossTenantScope (currentActor provided scopes) operation
    · simp only [beginCrossTenantScope, openCrossTenantScope, blank, granted, if_true,
        if_false, Bool.false_eq_true]
      rfl
    · simp only [beginCrossTenantScope, openCrossTenantScope, blank, granted, if_false,
        Bool.false_eq_true]
      rfl

/-- Only a scope of all tenants is refused, outside of every cross-tenant scope. -/
theorem openScope_cases (scope : DataAccessScope) (operation : DataAccessOperation)
    (scopes : DataAccessScopes)
    : (scope.includesAllTenants = true
        ∧ scopes.crossTenantScopeDepth = 0
        ∧ ∃ exception, openScope scope operation scopes = (.error exception, scopes))
      ∨ (scope.includesAllTenants = true → scopes.crossTenantScopeDepth ≠ 0)
        ∧ openScope scope operation scopes
          = (.ok (.scope scopes.currentScope scopes.currentOperation),
              { scopes with currentScope := some scope, currentOperation := some operation }) := by
  by_cases all : scope.includesAllTenants = true
  · by_cases outside : scopes.crossTenantScopeDepth = 0
    · exact Or.inl ⟨all, outside, _, by simp only [openScope, all, outside]; rfl⟩
    · exact Or.inr ⟨fun _ => outside, by simp [openScope, outside]⟩
  · exact Or.inr ⟨fun includes => absurd includes all, by simp [openScope, all]⟩

/-- A cross-tenant scope is refused, or opened for an actor that may use it. -/
theorem openCrossTenantScope_cases (provided : JobActor) (operation : DataAccessOperation)
    (reason : Option String) (scopes : DataAccessScopes)
    : (∃ exception,
          openCrossTenantScope provided operation reason scopes = (.error exception, scopes))
      ∨ canUseCrossTenantScope (currentActor provided scopes) operation = true
        ∧ openCrossTenantScope provided operation reason scopes
          = (.ok (.crossTenant (.scope scopes.currentScope scopes.currentOperation)
                scopes.crossTenantScopeDepth),
              { scopes with
                currentScope := some .allTenants
                currentOperation := some operation
                crossTenantScopeDepth := scopes.crossTenantScopeDepth + 1 }) := by
  cases reason with
  | none => exact Or.inl ⟨_, rfl⟩
  | some reason =>
      by_cases blank : isNullOrWhiteSpace reason
      · exact Or.inl ⟨_, by simp only [openCrossTenantScope, blank, if_true]; rfl⟩
      · by_cases granted : canUseCrossTenantScope (currentActor provided scopes) operation
        · refine Or.inr ⟨granted, ?_⟩
          simp only [openCrossTenantScope, blank, granted, if_true, if_false,
            Bool.false_eq_true]
          rfl
        · exact Or.inl ⟨_, by
            simp only [openCrossTenantScope, blank, granted, if_false, Bool.false_eq_true]
            rfl⟩

/-- What a call that opens a scope can do: it throws and leaves everything, enters a scope,
enters the scope of all tenants one level deeper, or replaces the actor.
-/
theorem openBy_cases (provided : JobActor) (call : BeginCall) (scopes : DataAccessScopes)
    : (∃ exception, openBy provided call scopes = (.error exception, scopes))
      ∨ (∃ scope operation,
          (scope.includesAllTenants = true → scopes.crossTenantScopeDepth ≠ 0)
          ∧ openBy provided call scopes
            = (.ok (.scope scopes.currentScope scopes.currentOperation),
                { scopes with
                  currentScope := some scope
                  currentOperation := some operation }))
      ∨ (∃ operation reason,
          call = .crossTenantScope operation reason
          ∧ canUseCrossTenantScope (currentActor provided scopes) operation = true
          ∧ openBy provided call scopes
            = (.ok (.crossTenant (.scope scopes.currentScope scopes.currentOperation)
                  scopes.crossTenantScopeDepth),
                { scopes with
                  currentScope := some .allTenants
                  currentOperation := some operation
                  crossTenantScopeDepth := scopes.crossTenantScopeDepth + 1 }))
      ∨ ∃ actor,
          openBy provided call scopes
          = (.ok (.actor scopes.currentActor), { scopes with currentActor := some actor }) := by
  cases call with
  | scope scope operation =>
      rcases openScope_cases scope operation scopes with ⟨-, -, refused⟩ | entered
      · exact Or.inl refused
      · exact Or.inr (Or.inl ⟨scope, operation, entered⟩)
  | readScope scope =>
      rcases openScope_cases scope .read scopes with ⟨-, -, refused⟩ | entered
      · exact Or.inl refused
      · exact Or.inr (Or.inl ⟨scope, .read, entered⟩)
  | crossTenantScope operation reason =>
      rcases openCrossTenantScope_cases provided operation reason scopes with
        refused | entered
      · exact Or.inl refused
      · exact Or.inr (Or.inr (Or.inl ⟨operation, reason, rfl, entered⟩))
  | actorScope actor =>
      cases actor with
      | none => exact Or.inl ⟨_, rfl⟩
      | some actor => exact Or.inr (Or.inr (Or.inr ⟨actor, rfl⟩))

/-- A call that throws leaves the ambient values. -/
theorem openBy_threw {provided : JobActor} {call : BeginCall}
    {scopes left : DataAccessScopes} {exception : SchedulerException}
    (threw : openBy provided call scopes = (.error exception, left))
    : left = scopes := by
  rcases openBy_cases provided call scopes with ⟨_, refused⟩ | ⟨_, _, -, entered⟩
    | ⟨_, _, -, -, entered⟩ | ⟨_, entered⟩
  · cases refused.symm.trans threw
    rfl
  · cases entered.symm.trans threw
  · cases entered.symm.trans threw
  · cases entered.symm.trans threw

/-- Disposing puts back what was there when the scope was opened. -/
theorem run_openBy {provided : JobActor} {call : BeginCall}
    {scopes opened : DataAccessScopes} {action : DisposeAction}
    (opens : openBy provided call scopes = (.ok action, opened))
    : action.run opened = scopes := by
  rcases openBy_cases provided call scopes with ⟨exception, threw⟩ | ⟨_, _, -, entered⟩
    | ⟨_, _, -, -, entered⟩ | ⟨_, entered⟩
  · cases threw.symm.trans opens
  · cases entered.symm.trans opens
    rfl
  · cases entered.symm.trans opens
    rfl
  · cases entered.symm.trans opens
    rfl

end DataAccessScopeProvider

-----------------------------------------------------------------------------------------
-- Flows of control
-----------------------------------------------------------------------------------------

/-- A handle, with the call that opened it and the actor of that moment. -/
structure ScopeHandle where
  action : DisposeAction
  disposed : Bool
  call : BeginCall
  actor : JobActor
  deriving DecidableEq, Repr

/-- The ambient values, and the handles created so far, oldest first. -/
structure ScopeFlow where
  scopes : DataAccessScopes
  handles : List ScopeHandle
  deriving DecidableEq, Repr

/-- A call to the provider, which finds the given actor if none is scoped, or `Dispose` of
the handle created at a position.
-/
inductive ScopeInput
  | enter (provided : JobActor) (call : BeginCall)
  | dispose (position : Nat)

namespace ScopeFlow

/-- The start of a flow of control. -/
def start : ScopeFlow := ⟨.unset, []⟩

open DataAccessScopeProvider in
def enter (provided : JobActor) (call : BeginCall) (flow : ScopeFlow)
    : Option SchedulerException × ScopeFlow :=
  match openBy provided call flow.scopes with
  | (.error exception, scopes) => (some exception, { flow with scopes := scopes })
  | (.ok action, scopes) =>
      (none, ⟨scopes, flow.handles
        ++ [⟨action, false, call, currentActor provided flow.scopes⟩]⟩)

/-- `ScopeHandle.Dispose`, which runs its closure once. -/
def dispose (position : Nat) (flow : ScopeFlow) : ScopeFlow :=
  match flow.handles[position]? with
  | none => flow
  | some handle =>
      if handle.disposed then
        flow
      else
        ⟨handle.action.run flow.scopes,
          flow.handles.modify position (fun handle => { handle with disposed := true })⟩

def machine : Machine ScopeFlow ScopeInput (Option SchedulerException) where
  step flow
    | .enter provided call => flow.enter provided call
    | .dispose position => (none, flow.dispose position)

/-- A handle is disposed for the first time when all later ones have been disposed. -/
def InReverse (flow : ScopeFlow) : ScopeInput → Prop
  | .enter _ _ => True
  | .dispose position =>
      ∀ handle,
        flow.handles[position]? = some handle
        → handle.disposed = true
          ∨ ∀ later ∈ flow.handles.drop (position + 1), later.disposed = true

/-- The handles that have not been disposed, newest first. -/
def openHandles (flow : ScopeFlow) : List ScopeHandle :=
  (flow.handles.filter (fun handle => !handle.disposed)).reverse

end ScopeFlow

end JobScheduler
