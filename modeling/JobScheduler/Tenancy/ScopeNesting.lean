import JobScheduler.Tenancy.ScopeHandles

/-! Scopes nest. While handles are disposed in reverse order, the ambient values are those that
the open handles build up, one on top of the other; so a block that is left leaves nothing
behind, and all tenants are in scope only inside of a cross-tenant scope.
-/

namespace JobScheduler

open Library DataAccessScopeProvider

/-- The ambient values that open handles build up, the newest handle first. -/
inductive Nested : List ScopeHandle → DataAccessScopes → Prop
  | unset : Nested [] .unset
  | entered {handles : List ScopeHandle} {scopes opened : DataAccessScopes}
    {provided : JobActor} {call : BeginCall} {action : DisposeAction}
    (inner : Nested handles scopes)
    (opens : openBy provided call scopes = (.ok action, opened))
    : Nested (⟨action, false, call, currentActor provided scopes⟩ :: handles) opened

/-- What a call leaves behind does not depend on the actor of the request, if it succeeds. -/
theorem openBy_opened {provided other : JobActor} {call : BeginCall}
    {scopes opened again : DataAccessScopes} {action otherAction : DisposeAction}
    (opens : openBy provided call scopes = (.ok action, opened))
    (reopens : openBy other call scopes = (.ok otherAction, again))
    : opened = again := by
  cases call with
  | scope | readScope | actorScope =>
      cases opens.symm.trans reopens
      rfl
  | crossTenantScope operation reason =>
      rcases openCrossTenantScope_cases provided operation reason scopes with
        ⟨_, threw⟩ | ⟨-, entered⟩
      · cases threw.symm.trans opens
      · rcases openCrossTenantScope_cases other operation reason scopes with
          ⟨_, threw⟩ | ⟨-, reentered⟩
        · cases threw.symm.trans reopens
        · cases entered.symm.trans opens
          cases reentered.symm.trans reopens
          rfl

/-- The open handles determine the ambient values, by induction on the handles. -/
theorem Nested.unique {handles : List ScopeHandle} {scopes other : DataAccessScopes}
    (nested : Nested handles scopes) (otherwise : Nested handles other)
    : scopes = other := by
  induction nested generalizing other with
  | unset =>
      cases otherwise
      rfl
  | entered inner opens ih =>
      generalize held : (ScopeHandle.mk _ _ _ _ :: _) = handles at otherwise
      cases otherwise with
      | unset => cases held
      | entered innerAgain opensAgain =>
          obtain ⟨same, rfl⟩ := List.cons.inj held
          cases ih innerAgain
          cases congrArg ScopeHandle.call same
          exact openBy_opened opens opensAgain

/-- The handle comes from a cross-tenant scope, and its actor was allowed to open it. -/
def ScopeHandle.IsPrivileged (handle : ScopeHandle) : Prop :=
  ∃ operation reason,
    handle.call = .crossTenantScope operation reason
    ∧ canUseCrossTenantScope handle.actor operation = true

/-- Below the surface there is an open cross-tenant scope, by induction on the handles. -/
theorem Nested.isPrivileged {handles : List ScopeHandle} {scopes : DataAccessScopes}
    (nested : Nested handles scopes) (deep : scopes.crossTenantScopeDepth ≠ 0)
    : ∃ handle ∈ handles, handle.IsPrivileged := by
  induction nested with
  | unset => exact absurd rfl deep
  | @entered handles scopes opened provided call action inner opens ih =>
      have older (below : scopes.crossTenantScopeDepth ≠ 0)
          : ∃ handle ∈ (⟨action, false, call, currentActor provided scopes⟩ :: handles),
              ScopeHandle.IsPrivileged handle := by
        obtain ⟨handle, member, privileged⟩ := ih below
        exact ⟨handle, List.mem_cons_of_mem _ member, privileged⟩
      rcases openBy_cases provided call scopes with ⟨_, threw⟩ | ⟨_, _, -, entered⟩
        | ⟨operation, reason, rfl, granted, -⟩ | ⟨_, entered⟩
      · cases threw.symm.trans opens
      · cases entered.symm.trans opens
        exact older deep
      · exact ⟨_, List.mem_cons_self, operation, reason, rfl, granted⟩
      · cases entered.symm.trans opens
        exact older deep

/-- All tenants are in scope below the surface only, by induction on the handles. -/
theorem Nested.deep_of_allTenants {handles : List ScopeHandle} {scopes : DataAccessScopes}
    (nested : Nested handles scopes) {scope : DataAccessScope}
    (entered : scopes.currentScope = some scope) (all : scope.includesAllTenants = true)
    : scopes.crossTenantScopeDepth ≠ 0 := by
  induction nested with
  | unset => cases entered
  | @entered handles scopes opened provided call action inner opens ih =>
      rcases openBy_cases provided call scopes with ⟨_, threw⟩ | ⟨other, _, allowed, enters⟩
        | ⟨_, _, -, -, enters⟩ | ⟨_, enters⟩
      · cases threw.symm.trans opens
      · cases enters.symm.trans opens
        cases entered
        exact allowed all
      · cases enters.symm.trans opens
        exact Nat.succ_ne_zero _
      · cases enters.symm.trans opens
        exact ih entered

namespace ScopeFlow

/-- A flow reached while handles are disposed in reverse order. -/
def Reached (first second : ScopeFlow) : Prop := machine.Reaches InReverse first second

theorem openHandles_concat (scopes : DataAccessScopes) (handles : List ScopeHandle)
    (handle : ScopeHandle) (opened : handle.disposed = false)
    : openHandles ⟨scopes, handles ++ [handle]⟩
      = handle :: openHandles ⟨scopes, handles⟩ := by
  simp [openHandles, opened]

/-- Disposing the last open handle closes it and no other. -/
theorem openHandles_dispose {flow : ScopeFlow} {position : Nat} {handle : ScopeHandle}
    (found : flow.handles[position]? = some handle) (pending : handle.disposed = false)
    (later : ∀ other ∈ flow.handles.drop (position + 1), other.disposed = true)
    : flow.openHandles = handle :: (flow.dispose position).openHandles := by
  obtain ⟨bound, rfl⟩ := List.getElem?_eq_some_iff.mp found
  have closed
      : (flow.handles.drop (position + 1)).filter (fun handle => !handle.disposed) = [] := by
    apply List.filter_eq_nil_iff.mpr
    intro other member
    simp [later other member]
  have before
      : flow.handles.filter (fun handle => !handle.disposed)
        = (flow.handles.take position).filter (fun handle => !handle.disposed)
          ++ [flow.handles[position]] := by
    calc flow.handles.filter (fun handle => !handle.disposed)
      _ = (flow.handles.take position
            ++ flow.handles[position] :: flow.handles.drop (position + 1)).filter
              (fun handle => !handle.disposed) := by
          rw [← List.drop_eq_getElem_cons, List.take_append_drop]
      _ = (flow.handles.take position).filter (fun handle => !handle.disposed)
            ++ [flow.handles[position]] := by
          rw [List.filter_append, List.filter_cons_of_pos (by simp [pending]), closed]
  have after
      : (flow.dispose position).handles
        = flow.handles.take position
          ++ { flow.handles[position] with disposed := true }
            :: flow.handles.drop (position + 1) := by
    simp only [dispose, found, pending, Bool.false_eq_true, if_false]
    exact List.modify_eq_take_cons_drop bound
  unfold openHandles
  rw [before, after, List.filter_append, List.filter_cons_of_neg (by simp), closed,
    List.append_nil, List.reverse_concat]

/-- The open handles build up the ambient values, after every step. -/
theorem nested_step {flow : ScopeFlow} (input : ScopeInput)
    (nested : Nested flow.openHandles flow.scopes) (inReverse : flow.InReverse input)
    : Nested (machine.step flow input).2.openHandles (machine.step flow input).2.scopes := by
  cases input with
  | enter provided call =>
      change Nested (flow.enter provided call).2.openHandles (flow.enter provided call).2.scopes
      unfold enter
      rcases attempt : openBy provided call flow.scopes with ⟨_ | action, opened⟩
      · rw [openBy_threw attempt]
        exact nested
      · rw [openHandles_concat _ _ _ rfl]
        exact .entered nested attempt
  | dispose position =>
      change Nested (flow.dispose position).openHandles (flow.dispose position).scopes
      cases found : flow.handles[position]? with
      | none =>
          simp only [dispose, found]
          exact nested
      | some handle =>
          cases pending : handle.disposed with
          | true =>
              simp only [dispose, found, pending, if_true]
              exact nested
          | false =>
              have later : ∀ other ∈ flow.handles.drop (position + 1),
                  other.disposed = true := by
                apply (inReverse handle found).resolve_left
                simp [pending]
              rw [openHandles_dispose found pending later] at nested
              generalize (flow.dispose position).openHandles = remaining at nested ⊢
              simp only [dispose, found, pending, Bool.false_eq_true, if_false]
              generalize built : flow.scopes = scopes at nested ⊢
              cases nested with
              | entered inner opens =>
                  rw [run_openBy opens]
                  exact inner

/-- From the start on, the open handles build up the ambient values. -/
theorem nested_of_reached {flow : ScopeFlow} (reached : Reached .start flow)
    : Nested flow.openHandles flow.scopes :=
  reached.preserves (P := fun flow => Nested flow.openHandles flow.scopes)
    (fun _ input nested inReverse => nested_step input nested inReverse) .unset

/-- The open handles are those of before, once all that came later have been disposed. -/
theorem openHandles_of_closed {flow later : ScopeFlow}
    (kept : later.handles.take flow.handles.length = flow.handles)
    (closed : ∀ handle ∈ later.handles.drop flow.handles.length, handle.disposed = true)
    : later.openHandles = flow.openHandles := by
  have none_open
      : (later.handles.drop flow.handles.length).filter (fun handle => !handle.disposed)
        = [] := by
    apply List.filter_eq_nil_iff.mpr
    intro handle member
    simp [closed handle member]
  unfold openHandles
  rw [← List.take_append_drop flow.handles.length later.handles, kept, List.filter_append,
    none_open, List.append_nil]

/-- In any scope of the provider, the scope of a store call is entered again. -/
theorem beginOperation_succeeds {flow : ScopeFlow} (reached : Reached .start flow)
    (provided : JobActor) (operation : DataAccessOperation)
    : ∃ action opened, beginOperation provided operation flow.scopes = (.ok action, opened) := by
  have nested := nested_of_reached reached
  unfold beginOperation current
  cases entered : flow.scopes.currentScope with
  | none =>
      rw [(currentActor provided flow.scopes).tenant_eq]
      exact ⟨_, _, rfl⟩
  | some scope =>
      rcases openScope_cases scope operation flow.scopes with ⟨all, outside, -⟩ | ⟨-, opens⟩
      · exact absurd outside (nested.deep_of_allTenants entered all)
      · exact ⟨_, _, opens⟩

end ScopeFlow

-----------------------------------------------------------------------------------------
-- Safe nesting
-----------------------------------------------------------------------------------------

/-- What the ambient values of a flow are at any moment, seen from one earlier moment. -/
structure NestsSafely (flow : ScopeFlow) : Prop where
  restores
    : ∀ later,
        ScopeFlow.Reached flow later
        → later.handles.take flow.handles.length = flow.handles
        → (∀ handle ∈ later.handles.drop flow.handles.length, handle.disposed = true)
        → later.scopes = flow.scopes
  throws
    : ∀ provided call exception,
        (flow.enter provided call).1 = some exception
        → (flow.enter provided call).2 = flow
  privileged
    : ∀ provided scope,
        current provided flow.scopes = .ok scope
        → scope.includesAllTenants = true
        → ∃ handle ∈ flow.handles, handle.disposed = false ∧ handle.IsPrivileged
  reentered
    : ∀ provided operation,
        ∃ action opened, beginOperation provided operation flow.scopes = (.ok action, opened)

/-- Scopes nest safely, since the open handles determine the ambient values. -/
theorem scopes_nest_safely (flow : ScopeFlow) (reached : ScopeFlow.Reached .start flow)
    : NestsSafely flow where
  restores later continued kept closed := by
    apply (ScopeFlow.nested_of_reached (reached.trans continued)).unique
    rw [ScopeFlow.openHandles_of_closed kept closed]
    exact ScopeFlow.nested_of_reached reached
  throws provided call exception threw := by
    unfold ScopeFlow.enter at threw ⊢
    rcases attempt : openBy provided call flow.scopes with ⟨_ | action, opened⟩
    · rw [openBy_threw attempt]
    · rw [attempt] at threw
      cases threw
  privileged provided scope provides all := by
    have nested := ScopeFlow.nested_of_reached reached
    unfold current at provides
    cases entered : flow.scopes.currentScope with
    | none =>
        rw [entered] at provides
        cases ((currentActor provided flow.scopes).tenant_eq).symm.trans provides
        cases all
    | some held =>
        rw [entered] at provides
        cases provides
        obtain ⟨handle, member, privileged⟩ :=
          nested.isPrivileged (nested.deep_of_allTenants entered all)
        have stillOpen : handle ∈ flow.handles ∧ handle.disposed = false := by
          simpa [ScopeFlow.openHandles] using member
        exact ⟨handle, stillOpen.1, stillOpen.2, privileged⟩
  reentered := ScopeFlow.beginOperation_succeeds reached

def sweeper : JobActor :=
  ⟨"sweeper", "maintenance", [JobPermissions.execute], by decide, by decide⟩

/-- A sweep over all tenants that enters one of them, fails to name a reason, leaves the
tenant again and disposes its handle once more.
-/
def sweep : List ScopeInput :=
  [.enter sweeper (.crossTenantScope .mutate (some "sweep")),
    .enter sweeper (.scope sweeper.tenantScope .read),
    .enter sweeper (.crossTenantScope .read none),
    .dispose 1,
    .dispose 1]

/-- After the sweep has left the tenant, all tenants are in scope, for one open handle. -/
theorem scopes_nest_safely_sweep
    : current sweeper (ScopeFlow.machine.run .start sweep).2.scopes = .ok .allTenants
      ∧ (ScopeFlow.machine.run .start sweep).2.openHandles.length = 1
      ∧ NestsSafely (ScopeFlow.machine.run .start sweep).2 := by
  refine ⟨by decide, by decide, ?_⟩
  apply scopes_nest_safely
  apply Machine.reaches_run
  refine ⟨trivial, trivial, trivial, ?_, ?_, trivial⟩
  · intro handle _
    exact Or.inr (by decide)
  · intro handle found
    cases found
    exact Or.inl rfl

end JobScheduler
