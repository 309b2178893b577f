import JobScheduler.DataAccess.FilterLifetime
import JobScheduler.Tenancy.ScopeNesting

/-! `DataAccessScopedJobStore`, between its callers and a store that looks up its context in the
ambient values. Scopes that nest make it answer every call as a store does that is handed the
context, with the operation of the call.
-/

namespace JobScheduler

open Library DataAccessScopeProvider

/-- The ambient values of a flow of control, and the state of the store it calls. -/
abbrev ScopedState (State : Type) : Type := DataAccessScopes × State

section Methods

variable {State Answer : Type} (provided : JobActor)

/-- A method of a store that asks the scope provider for its context, and sets no scope itself. -/
def StoreMethod.underScopes (method : DataAccessPolicyContext → StoreMethod State Answer)
    : StoreMethod (ScopedState State) Answer := fun (scopes, state) =>
  match policyContext provided scopes with
  | .error exception => (.error exception, scopes, state)
  | .ok context =>
      let (answer, next) := method context state
      (answer, scopes, next)

/-- The store of whatever context its callers are in. -/
def IJobStore.underScopes (storeIn : DataAccessPolicyContext → IJobStore State)
    : IJobStore (ScopedState State) where
  add ambient job := .underScopes provided (fun context => (storeIn context).add ambient job)
  get id := .underScopes provided (fun context => (storeIn context).get id)
  list := .underScopes provided (fun context => (storeIn context).list)
  tryClaimNextDueJob ambient now workerId leaseExpiresAt :=
    .underScopes provided (fun context =>
      (storeIn context).tryClaimNextDueJob ambient now workerId leaseExpiresAt)
  renewLease id token renewedAt leaseExpiresAt :=
    .underScopes provided (fun context =>
      (storeIn context).renewLease id token renewedAt leaseExpiresAt)
  markCompleted ambient id token :=
    .underScopes provided (fun context => (storeIn context).markCompleted ambient id token)
  markFailed ambient id token reason :=
    .underScopes provided (fun context => (storeIn context).markFailed ambient id token reason)
  scheduleRetry ambient id token reason scheduledAt :=
    .underScopes provided (fun context =>
      (storeIn context).scheduleRetry ambient id token reason scheduledAt)
  acknowledge id acknowledgedBy acknowledgedAt :=
    .underScopes provided (fun context =>
      (storeIn context).acknowledge id acknowledgedBy acknowledgedAt)

namespace DataAccessScopedJobStore

/-- The `using` block of a method: the handle is disposed whether the inner store answers or
throws.
-/
def inOperation (operation : DataAccessOperation)
    (method : StoreMethod (ScopedState State) Answer)
    : StoreMethod (ScopedState State) Answer := fun (scopes, state) =>
  match beginOperation provided operation scopes with
  | (.error exception, scopes) => (.error exception, scopes, state)
  | (.ok scope, scopes) =>
      let (answer, scopes, state) := method (scopes, state)
      (answer, scope.run scopes, state)

/-- The methods over those of the inner store. -/
def methods (inner : IJobStore (ScopedState State)) : IJobStore (ScopedState State) where
  add ambient job := inOperation provided .mutate (inner.add ambient job)
  get id := inOperation provided .read (inner.get id)
  list := inOperation provided .read inner.list
  tryClaimNextDueJob ambient now workerId leaseExpiresAt :=
    inOperation provided .mutate
      (inner.tryClaimNextDueJob ambient now workerId leaseExpiresAt)
  renewLease id token renewedAt leaseExpiresAt :=
    inOperation provided .mutate (inner.renewLease id token renewedAt leaseExpiresAt)
  markCompleted ambient id token :=
    inOperation provided .mutate (inner.markCompleted ambient id token)
  markFailed ambient id token reason :=
    inOperation provided .mutate (inner.markFailed ambient id token reason)
  scheduleRetry ambient id token reason scheduledAt :=
    inOperation provided .mutate (inner.scheduleRetry ambient id token reason scheduledAt)
  acknowledge id acknowledgedBy acknowledgedAt :=
    inOperation provided .mutate (inner.acknowledge id acknowledgedBy acknowledgedAt)

end DataAccessScopedJobStore

end Methods

-----------------------------------------------------------------------------------------
-- Flows of control that call the store
-----------------------------------------------------------------------------------------

/-- What a flow of control does: it opens and disposes scopes, and calls the store while the
actor provider gives this actor.
-/
inductive ScopedInput
  | scope (input : ScopeInput)
  | call (provided : JobActor) (ambient : Ambient) (call : StoreCall)

/-- What it gets to see. -/
inductive ScopedAnswer
  | scope (thrown : Option SchedulerException)
  | call (answer : StoreAnswer)
  deriving DecidableEq, Repr

namespace DataAccessScopedJobStore

variable {State : Type} (storeIn : DataAccessPolicyContext → IJobStore State)

/-- A flow of control that calls the store through its scopes. -/
def machine : Machine (ScopeFlow × State) ScopedInput ScopedAnswer where
  step
    | (flow, state), .scope input =>
        let (thrown, flow) := ScopeFlow.machine.step flow input
        (.scope thrown, flow, state)
    | (flow, state), .call provided ambient call =>
        let store := methods provided (IJobStore.underScopes provided storeIn)
        let (answer, scopes, state) := store.call ambient call (flow.scopes, state)
        (.call answer, { flow with scopes := scopes }, state)

end DataAccessScopedJobStore

/-- The operation a call belongs to: reads read, and everything else mutates. -/
def StoreCall.operation : StoreCall → DataAccessOperation
  | .get _ | .list => .read
  | _ => .mutate

namespace ScopeFlow

/-- The context of a store call: the acting actor and the current scope. The scope of the actor's
own tenant is current outside of all scopes.
-/
def contextOf (flow : ScopeFlow) (provided : JobActor) (call : StoreCall)
    : DataAccessPolicyContext :=
  ⟨currentActor provided flow.scopes,
    flow.scopes.currentScope.getD (currentActor provided flow.scopes).tenantScope,
    call.operation⟩

/-- The same flow without its store calls, and these calls, each with the context that the scopes
give it.
-/
def scopedCalls : ScopeFlow → List ScopedInput → List ScopedCall
  | _, [] => []
  | flow, .scope input :: rest => scopedCalls (machine.step flow input).2 rest
  | flow, .call provided ambient call :: rest =>
      ⟨flow.contextOf provided call, ambient, call⟩ :: scopedCalls flow rest

end ScopeFlow

/-- A store answers calls that come with their contexts. -/
def ScopedCall.machine {State : Type} (storeIn : DataAccessPolicyContext → IJobStore State)
    : Machine State ScopedCall StoreAnswer where
  step state input := (storeIn input.context).call input.ambient input.call state

def ScopedInput.scope? : ScopedInput → Option ScopeInput
  | .scope input => some input
  | .call _ _ _ => none

def ScopedAnswer.scope? : ScopedAnswer → Option (Option SchedulerException)
  | .scope thrown => some thrown
  | .call _ => none

def ScopedAnswer.call? : ScopedAnswer → Option StoreAnswer
  | .scope _ => none
  | .call answer => some answer

-----------------------------------------------------------------------------------------
-- The calls of a flow
-----------------------------------------------------------------------------------------

namespace DataAccessScopedJobStore

variable {State : Type} {storeIn : DataAccessPolicyContext → IJobStore State}

/-- Where the current scope can be entered again, a method runs under it and its own operation,
and the ambient values are afterwards what they were.
-/
theorem inOperation_underScopes {Answer : Type} {provided : JobActor}
    {scopes opened : DataAccessScopes} {scope : DataAccessScope} {action : DisposeAction}
    {operation : DataAccessOperation} (provides : current provided scopes = .ok scope)
    (enters : beginOperation provided operation scopes = (.ok action, opened))
    (method : DataAccessPolicyContext → StoreMethod State Answer) (state : State)
    : inOperation provided operation (.underScopes provided method) (scopes, state)
      = ((method ⟨currentActor provided scopes, scope, operation⟩ state).1, scopes,
          (method ⟨currentActor provided scopes, scope, operation⟩ state).2) := by
  have reopened := enters
  simp only [beginOperation, provides] at reopened
  rcases openScope_cases scope operation scopes with ⟨-, -, exception, threw⟩ | ⟨-, entered⟩
  · cases threw.symm.trans reopened
  · cases entered.symm.trans reopened
    simp only [inOperation, enters]
    rfl

/-- Between scopes that nest there is always a current scope. -/
theorem current_eq (flow : ScopeFlow) (provided : JobActor)
    : current provided flow.scopes
      = .ok (flow.scopes.currentScope.getD
          (currentActor provided flow.scopes).tenantScope) := by
  unfold current
  cases flow.scopes.currentScope with
  | none => exact (currentActor provided flow.scopes).tenant_eq
  | some scope => rfl

/-- A call is answered as in the context that the scopes give it, and leaves them as they are. -/
theorem call_eq {flow : ScopeFlow} (reached : ScopeFlow.Reached .start flow)
    (provided : JobActor) (ambient : Ambient) (call : StoreCall) (state : State)
    : (methods provided (IJobStore.underScopes provided storeIn)).call ambient call
          (flow.scopes, state)
      = (((storeIn (flow.contextOf provided call)).call ambient call state).1, flow.scopes,
          ((storeIn (flow.contextOf provided call)).call ambient call state).2) := by
  obtain ⟨action, opened, enters⟩ :=
    ScopeFlow.beginOperation_succeeds reached provided call.operation
  have runs {Answer : Type} (method : DataAccessPolicyContext → StoreMethod State Answer) :=
    inOperation_underScopes (current_eq flow provided) enters method state
  cases call <;> simp only [IJobStore.call, methods, IJobStore.underScopes] <;>
    simp only [StoreCall.operation] at runs <;> simp only [runs] <;> rfl

/-- A flow of control that nests its scopes is two things that do not touch each other: its
scopes, which the calls leave alone, and the store, which answers each call in the context that
the scopes give it. By induction on what the flow does.
-/
theorem scoped_store_follows_scopes {flow : ScopeFlow} {state : State}
    {inputs : List ScopedInput} (reached : ScopeFlow.Reached .start flow)
    (nests
      : ScopeFlow.machine.AlongSteps ScopeFlow.InReverse flow
          (inputs.filterMap ScopedInput.scope?))
    : ((machine storeIn).run (flow, state) inputs).1.filterMap ScopedAnswer.scope?
        = (ScopeFlow.machine.run flow (inputs.filterMap ScopedInput.scope?)).1
      ∧ ((machine storeIn).run (flow, state) inputs).1.filterMap ScopedAnswer.call?
        = ((ScopedCall.machine storeIn).run state (flow.scopedCalls inputs)).1
      ∧ ((machine storeIn).run (flow, state) inputs).2
        = ((ScopeFlow.machine.run flow (inputs.filterMap ScopedInput.scope?)).2,
            ((ScopedCall.machine storeIn).run state (flow.scopedCalls inputs)).2) := by
  induction inputs generalizing flow state with
  | nil => exact ⟨rfl, rfl, rfl⟩
  | cons input rest ih =>
      cases input with
      | scope input =>
          obtain ⟨thrown, answers, final⟩ := @ih (ScopeFlow.machine.step flow input).2 state
            (reached.step nests.1) nests.2
          exact ⟨congrArg (List.cons _) thrown, answers, final⟩
      | call provided ambient call =>
          have answered : (machine storeIn).step (flow, state) (.call provided ambient call)
              = (.call ((storeIn (flow.contextOf provided call)).call ambient call state).1, flow,
                  ((storeIn (flow.contextOf provided call)).call ambient call state).2) := by
            simp only [machine, call_eq reached]
          obtain ⟨thrown, answers, final⟩ := @ih flow
            ((storeIn (flow.contextOf provided call)).call ambient call state).2 reached nests
          rw [Machine.run_cons, answered]
          exact ⟨thrown, congrArg (List.cons _) answers, final⟩

end DataAccessScopedJobStore

/-- A sweep lists the jobs of all tenants, claims one of its own tenant, leaves this tenant twice,
and lists all jobs again.
-/
def sweepCalls : List ScopedInput :=
  [.scope (.enter sweeper (.crossTenantScope .mutate (some "sweep"))),
    .call sweeper (smallAmbient 1) .list,
    .scope (.enter sweeper (.scope sweeper.tenantScope .read)),
    .call sweeper (smallAmbient 2) (.tryClaimNextDueJob (.ofTicks 2) "sweeper" (.ofTicks 9)),
    .scope (.dispose 1),
    .scope (.dispose 1),
    .call sweeper (smallAmbient 3) .list]

/-- Its listings read all tenants, and its claim updates the one tenant. -/
theorem scoped_store_follows_scopes_sweep
    : (ScopeFlow.start.scopedCalls sweepCalls).map ScopedCall.context
        = [⟨sweeper, .allTenants, .read⟩, ⟨sweeper, sweeper.tenantScope, .mutate⟩,
            ⟨sweeper, .allTenants, .read⟩]
      ∧ ((DataAccessScopedJobStore.machine DbContextFactory.store).run
            (.start, .start .dueJob) sweepCalls).1.filterMap ScopedAnswer.call?
        = (DbContextFactory.machine.run (.start .dueJob)
            (ScopeFlow.start.scopedCalls sweepCalls)).1 := by
  refine ⟨by decide, ?_⟩
  refine (DataAccessScopedJobStore.scoped_store_follows_scopes (.refl _) ?_).2.1
  refine ⟨trivial, trivial, ?_, ?_, trivial⟩
  · intro handle _
    exact Or.inr (by decide)
  · intro handle found
    cases found
    exact Or.inl rfl

end JobScheduler
