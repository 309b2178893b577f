import JobScheduler.Ledger.Claims

/-! Any number of queued job workers over one store and one clock. Store calls are atomic
steps in any order. A reply that is late or lost, and a worker that has crashed, show as steps
the worker takes late or never.
-/

namespace JobScheduler

open Library JobLifecycleService

/-- A claim granted to a worker: the job it works on, the lease expiry granted last, and
whether its completion call is under way.
-/
structure WorkerClaim where
  snapshot : JobRecord
  leaseExpiresAt : DateTimeOffset
  completionIssued : Bool
  deriving DecidableEq, Repr

/-- The store call behind a renewal of the claim. -/
def WorkerClaim.renewal (held : WorkerClaim) (renewedAt leaseExpiresAt : DateTimeOffset)
    : StoreCall :=
  .renewLease held.snapshot.id held.snapshot.currentStateChangeId renewedAt leaseExpiresAt

/-- The store, the clock, and the claims granted so far, in the order they were granted. -/
structure WorkerSystem (State : Type) where
  store : State
  clock : DateTimeOffset
  claims : List WorkerClaim

/-- A step of the system. Workers are named by the position of their claim. -/
inductive WorkerInput (Caller : Type)
  | advance (clock : DateTimeOffset)
  | client (input : StoreInput Caller)
  | claim (caller : Caller) (ambient : Ambient) (now : DateTimeOffset) (workerId : String)
  | renew (index : Nat) (caller : Caller) (ambient : Ambient) (renewedAt : DateTimeOffset)
  | issueCompletion (index : Nat)
  | complete (index : Nat) (caller : Caller) (ambient : Ambient)
      (definitions : IJobDefinitionRegistry) (utcNow : DateTimeOffset)
      (result : JobExecutionResult)

/-- The calls of the other users of the store: they enqueue, read and acknowledge jobs. -/
def StoreCall.isClientCall : StoreCall → Bool
  | .add _ | .get _ | .list | .acknowledge _ _ _ => true
  | _ => false

namespace WorkerSystem

variable {State Caller : Type}

/-- A claim that `ProcessNextJobAsync` makes with a clock reading it has taken. -/
def claim (methods : IJobStore State) (leaseDuration : TimeSpan) (ambient : Ambient)
    (now : DateTimeOffset) (workerId : String) (system : WorkerSystem State)
    : WorkerSystem State :=
  match now.add leaseDuration with
  | .error _ => system
  | .ok leaseExpiresAt =>
      match claimNextDueJob methods ambient now workerId leaseExpiresAt system.store with
      | (.ok (some job), next) =>
          { system with store := next, claims := system.claims ++ [⟨job, leaseExpiresAt, false⟩] }
      | (_, next) => { system with store := next }

/-- A renewal that `RenewLeaseUntilExecutionStops` makes with a clock reading it has taken. -/
def renew (methods : IJobStore State) (leaseDuration : TimeSpan) (index : Nat)
    (renewedAt : DateTimeOffset) (system : WorkerSystem State)
    : WorkerSystem State :=
  match system.claims[index]?, renewedAt.add leaseDuration with
  | some held, .ok leaseExpiresAt =>
      match renewLease methods held.snapshot renewedAt leaseExpiresAt system.store with
      | (.ok true, next) =>
          { system with
            store := next
            claims := system.claims.modify index
              (fun held => { held with leaseExpiresAt := leaseExpiresAt }) }
      | (_, next) => { system with store := next }
  | _, _ => system

/-- The completion call at the end of `ProcessNextJobAsync` takes effect. -/
def complete (methods : IJobStore State) (index : Nat) (ambient : Ambient)
    (definitions : IJobDefinitionRegistry) (utcNow : DateTimeOffset)
    (result : JobExecutionResult) (system : WorkerSystem State)
    : WorkerSystem State :=
  match system.claims[index]? with
  | none => system
  | some held =>
      { system with
        store :=
          (completeExecution methods definitions utcNow ambient held.snapshot result
            system.store).2 }

def step (methods : Caller → IJobStore State) (leaseDuration : TimeSpan)
    (system : WorkerSystem State)
    : WorkerInput Caller → WorkerSystem State
  | .advance clock => { system with clock := clock }
  | .client input =>
      { system with
        store := ((methods input.caller).call input.ambient input.call system.store).2 }
  | .claim caller ambient now workerId =>
      system.claim (methods caller) leaseDuration ambient now workerId
  | .renew index caller _ renewedAt =>
      system.renew (methods caller) leaseDuration index renewedAt
  | .issueCompletion index =>
      { system with
        claims :=
          system.claims.modify index (fun held => { held with completionIssued := true }) }
  | .complete index caller ambient definitions utcNow result =>
      system.complete (methods caller) index ambient definitions utcNow result

/-- A claim step does nothing, makes a store call that grants no job, or lists the claim it
was granted.
-/
theorem claim_cases (methods : IJobStore State) (leaseDuration : TimeSpan)
    (ambient : Ambient) (now : DateTimeOffset) (workerId : String)
    (system : WorkerSystem State)
    : system.claim methods leaseDuration ambient now workerId = system
      ∨ ∃ leaseExpiresAt answer next,
          now.add leaseDuration = .ok leaseExpiresAt
          ∧ methods.call ambient (.tryClaimNextDueJob now workerId leaseExpiresAt) system.store
            = (answer, next)
          ∧ (system.claim methods leaseDuration ambient now workerId
                = { system with store := next }
            ∨ ∃ job,
                answer = .job (some job)
                ∧ system.claim methods leaseDuration ambient now workerId
                  = { system with
                      store := next
                      claims := system.claims ++ [⟨job, leaseExpiresAt, false⟩] }) := by
  unfold claim
  cases expiry : now.add leaseDuration with
  | error exception => exact Or.inl rfl
  | ok leaseExpiresAt =>
      rcases attempt : methods.tryClaimNextDueJob ambient now workerId leaseExpiresAt
        system.store with ⟨exception | _ | job, next⟩
      · refine Or.inr ⟨leaseExpiresAt, .threw exception, next, rfl, ?_, Or.inl ?_⟩
        · simp only [IJobStore.call, attempt]
          rfl
        · simp only [claimNextDueJob, attempt]
      · refine Or.inr ⟨leaseExpiresAt, .job none, next, rfl, ?_, Or.inl ?_⟩
        · simp only [IJobStore.call, attempt]
          rfl
        · simp only [claimNextDueJob, attempt]
      · refine Or.inr ⟨leaseExpiresAt, .job (some job), next, rfl, ?_, Or.inr ⟨job, rfl, ?_⟩⟩
        · simp only [IJobStore.call, attempt]
          rfl
        · simp only [claimNextDueJob, attempt]

/-- A renewal step does nothing, makes a renewal that is not accepted, or notes the lease it
was granted.
-/
theorem renew_cases (methods : IJobStore State) (leaseDuration : TimeSpan) (index : Nat)
    (ambient : Ambient) (renewedAt : DateTimeOffset) (system : WorkerSystem State)
    : system.renew methods leaseDuration index renewedAt = system
      ∨ ∃ held leaseExpiresAt answer next,
          system.claims[index]? = some held
          ∧ methods.call ambient (held.renewal renewedAt leaseExpiresAt) system.store
            = (answer, next)
          ∧ (answer ≠ .flag true
              ∧ system.renew methods leaseDuration index renewedAt
                = { system with store := next }
            ∨ answer = .flag true
              ∧ system.renew methods leaseDuration index renewedAt
                = { system with
                    store := next
                    claims := system.claims.modify index
                      (fun held => { held with leaseExpiresAt := leaseExpiresAt }) }) := by
  unfold renew
  cases listed : system.claims[index]? with
  | none => exact Or.inl rfl
  | some held =>
      cases expiry : renewedAt.add leaseDuration with
      | error exception => exact Or.inl rfl
      | ok leaseExpiresAt =>
          rcases attempt : methods.renewLease held.snapshot.id
            held.snapshot.currentStateChangeId renewedAt leaseExpiresAt system.store with
            ⟨exception | _ | _, next⟩
          · refine Or.inr ⟨held, leaseExpiresAt, .threw exception, next, rfl, ?_,
              Or.inl ⟨StoreAnswer.noConfusion, ?_⟩⟩
            · simp only [IJobStore.call, WorkerClaim.renewal, attempt]
              rfl
            · simp only [renewLease, attempt]
          · refine Or.inr ⟨held, leaseExpiresAt, .flag false, next, rfl, ?_,
              Or.inl ⟨by simp, ?_⟩⟩
            · simp only [IJobStore.call, WorkerClaim.renewal, attempt]
              rfl
            · simp only [renewLease, attempt]
          · refine Or.inr ⟨held, leaseExpiresAt, .flag true, next, rfl, ?_, Or.inr ⟨rfl, ?_⟩⟩
            · simp only [IJobStore.call, WorkerClaim.renewal, attempt]
              rfl
            · simp only [renewLease, attempt]

/-- A completion step does nothing, or makes a store call with the token of its claim. -/
theorem complete_cases (methods : IJobStore State) (index : Nat) (ambient : Ambient)
    (definitions : IJobDefinitionRegistry) (utcNow : DateTimeOffset)
    (result : JobExecutionResult) (system : WorkerSystem State)
    : system.complete methods index ambient definitions utcNow result = system
      ∨ ∃ held call,
          system.claims[index]? = some held
          ∧ Carries held.snapshot call
          ∧ system.complete methods index ambient definitions utcNow result
            = { system with store := (methods.call ambient call system.store).2 } := by
  unfold complete
  cases listed : system.claims[index]? with
  | none => exact Or.inl rfl
  | some held =>
      simp only [completeExecution_eq]
      cases issued : completionCall definitions utcNow held.snapshot result with
      | error exception => exact Or.inl rfl
      | ok issue => exact Or.inr ⟨held, issue.1, rfl, completionCall_carries issued, rfl⟩

/-- The store call behind a step, if it makes one. -/
def storeInput (leaseDuration : TimeSpan) (system : WorkerSystem State)
    : WorkerInput Caller → Option (StoreInput Caller)
  | .advance _ | .issueCompletion _ => none
  | .client input => some input
  | .claim caller ambient now workerId =>
      (now.add leaseDuration).toOption.map (fun leaseExpiresAt =>
        ⟨caller, ambient, .tryClaimNextDueJob now workerId leaseExpiresAt⟩)
  | .renew index caller ambient renewedAt =>
      match system.claims[index]?, renewedAt.add leaseDuration with
      | some held, .ok leaseExpiresAt =>
          some ⟨caller, ambient, held.renewal renewedAt leaseExpiresAt⟩
      | _, _ => none
  | .complete index caller ambient definitions utcNow result =>
      match system.claims[index]? with
      | none => none
      | some held =>
          (completionCall definitions utcNow held.snapshot result).toOption.map (fun issue =>
            ⟨caller, ambient, issue.1⟩)

/-- A step does to the store what its call does, one kind of step at a time. -/
theorem step_store (methods : Caller → IJobStore State) (leaseDuration : TimeSpan)
    (system : WorkerSystem State) (input : WorkerInput Caller)
    : (system.step methods leaseDuration input).store
      = match system.storeInput leaseDuration input with
        | none => system.store
        | some call => ((callMachine methods).step system.store call).2 := by
  cases input with
  | advance clock => rfl
  | issueCompletion index => rfl
  | client input => rfl
  | claim caller ambient now workerId =>
      simp only [step, claim, storeInput]
      cases now.add leaseDuration with
      | error exception => rfl
      | ok leaseExpiresAt =>
          simp only [claimNextDueJob, callMachine, IJobStore.call, Except.toOption,
            Option.map_some]
          rcases (methods caller).tryClaimNextDueJob ambient now workerId leaseExpiresAt
            system.store with ⟨_ | _ | _, next⟩ <;> rfl
  | renew index caller ambient renewedAt =>
      simp only [step, renew, storeInput]
      cases system.claims[index]? with
      | none => rfl
      | some held =>
          cases renewedAt.add leaseDuration with
          | error exception => rfl
          | ok leaseExpiresAt =>
              simp only [renewLease, callMachine, IJobStore.call, WorkerClaim.renewal]
              rcases (methods caller).renewLease held.snapshot.id
                held.snapshot.currentStateChangeId renewedAt leaseExpiresAt system.store with
                ⟨_ | _ | _, next⟩ <;> rfl
  | complete index caller ambient definitions utcNow result =>
      simp only [step, complete, storeInput]
      cases system.claims[index]? with
      | none => rfl
      | some held =>
          simp only [completeExecution_eq]
          cases completionCall definitions utcNow held.snapshot result <;> rfl

/-- What each kind of step asks of the store. -/
inductive Asks (leaseDuration : TimeSpan) (system : WorkerSystem State)
    : WorkerInput Caller → StoreInput Caller → Prop
  | client (input : StoreInput Caller) : Asks leaseDuration system (.client input) input
  | claim {caller : Caller} {ambient : Ambient} {now leaseExpiresAt : DateTimeOffset}
    {workerId : String} (added : now.add leaseDuration = .ok leaseExpiresAt)
    : Asks leaseDuration system (.claim caller ambient now workerId)
        ⟨caller, ambient, .tryClaimNextDueJob now workerId leaseExpiresAt⟩
  | renew {index : Nat} {caller : Caller} {ambient : Ambient}
    {renewedAt : DateTimeOffset} {held : WorkerClaim}
    (listed : system.claims[index]? = some held) (leaseExpiresAt : DateTimeOffset)
    : Asks leaseDuration system (.renew index caller ambient renewedAt)
        ⟨caller, ambient, held.renewal renewedAt leaseExpiresAt⟩
  | complete {index : Nat} {caller : Caller} {ambient : Ambient}
    {definitions : IJobDefinitionRegistry} {utcNow : DateTimeOffset}
    {result : JobExecutionResult} {held : WorkerClaim} {call : StoreCall}
    {completion : JobExecutionCompletion} (listed : system.claims[index]? = some held)
    (issued : completionCall definitions utcNow held.snapshot result = .ok (call, completion))
    : Asks leaseDuration system
        (.complete index caller ambient definitions utcNow result) ⟨caller, ambient, call⟩

/-- The store call of a step is one its kind asks for. -/
theorem asks_of_storeInput {leaseDuration : TimeSpan} {system : WorkerSystem State}
    {input : WorkerInput Caller} {call : StoreInput Caller}
    (called : system.storeInput leaseDuration input = some call)
    : Asks leaseDuration system input call := by
  cases input with
  | advance clock => cases called
  | issueCompletion index => cases called
  | client input =>
      cases called
      exact .client call
  | claim caller ambient now workerId =>
      simp only [storeInput] at called
      cases added : now.add leaseDuration with
      | error exception =>
          rw [added] at called
          cases called
      | ok leaseExpiresAt =>
          rw [added] at called
          cases called
          exact .claim added
  | renew index caller ambient renewedAt =>
      simp only [storeInput] at called
      split at called
      · rename_i held leaseExpiresAt listed _
        cases called
        exact .renew listed leaseExpiresAt
      · cases called
  | complete index caller ambient definitions utcNow result =>
      simp only [storeInput] at called
      cases listed : system.claims[index]? with
      | none =>
          rw [listed] at called
          cases called
      | some held =>
          rw [listed] at called
          cases issued : completionCall definitions utcNow held.snapshot result with
          | error exception =>
              simp only [issued] at called
              cases called
          | ok issue =>
              simp only [issued] at called
              cases called
              exact .complete listed issued

/-- The machine of a worker system; its steps answer nothing. -/
def machine (methods : Caller → IJobStore State) (leaseDuration : TimeSpan)
    : Machine (WorkerSystem State) (WorkerInput Caller) Unit where
  step system input := ((), system.step methods leaseDuration input)

/-- The steps of workers whose time arguments are readings of the one clock, taken before
the call takes effect. The clock does not run back and identifiers do not repeat.
-/
def Allowed (store : LawfulStore State Caller) (system : WorkerSystem State)
    : WorkerInput Caller → Prop
  | .advance clock => system.clock ≤ clock
  | .client input => store.Orderly system.store input ∧ input.call.isClientCall = true
  | .claim _ ambient now _ => ambient.Fresh (store.ledger system.store) ∧ now ≤ system.clock
  | .renew _ _ ambient renewedAt =>
      ambient.Fresh (store.ledger system.store) ∧ renewedAt ≤ system.clock
  | .issueCompletion _ => True
  | .complete index _ ambient _ _ _ =>
      ambient.Fresh (store.ledger system.store)
      ∧ ∀ held, system.claims[index]? = some held → held.completionIssued = true

theorem Allowed.advance {store : LawfulStore State Caller} {system : WorkerSystem State}
    {clock : DateTimeOffset} (later : system.clock ≤ clock)
    : system.Allowed store (.advance clock) :=
  later

/-- A claim counts as held while its lease lies ahead and no completion was issued. -/
def HeldNow (system : WorkerSystem State) (held : WorkerClaim) : Prop :=
  held.completionIssued = false ∧ system.clock < held.leaseExpiresAt

/-- No two claims on one job are held at a time. -/
def Exclusive (system : WorkerSystem State) : Prop :=
  ∀ (first second : Nat) (held other : WorkerClaim),
    system.claims[first]? = some held
    → system.claims[second]? = some other
    → held.snapshot.id = other.snapshot.id
    → system.HeldNow held
    → system.HeldNow other
    → first = second

/-- The system before its first step. -/
def start (store : LawfulStore State Caller) (clock : DateTimeOffset) : WorkerSystem State :=
  ⟨store.initial, clock, []⟩

end WorkerSystem

end JobScheduler
