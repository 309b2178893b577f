import JobScheduler.Ledger.Ledger
import JobScheduler.Library.Machine

/-! Stores that follow the ledger, and the machine that runs calls against a store. Each
call of a run comes from its own caller, with its own clock readings and identifiers.
-/

namespace JobScheduler

open Library

/-- One call with the caller it runs for and what it reads from its surroundings. -/
structure StoreInput (Caller : Type) where
  caller : Caller
  ambient : Ambient
  call : StoreCall

/-- Calls run one after the other against the methods their callers see. -/
def callMachine {State Caller : Type} (methods : Caller → IJobStore State)
    : Machine State (StoreInput Caller) StoreAnswer where
  step state input := (methods input.caller).call input.ambient input.call state

/-- Jobs are added as `Enqueue` and `Schedule` make them; other calls are not restricted. -/
def StoreCall.Admissible (call : StoreCall) : Prop :=
  ∀ job, call = .add job → job.NewlyMade

/-- Claims add no job. -/
theorem StoreCall.admissible_claim (now : DateTimeOffset) (workerId : String)
    (leaseExpiresAt : DateTimeOffset)
    : (StoreCall.tryClaimNextDueJob now workerId leaseExpiresAt).Admissible := by
  intro job added
  cases added

/-- A store whose calls follow the ledger, in the states that satisfy its invariant. -/
structure LawfulStore (State Caller : Type) where
  methods : Caller → IJobStore State
  initial : State
  ledger : State → Ledger
  visible : Caller → JobRecord → Bool
  nextDue : Caller → State → DateTimeOffset → Option JobRecord
  Sound : State → Prop
  initiallySound : Sound initial
  initiallyEmpty : (ledger initial).rows = []
  /-- What a caller sees of a job depends on who owns the job. -/
  ownership
    : ∀ caller (job other : JobRecord),
        job.tenantId = other.tenantId
        → job.createdByActorId = other.createdByActorId
        → visible caller job = visible caller other
  follows
    : ∀ caller ambient call state,
        Sound state
        → call.Admissible
        → LedgerStep (visible caller) (nextDue caller state) ambient (ledger state) call
            ((methods caller).call ambient call state).1
            (ledger ((methods caller).call ambient call state).2)
  stays
    : ∀ caller ambient call state,
        Sound state → call.Admissible → Sound ((methods caller).call ambient call state).2
  /-- A valid claim takes the job the store looks at first, if it is pending or expired and
  the identifiers drawn are not stored. -/
  claims
    : ∀ caller ambient state now workerId leaseExpiresAt job,
        Sound state
        → nextDue caller state now = some job
        → (job.isPending = true ∨ job.LeaseExpired now)
        → JobRecord.ValidClaim workerId now leaseExpiresAt
        → ambient.Fresh (ledger state)
        → ∃ next,
            (methods caller).call ambient
                (.tryClaimNextDueJob now workerId leaseExpiresAt) state
              = (.job (some (job.claimedUnder ambient now workerId leaseExpiresAt)), next)
            ∧ ledger next
              = (ledger state).set (job.claimedUnder ambient now workerId leaseExpiresAt)
  /-- A revision that is not accepted leaves the whole state behind as it was. -/
  refusalKeeps
    : ∀ caller ambient call state revision,
        Sound state
        → call.revision ambient = some revision
        → ((methods caller).call ambient call state).1 ≠ .flag true
        → ((methods caller).call ambient call state).2 = state

namespace LawfulStore

variable {State Caller : Type} (store : LawfulStore State Caller)

/-- The machine of a lawful store. -/
abbrev machine : Machine State (StoreInput Caller) StoreAnswer := callMachine store.methods

/-- The stored jobs in a state. -/
def jobs (state : State) : List JobRecord := (store.ledger state).rows

/-- States reached from the empty store through admissible calls. -/
def Reachable (state : State) : Prop :=
  store.machine.Reaches (fun _ input => input.call.Admissible) store.initial state

variable {store}

/-- The invariant of the store holds in every reachable state. -/
theorem Reachable.sound {state : State} (reached : store.Reachable state)
    : store.Sound state :=
  reached.preserves
    (fun _ input sound admissible => store.stays input.caller _ _ _ sound admissible)
    store.initiallySound

/-- No job is stored in the beginning. -/
theorem initially_forall (P : JobRecord → Prop) : ∀ job ∈ store.jobs store.initial, P job := by
  simp [jobs, store.initiallyEmpty]

/-- A revision is made on a visible job that passes its test; otherwise the state stays,
and the call is refused, or it drew an identifier that is stored.
-/
theorem revision_cases {caller : Caller} {ambient : Ambient} {call : StoreCall}
    {state : State} {revision : Revision} (sound : store.Sound state)
    (revises : call.revision ambient = some revision)
    : (∃ job next,
        (store.methods caller).call ambient call state = (.flag true, next)
        ∧ (store.ledger state).find? revision.jobId = some job
        ∧ store.visible caller job = true
        ∧ revision.enabled job = true
        ∧ store.ledger next = (store.ledger state).set (revision.change job))
      ∨ ((store.methods caller).call ambient call state = (.flag false, state)
        ∧ ∀ job,
            (store.ledger state).find? revision.jobId = some job
            → store.visible caller job = true
            → revision.enabled job = false)
      ∨ ((store.methods caller).call ambient call state = (.threw .dbUpdate, state)
        ∧ ¬ ambient.Fresh (store.ledger state)
        ∧ ∃ job,
            (store.ledger state).find? revision.jobId = some job
            ∧ revision.enabled job = true) := by
  have admissible : call.Admissible := by
    rintro job rfl
    cases revises
  have step := store.follows caller ambient call state sound admissible
  have keeps := store.refusalKeeps caller ambient call state revision sound revises
  generalize outcome : (store.methods caller).call ambient call state = result at step keeps
  obtain ⟨answer, next⟩ := result
  generalize after : store.ledger next = ledger at step
  cases step with
  | added | got | listed | claimed | nothingClaimed => cases revises
  | threw exception other => cases other.symm.trans revises
  | revised again stored seen enabled =>
      cases again.symm.trans revises
      exact Or.inl ⟨_, next, rfl, stored, seen, enabled, after⟩
  | refused again disabled =>
      cases again.symm.trans revises
      have same : next = state := keeps (by simp)
      exact Or.inr (Or.inl ⟨by rw [same], disabled⟩)
  | conflicted again stored seen enabled repeated =>
      cases again.symm.trans revises
      have same : next = state := keeps (by simp)
      exact Or.inr (Or.inr ⟨by rw [same], repeated, _, stored, enabled⟩)

/-- A property of single jobs that record steps keep holds of every job in every state
reached through inputs that satisfy `Q`, by the ledger's rule at each step.
-/
theorem jobs_reached {P : JobRecord → Prop} {Q : State → StoreInput Caller → Prop}
    (admissible : ∀ state input, Q state input → input.call.Admissible)
    (made
      : ∀ state (input : StoreInput Caller) (job : JobRecord),
          Q state input → input.call = .add job → job.NewlyMade → P job)
    (changed
      : ∀ state (input : StoreInput Caller) (job after : JobRecord),
          Q state input
          → RecordStep (store.nextDue input.caller state) input.ambient input.call job after
          → job ∈ store.jobs state
          → P job
          → P after)
    {state : State} (reached : store.machine.Reaches Q store.initial state)
    : ∀ job ∈ store.jobs state, P job := by
  have both : store.Sound state ∧ ∀ job ∈ store.jobs state, P job := by
    refine reached.preserves
      (P := fun state => store.Sound state ∧ ∀ job ∈ store.jobs state, P job) ?_ ?_
    · rintro state input ⟨sound, before⟩ met
      refine ⟨store.stays _ _ _ _ sound (admissible _ _ met), ?_⟩
      have step := store.follows input.caller input.ambient _ _ sound (admissible _ _ met)
      exact step.forall_rows before (fun job => made state input job met)
        (fun job after => changed state input job after met)
    · exact ⟨store.initiallySound, initially_forall P⟩
  exact both.2

/-- Jobs are added as `Enqueue` and `Schedule` make them, under ids not stored yet. -/
structure NewIds (store : LawfulStore State Caller) (state : State)
    (input : StoreInput Caller) : Prop where
  admissible : input.call.Admissible
  newId : ∀ job : JobRecord, input.call = .add job → (store.ledger state).find? job.id = none

end LawfulStore

/-- The job `Enqueue` makes at tick 0 for one attempt. -/
def smallJob : JobRecord :=
  .construct ⟨1⟩ "tenant-a" "alice" "email" ⟨"{}"⟩ .queued ⟨100⟩ (some (.ofTicks 0)) none none
    none none none 1 none [.queued ⟨100⟩ (.ofTicks 0) "Job accepted."]

theorem smallJob_newlyMade : smallJob.NewlyMade :=
  @JobRecord.NewlyMade.enqueued smallJob ⟨100⟩ ⟨1⟩ "tenant-a" "alice" "email" ⟨"{}"⟩ 1
    (.ofTicks 0) (by decide)

theorem smallJob_admissible : (StoreCall.add smallJob).Admissible := by
  intro job added
  rw [← StoreCall.add.inj added]
  exact smallJob_newlyMade

/-- The `n`-th call of a small run: the clock shows `n`, and the identifiers are its own. -/
def smallAmbient (n : Nat) : Ambient :=
  ⟨.ofTicks n, .ofTicks n, ⟨1000 + 2 * n⟩, ⟨1001 + 2 * n⟩⟩

/-- A worker claims the job for its only attempt. -/
def firstClaimRun {Caller : Type} (caller : Caller) : List (StoreInput Caller) :=
  [⟨caller, smallAmbient 0, .add smallJob⟩,
    ⟨caller, smallAmbient 1, .tryClaimNextDueJob (.ofTicks 1) "worker-1" (.ofTicks 5)⟩]

/-- The record that claim stores. -/
def firstSnapshot : JobRecord :=
  smallJob.claimedUnder (smallAmbient 1) (.ofTicks 1) "worker-1" (.ofTicks 5)

/-- The worker stops, and the second claim comes after its lease. -/
def crashedWorkerRun {Caller : Type} (caller : Caller) : List (StoreInput Caller) :=
  firstClaimRun caller
  ++ [⟨caller, smallAmbient 9, .tryClaimNextDueJob (.ofTicks 9) "worker-2" (.ofTicks 15)⟩]

end JobScheduler
