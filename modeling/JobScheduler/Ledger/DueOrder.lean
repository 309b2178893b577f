import JobScheduler.Ledger.Claims

/-! Series of claims at one instant. A store whose claims look at the job that is due first
hands out the due jobs one by one, oldest first, and then nothing.
-/

namespace JobScheduler

open Library

/-- The first job is due no later than the second one. -/
def JobRecord.DueNoLater (job other : JobRecord) : Prop :=
  ∀ instant otherInstant,
    job.dueInstant = some instant
    → other.dueInstant = some otherInstant
    → instant ≤ otherInstant

/-- The due instant of a due job has come. -/
theorem JobRecord.dueInstant_of_isDue {now : DateTimeOffset} {job : JobRecord}
    (due : job.isDue now = true)
    : ∃ instant, job.dueInstant = some instant ∧ instant ≤ now := by
  obtain ⟨-, past⟩ := Bool.and_eq_true_iff.mp due
  obtain ⟨instant, known, elapsed⟩ := (Option.any_eq_true _ _).mp past
  exact ⟨instant, known, of_decide_eq_true elapsed⟩

/-- A claim of a series: all of them share the caller's access and the instant. -/
structure ClaimAttempt where
  ambient : Ambient
  workerId : String
  leaseExpiresAt : DateTimeOffset
  deriving DecidableEq, Repr

namespace ClaimAttempt

variable {Caller : Type}

def input (caller : Caller) (now : DateTimeOffset) (attempt : ClaimAttempt)
    : StoreInput Caller :=
  ⟨caller, attempt.ambient,
    .tryClaimNextDueJob now attempt.workerId attempt.leaseExpiresAt⟩

/-- The record the attempt makes of a job. -/
def claimed (now : DateTimeOffset) (job : JobRecord) (attempt : ClaimAttempt) : JobRecord :=
  job.claimedUnder attempt.ambient now attempt.workerId attempt.leaseExpiresAt

/-- The answers to a series of claims that hands out the given jobs, and then nothing. -/
def answers (now : DateTimeOffset) : List JobRecord → List ClaimAttempt → List StoreAnswer
  | _, [] => []
  | [], _ :: rest => .job none :: answers now [] rest
  | job :: due, attempt :: rest =>
      .job (some (attempt.claimed now job)) :: answers now due rest

/-- A claimed job is not due any more: its lease lies ahead. -/
theorem not_isDue_claimed {now : DateTimeOffset} {attempt : ClaimAttempt} {job : JobRecord}
    (ahead : now < attempt.leaseExpiresAt)
    : (attempt.claimed now job).isDue now = false := by
  obtain ⟨last, -, -, record⟩ := job.claimedUnder_eq attempt.ambient now attempt.workerId
    attempt.leaseExpiresAt
  simp [claimed, record, JobRecord.isDue, JobRecord.dueInstant, ahead]

/-- Claiming a due job takes exactly this job from the due ones. -/
theorem due_perm {ledger : Ledger} {now : DateTimeOffset} {attempt : ClaimAttempt}
    {job : JobRecord} (ahead : now < attempt.leaseExpiresAt)
    (stored : ledger.find? job.id = some job) (due : job.isDue now = true)
    : (job :: (ledger.set (attempt.claimed now job)).rows.filter (·.isDue now)).Perm
        (ledger.rows.filter (·.isDue now)) :=
  KeyedTable.filter_set_perm (KeyedTable.find?_mem stored) (job.claimedUnder_id _ _ _ _) due
    (not_isDue_claimed ahead)

end ClaimAttempt

namespace LawfulStore

variable {State Caller : Type} (store : LawfulStore State Caller)

/-- The caller's claims look at the job that is due first, and answer `null` without a
trace when none is due.
-/
structure DueFirst (caller : Caller) (state : State) : Prop where
  sound : store.Sound state
  picked
    : ∀ now job,
        store.nextDue caller state now = some job
        → (store.ledger state).find? job.id = some job
          ∧ job.isDue now = true
          ∧ ∀ other ∈ store.jobs state, other.isDue now = true → job.DueNoLater other
  nothing
    : ∀ now,
        store.nextDue caller state now = none
        → (∀ job ∈ store.jobs state, job.isDue now = false)
          ∧ ∀ ambient workerId leaseExpiresAt,
              (store.methods caller).call ambient
                  (.tryClaimNextDueJob now workerId leaseExpiresAt) state
                = (.job none, state)

/-- A claim of a series has valid arguments and draws identifiers that are not stored. -/
def ValidAttempt (now : DateTimeOffset) (state : State) (attempt : ClaimAttempt) : Prop :=
  attempt.ambient.Fresh (store.ledger state)
  ∧ JobRecord.ValidClaim attempt.workerId now attempt.leaseExpiresAt

/-- Every claim of the series is valid in the state it meets. -/
def ValidSeries (caller : Caller) (now : DateTimeOffset)
    : State → List ClaimAttempt → Prop
  | _, [] => True
  | state, attempt :: rest =>
      store.ValidAttempt now state attempt
      ∧ ValidSeries caller now (store.machine.step state (attempt.input caller now)).2 rest

/-- The series hands out the due jobs, each once and oldest first, and then nothing. -/
def HandsOut (caller : Caller) (now : DateTimeOffset) (state : State)
    (attempts : List ClaimAttempt)
    : Prop :=
  ∃ due : List JobRecord,
    due.Perm ((store.jobs state).filter (·.isDue now))
    ∧ due.Pairwise JobRecord.DueNoLater
    ∧ (store.machine.run state (attempts.map (ClaimAttempt.input caller now))).1
      = ClaimAttempt.answers now due attempts

/-- The due jobs can be put in the order they are due, by sorting on the due instant. -/
theorem exists_due_order (now : DateTimeOffset) (state : State)
    : ∃ due : List JobRecord,
        due.Perm ((store.jobs state).filter (·.isDue now))
        ∧ due.Pairwise JobRecord.DueNoLater := by
  let key (job : JobRecord) : WithBot DateTimeOffset := job.dueInstant
  refine ⟨_, orderBy_perm key _, (orderBy_pairwise key _).imp ?_⟩
  intro job other order instant otherInstant due otherDue
  have jobKey : key job = instant := due
  have otherKey : key other = otherInstant := otherDue
  rw [jobKey, otherKey] at order
  exact WithBot.coe_le_coe.mp order

/-- Series of valid claims hand out what is due, by induction on the series: each claim takes
the job that is due first.
-/
theorem handsOut_of_dueFirst {caller : Caller} {P : State → Prop}
    (dueFirst : ∀ state, P state → store.DueFirst caller state)
    (now : DateTimeOffset)
    (stays
      : ∀ state attempt,
          P state
          → store.ValidAttempt now state attempt
          → P (store.machine.step state (attempt.input caller now)).2)
    {state : State} {attempts : List ClaimAttempt} (holds : P state)
    (valid : store.ValidSeries caller now state attempts)
    : store.HandsOut caller now state attempts := by
  induction attempts generalizing state with
  | nil =>
      obtain ⟨due, permutes, sorted⟩ := store.exists_due_order now state
      refine ⟨due, permutes, sorted, ?_⟩
      cases due <;> rfl
  | cons attempt rest ih =>
      have order := dueFirst state holds
      obtain ⟨due, permutes, sorted, answers⟩ := ih (stays state attempt holds valid.1) valid.2
      cases picks : store.nextDue caller state now with
      | none =>
          obtain ⟨idle, unanswered⟩ := order.nothing now picks
          have step : store.machine.step state (attempt.input caller now)
              = (.job none, state) :=
            unanswered _ _ _
          have empty : (store.jobs state).filter (·.isDue now) = [] := by
            rw [List.filter_eq_nil_iff]
            intro job member
            simp [idle job member]
          rw [step] at permutes answers
          rw [empty] at permutes
          rw [permutes.eq_nil] at answers
          refine ⟨[], by rw [empty], .nil, ?_⟩
          rw [List.map_cons, Machine.run_cons, step, answers]
          rfl
      | some job =>
          obtain ⟨stored, jobDue, least⟩ := order.picked now job picks
          obtain ⟨next, called, ledger⟩ := store.claims caller attempt.ambient state now
            attempt.workerId attempt.leaseExpiresAt job order.sound picks
            (JobRecord.isDue_ready jobDue) valid.1.2 valid.1.1
          have step : store.machine.step state (attempt.input caller now)
              = (.job (some (attempt.claimed now job)), next) :=
            called
          rw [step] at permutes answers
          have taken := @ClaimAttempt.due_perm (store.ledger state) now attempt job valid.1.2.2
            stored jobDue
          have whole : (job :: due).Perm ((store.jobs state).filter (·.isDue now)) := by
            refine (permutes.cons job).trans ?_
            rw [jobs, ledger]
            exact taken
          refine ⟨job :: due, whole, List.pairwise_cons.mpr ⟨?_, sorted⟩, ?_⟩
          · intro other member
            obtain ⟨inside, otherDue⟩ := List.mem_filter.mp
              (whole.subset (List.mem_cons_of_mem job member))
            exact least other inside otherDue
          · rw [List.map_cons, Machine.run_cons, step, answers]
            rfl

end LawfulStore

end JobScheduler
