import JobScheduler.Ledger.Claims
import JobScheduler.Storage.InMemoryLedger
import JobScheduler.Persistence.SqliteLedger

/-! How many attempts a job can have. A retry is only scheduled while attempts are left, but
the reclaim of an expired lease starts an attempt without looking at the bound, so the bound
holds exactly as long as no used-up job is reclaimed.
-/

namespace JobScheduler

open Library

namespace JobRecord

/-- `AttemptCount <= MaxAttempts`. -/
def WithinMaxAttempts (job : JobRecord) : Prop := (job.attemptCount : Int) ≤ job.maxAttempts

instance (job : JobRecord) : Decidable job.WithinMaxAttempts :=
  inferInstanceAs (Decidable (_ ≤ _))

/-- The bound with what carries it through a run: a pending job has an attempt left. -/
structure AttemptsInvariant (job : JobRecord) : Prop where
  within : job.WithinMaxAttempts
  pendingLeft : job.isPending = true → (job.attemptCount : Int) < job.maxAttempts

theorem NewlyMade.attemptsInvariant {job : JobRecord} (new : job.NewlyMade)
    : job.AttemptsInvariant := by
  obtain ⟨_, _, _, made, _, _, _, _, _, atLeastOne⟩ := new.cases
  have none : job.attemptCount = 0 := by
    rcases made with ⟨history, _⟩ | ⟨_, history, _⟩ <;>
      simp [attemptCount, history, JobStateChange.withSequence, JobStateChange.queued,
        JobStateChange.scheduled, JobStateChange.create]
  constructor
  · simp only [WithinMaxAttempts, none]
    omega
  · intro _
    simp only [none]
    omega

end JobRecord

/-- A step counts as attempts the `Running` entries it appends. -/
theorem RecordStep.attemptCount_eq {nextDue : DateTimeOffset → Option JobRecord}
    {ambient : Ambient} {call : StoreCall} {job changed : JobRecord}
    (step : RecordStep nextDue ambient call job changed)
    : changed.attemptCount
      = job.attemptCount
        + (call.appended ambient job).countP (fun change => change.status = .running) := by
  rw [JobRecord.attemptCount, step.history_eq, countP_status_numbered, List.countP_append]
  rfl

/-- Every claim starts one attempt. -/
theorem JobRecord.countP_claim (job : JobRecord) (ambient : Ambient) (now : DateTimeOffset)
    (workerId : String) (leaseExpiresAt : DateTimeOffset)
    : ((StoreCall.tryClaimNextDueJob now workerId leaseExpiresAt).appended ambient
        job).countP (fun change => change.status = .running) = 1 := by
  cases status : job.status <;> simp only [StoreCall.appended, status] <;> rfl

/-- A step keeps the invariant unless it claims a running job whose attempts are used up,
one kind of step at a time.
-/
theorem JobRecord.AttemptsInvariant.step {nextDue : DateTimeOffset → Option JobRecord}
    {ambient : Ambient} {call : StoreCall} {job changed : JobRecord}
    (invariant : job.AttemptsInvariant)
    (step : RecordStep nextDue ambient call job changed)
    (notOverrun
      : ∀ now workerId leaseExpiresAt,
          call = .tryClaimNextDueJob now workerId leaseExpiresAt
          → JobRecord.ValidClaim workerId now leaseExpiresAt
          → nextDue now = some job
          → job.LeaseExpired now
          → (job.attemptCount : Int) < job.maxAttempts)
    : changed.AttemptsInvariant := by
  obtain ⟨within, pendingLeft⟩ := invariant
  have attempts := step.attemptCount_eq
  have bound := step.sameTerms.maxAttempts
  unfold JobRecord.WithinMaxAttempts at within
  cases step with
  | @claimed now workerId leaseExpiresAt _ picked ready valid =>
      have left : (job.attemptCount : Int) < job.maxAttempts := by
        rcases ready with waiting | expired
        · exact pendingLeft waiting
        · exact notOverrun now workerId leaseExpiresAt rfl valid picked expired
      rw [JobRecord.countP_claim] at attempts
      constructor
      · rw [JobRecord.WithinMaxAttempts, attempts, bound]
        push_cast
        omega
      · intro waiting
        simp [JobRecord.isPending] at waiting
  | renewed running =>
      refine ⟨by rw [JobRecord.WithinMaxAttempts, attempts, bound]; exact within, ?_⟩
      intro waiting
      rw [attempts, bound]
      exact pendingLeft waiting
  | acknowledged =>
      refine ⟨by rw [JobRecord.WithinMaxAttempts, attempts, bound]; exact within, ?_⟩
      intro waiting
      rw [attempts, bound]
      exact pendingLeft waiting
  | retried running present attemptsLeft =>
      refine ⟨by rw [JobRecord.WithinMaxAttempts, attempts, bound]; exact within, ?_⟩
      intro _
      rw [attempts, bound]
      exact attemptsLeft
  | completed | failed =>
      refine ⟨by rw [JobRecord.WithinMaxAttempts, attempts, bound]; exact within, ?_⟩
      intro waiting
      cases waiting

namespace LawfulStore

variable {State Caller : Type} (store : LawfulStore State Caller)

/-- The call is a valid claim, and the job the store would give is one whose lease has
expired and whose attempts are used up.
-/
def Overruns (state : State) (input : StoreInput Caller) : Prop :=
  ∃ now workerId leaseExpiresAt job,
    input.call = .tryClaimNextDueJob now workerId leaseExpiresAt
    ∧ JobRecord.ValidClaim workerId now leaseExpiresAt
    ∧ store.nextDue input.caller state now = some job
    ∧ job.LeaseExpired now
    ∧ job.maxAttempts ≤ job.attemptCount

/-- Every stored job satisfies `AttemptCount <= MaxAttempts`. -/
def AttemptsWithinMax (state : State) : Prop :=
  ∀ job ∈ store.jobs state, job.WithinMaxAttempts

instance (state : State) : Decidable (store.AttemptsWithinMax state) :=
  inferInstanceAs (Decidable (∀ job ∈ store.jobs state, job.WithinMaxAttempts))

variable {store}

/-- The invariant of single jobs, in a state the store can be in. -/
def AttemptsInvariant (store : LawfulStore State Caller) (state : State) : Prop :=
  store.Sound state ∧ ∀ job ∈ store.jobs state, job.AttemptsInvariant

/-- A call that is no overrun preserves the invariant. -/
theorem AttemptsInvariant.step {state : State} (before : store.AttemptsInvariant state)
    {input : StoreInput Caller} (admissible : input.call.Admissible)
    (noOverrun : ¬ store.Overruns state input)
    : store.AttemptsInvariant (store.machine.step state input).2 := by
  obtain ⟨sound, jobs⟩ := before
  have step := store.follows input.caller input.ambient _ _ sound admissible
  refine ⟨store.stays _ _ _ _ sound admissible, ?_⟩
  refine step.forall_rows jobs (fun job _ new => new.attemptsInvariant) ?_
  intro job after one _ invariant
  refine invariant.step one ?_
  intro now workerId leaseExpiresAt call valid picked expired
  by_contra usedUp
  exact noOverrun ⟨now, workerId, leaseExpiresAt, job, call, valid, picked, expired,
    not_lt.mp usedUp⟩

/-- A run without overruns keeps every job within its bound, by the invariant. -/
theorem attemptsWithinMax_along {inputs : List (StoreInput Caller)} {state : State}
    (before : store.AttemptsInvariant state)
    (admissible : store.machine.AlongSteps (fun _ input => input.call.Admissible) state inputs)
    (noOverrun
      : store.machine.AlongSteps (fun state input => ¬ store.Overruns state input) state
          inputs)
    : store.machine.Along store.AttemptsWithinMax state inputs := by
  have invariant : store.machine.Along store.AttemptsInvariant state inputs :=
    Machine.along_of_preserved (fun _ _ holds step => holds.step step.1 step.2) before
      (admissible.and noOverrun)
  exact invariant.imp (fun _ holds job member => (holds.2 job member).within)

/-- An overrun takes a job past its bound, so a run within the bound has none. -/
theorem noOverrun_of_attemptsWithinMax {inputs : List (StoreInput Caller)} {state : State}
    (sound : store.Sound state)
    (admissible : store.machine.AlongSteps (fun _ input => input.call.Admissible) state inputs)
    (fresh
      : store.machine.AlongSteps
          (fun state input => input.ambient.Fresh (store.ledger state)) state inputs)
    (within : store.machine.Along store.AttemptsWithinMax state inputs)
    : store.machine.AlongSteps (fun state input => ¬ store.Overruns state input) state
        inputs := by
  induction inputs generalizing state with
  | nil => trivial
  | cons input rest ih =>
      refine ⟨?_, ih (store.stays _ _ _ _ sound admissible.1) admissible.2 fresh.2 within.2⟩
      rintro ⟨now, workerId, leaseExpiresAt, job, call, valid, picked, expired, usedUp⟩
      obtain ⟨-, step, stored⟩ := stored_of_reclaim sound fresh.1 call picked expired valid
      have bound := Machine.Along.head within.2 _ stored
      rw [JobRecord.WithinMaxAttempts, step.attemptCount_eq, JobRecord.countP_claim,
        step.sameTerms.maxAttempts] at bound
      push_cast at bound
      omega

/-- Along runs from the empty store: no overrun keeps the bound, and with identifiers that
never repeat an overrun breaks it.
-/
theorem within_iff_noOverrun (store : LawfulStore State Caller)
    (inputs : List (StoreInput Caller))
    (admissible
      : store.machine.AlongSteps (fun _ input => input.call.Admissible) store.initial inputs)
    : (store.machine.AlongSteps (fun state input => ¬ store.Overruns state input) store.initial
            inputs
        → store.machine.Along store.AttemptsWithinMax store.initial inputs)
      ∧ (store.machine.AlongSteps
            (fun state input => input.ambient.Fresh (store.ledger state)) store.initial inputs
        → store.machine.Along store.AttemptsWithinMax store.initial inputs
        → store.machine.AlongSteps (fun state input => ¬ store.Overruns state input)
            store.initial inputs) := by
  refine ⟨?_, ?_⟩
  · exact attemptsWithinMax_along ⟨store.initiallySound, initially_forall _⟩ admissible
  · intro fresh within
    exact noOverrun_of_attemptsWithinMax store.initiallySound admissible fresh within

end LawfulStore

/-- In both stores, along every run of admissible calls: if no step is an overrun, then every
job stays within its maximal number of attempts in every state; and if the identifiers drawn
never repeat, the bound fails in every run with an overrun.
-/
theorem attemptCount_within_iff_noOverrun (inputs : List (StoreInput Unit))
    (filteredInputs : List (StoreInput QueryFilter))
    : (InMemoryJobStore.lawful.machine.AlongSteps (fun _ input => input.call.Admissible)
            .empty inputs
        → (InMemoryJobStore.lawful.machine.AlongSteps
              (fun store input => ¬ InMemoryJobStore.lawful.Overruns store input) .empty inputs
            → InMemoryJobStore.lawful.machine.Along
                InMemoryJobStore.lawful.AttemptsWithinMax .empty inputs)
          ∧ (InMemoryJobStore.lawful.machine.AlongSteps
                (fun store input => input.ambient.Fresh store.jobsById) .empty inputs
            → InMemoryJobStore.lawful.machine.Along
                InMemoryJobStore.lawful.AttemptsWithinMax .empty inputs
            → InMemoryJobStore.lawful.machine.AlongSteps
                (fun store input => ¬ InMemoryJobStore.lawful.Overruns store input) .empty
                inputs))
      ∧ (SqliteJobStore.lawful.machine.AlongSteps (fun _ input => input.call.Admissible)
            .empty filteredInputs
        → (SqliteJobStore.lawful.machine.AlongSteps
              (fun db input => ¬ SqliteJobStore.lawful.Overruns db input) .empty
              filteredInputs
            → SqliteJobStore.lawful.machine.Along SqliteJobStore.lawful.AttemptsWithinMax
                .empty filteredInputs)
          ∧ (SqliteJobStore.lawful.machine.AlongSteps
                (fun db input => input.ambient.Fresh db.ledger) .empty filteredInputs
            → SqliteJobStore.lawful.machine.Along SqliteJobStore.lawful.AttemptsWithinMax
                .empty filteredInputs
            → SqliteJobStore.lawful.machine.AlongSteps
                (fun db input => ¬ SqliteJobStore.lawful.Overruns db input) .empty
                filteredInputs)) :=
  ⟨InMemoryJobStore.lawful.within_iff_noOverrun inputs,
    SqliteJobStore.lawful.within_iff_noOverrun filteredInputs⟩

section SmallRuns

variable {State Caller : Type} (store : LawfulStore State Caller) (caller : Caller)
  (state : State)

theorem firstClaimRun_admissible
    : store.machine.AlongSteps (fun _ input => input.call.Admissible) state
        (firstClaimRun caller) :=
  ⟨smallJob_admissible, StoreCall.admissible_claim _ _ _, trivial⟩

theorem crashedWorkerRun_admissible
    : store.machine.AlongSteps (fun _ input => input.call.Admissible) state
        (crashedWorkerRun caller) :=
  ⟨smallJob_admissible, StoreCall.admissible_claim _ _ _, StoreCall.admissible_claim _ _ _,
    trivial⟩

/-- A first claim of the new job is no overrun, since the job is not running. -/
theorem firstClaimRun_noOverrun
    (picks
      : store.nextDue caller
          (store.machine.run state ((firstClaimRun caller).take 1)).2 (.ofTicks 1)
        = some smallJob)
    : store.machine.AlongSteps (fun state input => ¬ store.Overruns state input) state
        (firstClaimRun caller) := by
  refine ⟨?_, ?_, trivial⟩
  · rintro ⟨_, _, _, _, call, _⟩
    cases call
  · rintro ⟨now, workerId, leaseExpiresAt, job, call, valid, picked, expired, usedUp⟩
    cases call
    cases picks.symm.trans picked
    cases expired.1

end SmallRuns

/-- The run up to the first claim has no overrun and stays within the bound, in both
stores.
-/
theorem attemptCount_within_iff_noOverrun_firstClaim
    : InMemoryJobStore.lawful.machine.Along InMemoryJobStore.lawful.AttemptsWithinMax .empty
          (firstClaimRun ())
      ∧ SqliteJobStore.lawful.machine.Along SqliteJobStore.lawful.AttemptsWithinMax .empty
          (firstClaimRun .everyRow) := by
  obtain ⟨inMemory, sqlite⟩ :=
    attemptCount_within_iff_noOverrun (firstClaimRun ()) (firstClaimRun .everyRow)
  refine ⟨?_, ?_⟩
  · exact (inMemory (firstClaimRun_admissible _ _ _)).1
      (firstClaimRun_noOverrun InMemoryJobStore.lawful () .empty (by decide +kernel))
  · exact (sqlite (firstClaimRun_admissible _ _ _)).1
      (firstClaimRun_noOverrun SqliteJobStore.lawful .everyRow .empty (by decide +kernel))

/-- After the reclaim the job has had two attempts where one is allowed, in both stores. -/
theorem attemptCount_exceeds_after_reclaim
    : InMemoryJobStore.lawful.machine.Reaches (fun _ input => input.call.Admissible) .empty
          (InMemoryJobStore.lawful.machine.run .empty (crashedWorkerRun ())).2
      ∧ ¬ InMemoryJobStore.lawful.AttemptsWithinMax
          (InMemoryJobStore.lawful.machine.run .empty (crashedWorkerRun ())).2
      ∧ SqliteJobStore.lawful.machine.Reaches (fun _ input => input.call.Admissible) .empty
          (SqliteJobStore.lawful.machine.run .empty (crashedWorkerRun .everyRow)).2
      ∧ ¬ SqliteJobStore.lawful.AttemptsWithinMax
          (SqliteJobStore.lawful.machine.run .empty (crashedWorkerRun .everyRow)).2 := by
  refine ⟨?_, by decide +kernel, ?_, by decide +kernel⟩
  · exact Machine.reaches_run (crashedWorkerRun_admissible _ _ _)
  · exact Machine.reaches_run (crashedWorkerRun_admissible _ _ _)

end JobScheduler
