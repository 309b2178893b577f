import JobScheduler.Core.JobAttempts
import JobScheduler.Ledger.AttemptBound
import JobScheduler.Ledger.Claims
import JobScheduler.Ledger.Transitions

/-! What `Attempts` reports against what `AttemptCount` counts. A run that a reclaim follows is
counted and not reported, so both agree exactly on the jobs that were never reclaimed.
-/

namespace JobScheduler

open Library

/-- How often a `Running` entry follows another one directly. -/
def reclaims : List JobStatus → Nat
  | .running :: .running :: rest => reclaims (.running :: rest) + 1
  | _ :: rest => reclaims rest
  | [] => 0

namespace JobRecord

/-- How often an expired lease of the job was reclaimed. -/
def reclaimCount (job : JobRecord) : Nat := reclaims job.statuses

theorem reclaims_cons {status next : JobStatus} (rest : List JobStatus)
    (apart : ¬ (status = .running ∧ next = .running))
    : reclaims (status :: next :: rest) = reclaims (next :: rest) := by
  cases status <;> cases next <;> first | rfl | exact absurd ⟨rfl, rfl⟩ apart

theorem reclaims_idle {status : JobStatus} (rest : List JobStatus)
    (idle : status ≠ .running)
    : reclaims (status :: rest) = reclaims rest := by
  cases status <;> first | rfl | exact absurd rfl idle

/-- The attempt of a run under its number, by the entry recorded after it. -/
def attemptOf (number : Nat) (run : JobStateChange) : List JobStateChange → JobAttempt
  | [] => .running number run.changedAt
  | outcome :: _ =>
      if outcome.status = .completed then
        .completed number run.changedAt outcome.changedAt
      else if outcome.status = .failed then
        .failed number run.changedAt outcome.changedAt outcome.reason
      else
        .running number run.changedAt

/-- What a run can be followed by in a legal history. -/
theorem next_of_running {run next : JobStateChange} {rest : List JobStateChange}
    (legal
      : ((run :: next :: rest).map JobStateChange.status).IsChain JobStatus.Precedes)
    (running : run.status = .running)
    : next.status = .running ∨ next.status = .completed ∨ next.status = .failed := by
  have step := (List.isChain_cons_cons.mp legal).1
  rw [running] at step
  generalize next.status = status at step
  cases step
  · exact Or.inl rfl
  · exact Or.inr (Or.inl rfl)
  · exact Or.inr (Or.inr rfl)

/-- Reported and reclaimed runs are all the runs there are, by induction along the projection;
the run it remembers stands before the rest of the history.
-/
theorem length_attemptsFrom (count : Nat) (current : Option JobStateChange)
    (history : List JobStateChange)
    (legal
      : ((current.toList ++ history).map JobStateChange.status).IsChain JobStatus.Precedes)
    (running : ∀ run ∈ current, run.status = .running)
    : (attemptsFrom count current history).length
        + reclaims ((current.toList ++ history).map JobStateChange.status)
      = (current.toList ++ history).countP (fun change => change.status = .running) := by
  fun_induction attemptsFrom count current history with
  | case1 count => rfl
  | case2 count run => simp [running run rfl, reclaims]
  | case3 count current change rest starts ih =>
      cases current with
      | none => simpa [starts] using ih (by simpa using legal) (by simp [starts])
      | some run =>
          have again := ih (by simpa using legal.tail) (by simp [starts])
          simp [running run rfl, starts, reclaims] at again ⊢
          omega
  | case4 count change rest idle ih =>
      have others := ih (by simpa using legal.tail) (by simp)
      simpa [idle, reclaims_idle _ idle] using others
  | case5 count change rest idle run completes ih =>
      have others := ih (by simpa using legal.tail.tail) (by simp)
      simp [running run rfl, completes, reclaims] at others ⊢
      omega
  | case6 count change rest idle run _ fails ih =>
      have others := ih (by simpa using legal.tail.tail) (by simp)
      simp [running run rfl, fails, reclaims] at others ⊢
      omega
  | case7 count change rest idle run incomplete lasts ih =>
      rcases next_of_running legal (running run rfl) with starts | completes | fails
      · exact absurd starts idle
      · exact absurd completes incomplete
      · exact absurd fails lasts

/-- A run with its outcome comes first, and the attempts of the later runs move up by one. -/
theorem getElem?_after_outcome {count : Nat} {held change : JobStateChange}
    {rest : List JobStateChange} (begins : held.status = .running)
    (idle : change.status ≠ .running)
    (others
      : ∀ before run after,
          rest = before ++ run :: after
          → run.status = .running
          → (attemptsFrom (count + 1) none rest)[before.countP
                (fun change => change.status = .running)]?
            = some (attemptOf
                (count + 1 + before.countP (fun change => change.status = .running) + 1) run
                after))
    {before after : List JobStateChange} {run : JobStateChange}
    (split : held :: change :: rest = before ++ run :: after)
    (starts : run.status = .running)
    : (attemptOf (count + 1) held (change :: rest) :: attemptsFrom (count + 1) none rest)[
          before.countP (fun change => change.status = .running)]?
      = some (attemptOf (count + before.countP (fun change => change.status = .running) + 1)
          run after) := by
  match before with
  | [] =>
      obtain ⟨rfl, rfl⟩ := List.cons.inj split
      rfl
  | [first] =>
      obtain ⟨-, tail⟩ := List.cons.inj split
      obtain ⟨rfl, -⟩ := List.cons.inj tail
      exact absurd starts idle
  | first :: second :: before =>
      obtain ⟨rfl, tail⟩ := List.cons.inj split
      obtain ⟨rfl, later⟩ := List.cons.inj tail
      have there := others before run after later starts
      rw [List.countP_cons_of_pos (by simpa using begins),
        List.countP_cons_of_neg (by simpa using idle), List.getElem?_cons_succ, there]
      congr 2
      omega

/-- Without reclaims every run has its own attempt, at its place among the runs and with the
outcome recorded next, by induction along the projection.
-/
theorem attemptsFrom_getElem? (count : Nat) (current : Option JobStateChange)
    (history : List JobStateChange)
    (legal
      : ((current.toList ++ history).map JobStateChange.status).IsChain JobStatus.Precedes)
    (running : ∀ run ∈ current, run.status = .running)
    (unclaimed : reclaims ((current.toList ++ history).map JobStateChange.status) = 0)
    : ∀ before run after,
        current.toList ++ history = before ++ run :: after
        → run.status = .running
        → (attemptsFrom count current history)[before.countP
              (fun change => change.status = .running)]?
          = some (attemptOf
              (count + before.countP (fun change => change.status = .running) + 1) run
              after) := by
  fun_induction attemptsFrom count current history with
  | case1 count =>
      intro before run after split
      simp at split
  | case2 count held =>
      intro before run after split starts
      obtain ⟨rfl, rfl, rfl⟩ : before = [] ∧ run = held ∧ after = [] := by
        cases before <;> simp_all
      rfl
  | case3 count current change rest starts ih =>
      cases current with
      | none => exact ih (by simpa using legal) (by simp [starts]) (by simpa using unclaimed)
      | some held =>
          simp [running held rfl, starts, reclaims] at unclaimed
  | case4 count change rest idle ih =>
      intro before run after split starts
      cases before with
      | nil =>
          obtain ⟨rfl, rfl⟩ := List.cons.inj split
          exact absurd starts idle
      | cons first before =>
          obtain ⟨rfl, others⟩ := List.cons.inj split
          have there := ih (by simpa using legal.tail) (by simp)
            (by simpa [reclaims_idle _ idle] using unclaimed) before run after others starts
          simpa [idle] using there
  | case5 count change rest idle held completes ih =>
      intro before run after split starts
      have others := ih (by simpa using legal.tail.tail) (by simp)
        (by simpa [running held rfl, completes, reclaims] using unclaimed)
      simpa [attemptOf, completes] using
        getElem?_after_outcome (running held rfl) idle others split starts
  | case6 count change rest idle held incomplete fails ih =>
      intro before run after split starts
      have others := ih (by simpa using legal.tail.tail) (by simp)
        (by simpa [running held rfl, fails, reclaims] using unclaimed)
      simpa [attemptOf, fails] using
        getElem?_after_outcome (running held rfl) idle others split starts
  | case7 count change rest idle held incomplete lasts ih =>
      rcases next_of_running legal (running held rfl) with starts | completes | fails
      · exact absurd starts idle
      · exact absurd completes incomplete
      · exact absurd fails lasts

/-- The attempt shows the run under its number, and an outcome if it was recorded next. -/
structure ReportsRun (attempt : JobAttempt) (number : Nat) (run : JobStateChange)
    (after : List JobStateChange) : Prop where
  numbered : attempt.number = number
  startedAt : attempt.startedAt = run.changedAt
  completed
    : ∀ outcome rest,
        after = outcome :: rest
        → outcome.status = .completed
        → attempt = .completed number run.changedAt outcome.changedAt
  failed
    : ∀ outcome rest,
        after = outcome :: rest
        → outcome.status = .failed
        → attempt = .failed number run.changedAt outcome.changedAt outcome.reason

/-- `Attempts` reports every attempt exactly once: there are `AttemptCount` of them, and the
i-th one shows the i-th `Running` entry.
-/
structure ReportsAttempts (job : JobRecord) : Prop where
  count : job.attempts.length = job.attemptCount
  each
    : ∀ before run after,
        job.history = before ++ run :: after
        → run.status = .running
        → ∃ attempt,
            job.attempts[before.countP (fun change => change.status = .running)]?
              = some attempt
            ∧ ReportsRun attempt
                (before.countP (fun change => change.status = .running) + 1) run after

theorem attemptOf_reports (number : Nat) (run : JobStateChange)
    (after : List JobStateChange)
    : ReportsRun (attemptOf number run after) number run after := by
  cases after with
  | nil => exact ⟨rfl, rfl, nofun, nofun⟩
  | cons next rest =>
      refine ⟨?_, ?_, ?_, ?_⟩
      · simp only [attemptOf]
        split_ifs <;> rfl
      · simp only [attemptOf]
        split_ifs <;> rfl
      · rintro outcome others same completes
        cases same
        simp [attemptOf, completes]
      · rintro outcome others same fails
        cases same
        simp [attemptOf, fails]

/-- `Attempts` leaves out one attempt for every reclaim. -/
theorem LegalHistory.length_attempts {job : JobRecord} (legal : job.LegalHistory)
    : job.attempts.length + job.reclaimCount = job.attemptCount := by
  rw [attempts_eq]
  exact length_attemptsFrom 0 none job.history legal.chain nofun

/-- The attempts are reported exactly when no lease of the job was reclaimed. -/
theorem LegalHistory.reportsAttempts_iff {job : JobRecord} (legal : job.LegalHistory)
    : job.ReportsAttempts ↔ job.reclaimCount = 0 := by
  have total := legal.length_attempts
  constructor
  · intro reports
    have all := reports.count
    omega
  · intro unclaimed
    refine ⟨by omega, ?_⟩
    intro before run after split starts
    have shown := attemptsFrom_getElem? 0 none job.history legal.chain nofun unclaimed before
      run after split starts
    rw [Nat.zero_add] at shown
    exact ⟨_, (attempts_eq job).symm ▸ shown, attemptOf_reports _ run after⟩

/-- A reclaim comes with the entry that follows the last one, or later, by induction on the
statuses.
-/
theorem reclaims_append {statuses : List JobStatus} {last : JobStatus}
    (current : statuses.getLast? = some last) (added : List JobStatus)
    : reclaims (statuses ++ added) = reclaims statuses + reclaims (last :: added) := by
  induction statuses with
  | nil => cases current
  | cons status rest ih =>
      cases rest with
      | nil =>
          cases current
          have alone : reclaims [status] = 0 := by cases status <;> rfl
          rw [alone, Nat.zero_add]
          rfl
      | cons next rest =>
          have others := ih (by rw [← current, List.getLast?_cons_cons])
          by_cases again : status = .running ∧ next = .running
          · obtain ⟨rfl, rfl⟩ := again
            simp only [List.cons_append, reclaims] at others ⊢
            omega
          · rw [List.cons_append, List.cons_append, reclaims_cons _ again,
              reclaims_cons _ again]
            exact others

/-- A step that does not claim a running job reclaims nothing, one kind of step at a time. -/
theorem LegalHistory.reclaimCount_eq {nextDue : DateTimeOffset → Option JobRecord}
    {ambient : Ambient} {call : StoreCall} {job changed : JobRecord}
    (legal : job.LegalHistory) (step : RecordStep nextDue ambient call job changed)
    (noReclaim
      : ∀ now workerId leaseExpiresAt,
          call = .tryClaimNextDueJob now workerId leaseExpiresAt → job.status ≠ .running)
    : changed.reclaimCount = job.reclaimCount := by
  have added : reclaims (job.status :: (call.appended ambient job).map JobStateChange.status)
      = 0 := by
    cases step with
    | @claimed now workerId leaseExpiresAt _ _ ready _ =>
        have idle := noReclaim now workerId leaseExpiresAt rfl
        rw [reclaims_idle _ idle]
        cases status : job.status <;> simp only [StoreCall.appended, status] <;> rfl
    | renewed | acknowledged => cases job.status <;> rfl
    | completed running | failed running | retried running =>
        rw [running]
        rfl
  rw [reclaimCount, step.statuses_eq, reclaims_append legal.current, added, Nat.add_zero,
    reclaimCount]

/-- The claim of a running job is a reclaim. -/
theorem LegalHistory.reclaimCount_claim {nextDue : DateTimeOffset → Option JobRecord}
    {ambient : Ambient} {now : DateTimeOffset} {workerId : String}
    {leaseExpiresAt : DateTimeOffset} {job changed : JobRecord} (legal : job.LegalHistory)
    (step
      : RecordStep nextDue ambient (.tryClaimNextDueJob now workerId leaseExpiresAt) job
          changed)
    (running : job.status = .running)
    : changed.reclaimCount = job.reclaimCount + 1 := by
  have appended
      : (StoreCall.tryClaimNextDueJob now workerId leaseExpiresAt).appended ambient job
        = [.running ambient.newGuid now
            ("Worker " ++ workerId ++ " reclaimed expired lease.")] := by
    simp only [StoreCall.appended, running]
  rw [reclaimCount, step.statuses_eq, reclaims_append legal.current, running, appended]
  rfl

end JobRecord

namespace LawfulStore

variable {State Caller : Type} (store : LawfulStore State Caller)

/-- The call is a valid claim, and the job the store would give is one whose lease has
expired.
-/
def Reclaims (state : State) (input : StoreInput Caller) : Prop :=
  ∃ now workerId leaseExpiresAt job,
    input.call = .tryClaimNextDueJob now workerId leaseExpiresAt
    ∧ JobRecord.ValidClaim workerId now leaseExpiresAt
    ∧ store.nextDue input.caller state now = some job
    ∧ job.LeaseExpired now

/-- `Attempts` reports every attempt of every stored job exactly once. -/
def AttemptsReported (state : State) : Prop :=
  ∀ job ∈ store.jobs state, job.ReportsAttempts

/-- Every stored job has a legal history, in a state the store can be in. -/
def LegalHistories (state : State) : Prop :=
  store.Sound state ∧ ∀ job ∈ store.jobs state, job.LegalHistory

variable {store}

theorem LegalHistories.step {state : State} (before : store.LegalHistories state)
    {input : StoreInput Caller} (admissible : input.call.Admissible)
    : store.LegalHistories (store.machine.step state input).2 := by
  obtain ⟨sound, jobs⟩ := before
  refine ⟨store.stays _ _ _ _ sound admissible, ?_⟩
  exact (store.follows input.caller input.ambient _ _ sound admissible).forall_rows jobs
    (fun _ _ new => new.legalHistory) (fun _ _ one _ legal => legal.step one)

/-- A call that reclaims nothing leaves no job reclaimed. -/
theorem LegalHistories.unclaimed_step {state : State} (before : store.LegalHistories state)
    {input : StoreInput Caller} (admissible : input.call.Admissible)
    (noReclaim : ¬ store.Reclaims state input)
    (unclaimed : ∀ job ∈ store.jobs state, job.reclaimCount = 0)
    : ∀ job ∈ store.jobs (store.machine.step state input).2, job.reclaimCount = 0 := by
  obtain ⟨sound, jobs⟩ := before
  have step := store.follows input.caller input.ambient _ _ sound admissible
  have both : ∀ job ∈ store.jobs (store.machine.step state input).2,
      job.LegalHistory ∧ job.reclaimCount = 0 := by
    refine step.forall_rows (fun job member => ⟨jobs job member, unclaimed job member⟩) ?_ ?_
    · intro job _ new
      refine ⟨new.legalHistory, ?_⟩
      obtain ⟨newGuid, changedAt, reason, made, -⟩ := new.cases
      rcases made with ⟨history, -⟩ | ⟨scheduledAt, history, -⟩ <;>
        rw [JobRecord.reclaimCount, JobRecord.statuses, history] <;> rfl
    · intro job after one _ invariant
      refine ⟨invariant.1.step one, (invariant.1.reclaimCount_eq one ?_).trans invariant.2⟩
      intro now workerId leaseExpiresAt call running
      rw [call] at one
      cases one with
      | claimed picked ready valid =>
          rcases ready with pending | expired
          · simp [JobRecord.isPending, running] at pending
          · exact noReclaim ⟨now, workerId, leaseExpiresAt, job, call, valid, picked, expired⟩
  exact fun job member => (both job member).2

/-- A run without reclaims reports all attempts, by the invariant that no job was reclaimed. -/
theorem attemptsReported_along {inputs : List (StoreInput Caller)} {state : State}
    (before : store.LegalHistories state)
    (unclaimed : ∀ job ∈ store.jobs state, job.reclaimCount = 0)
    (admissible : store.machine.AlongSteps (fun _ input => input.call.Admissible) state inputs)
    (noReclaim
      : store.machine.AlongSteps (fun state input => ¬ store.Reclaims state input) state
          inputs)
    : store.machine.Along store.AttemptsReported state inputs := by
  have invariant : store.machine.Along
      (fun state =>
        store.LegalHistories state ∧ ∀ job ∈ store.jobs state, job.reclaimCount = 0)
      state inputs :=
    Machine.along_of_preserved
      (fun _ _ holds step => ⟨holds.1.step step.1, holds.1.unclaimed_step step.1 step.2 holds.2⟩)
      ⟨before, unclaimed⟩ (admissible.and noReclaim)
  exact invariant.imp (fun _ holds job member =>
    (holds.1.2 job member).reportsAttempts_iff.mpr (holds.2 job member))

/-- A reclaim leaves an attempt out, so a run that reports all attempts has none, by induction
on its inputs.
-/
theorem noReclaim_of_attemptsReported {inputs : List (StoreInput Caller)} {state : State}
    (before : store.LegalHistories state)
    (admissible : store.machine.AlongSteps (fun _ input => input.call.Admissible) state inputs)
    (fresh
      : store.machine.AlongSteps
          (fun state input => input.ambient.Fresh (store.ledger state)) state inputs)
    (reported : store.machine.Along store.AttemptsReported state inputs)
    : store.machine.AlongSteps (fun state input => ¬ store.Reclaims state input) state
        inputs := by
  induction inputs generalizing state with
  | nil => trivial
  | cons input rest ih =>
      have later := before.step admissible.1
      refine ⟨?_, ih later admissible.2 fresh.2 reported.2⟩
      rintro ⟨now, workerId, leaseExpiresAt, job, call, valid, picked, expired⟩
      obtain ⟨member, step, stored⟩ :=
        stored_of_reclaim before.1 fresh.1 call picked expired valid
      have again := (before.2 job member).reclaimCount_claim step expired.1
      have unclaimed := (later.2 _ stored).reportsAttempts_iff.mp (reported.2.head _ stored)
      omega

/-- Along runs from the empty store: without reclaims all attempts are reported, with
identifiers that never repeat a reclaim leaves one out, and in each state exactly the jobs
that were reclaimed are reported short.
-/
theorem reported_iff_noReclaim (store : LawfulStore State Caller)
    (inputs : List (StoreInput Caller))
    (admissible
      : store.machine.AlongSteps (fun _ input => input.call.Admissible) store.initial inputs)
    : (store.machine.AlongSteps (fun state input => ¬ store.Reclaims state input) store.initial
            inputs
        → store.machine.Along store.AttemptsReported store.initial inputs)
      ∧ (store.machine.AlongSteps
            (fun state input => input.ambient.Fresh (store.ledger state)) store.initial inputs
        → store.machine.Along store.AttemptsReported store.initial inputs
        → store.machine.AlongSteps (fun state input => ¬ store.Reclaims state input)
            store.initial inputs)
      ∧ store.machine.Along
          (fun state =>
            ∀ job ∈ store.jobs state, job.ReportsAttempts ↔ job.reclaimCount = 0)
          store.initial inputs := by
  have start : store.LegalHistories store.initial :=
    ⟨store.initiallySound, initially_forall _⟩
  refine ⟨attemptsReported_along start (initially_forall _) admissible,
    noReclaim_of_attemptsReported start admissible, ?_⟩
  have legal : store.machine.Along store.LegalHistories store.initial inputs :=
    Machine.along_of_preserved (fun _ _ holds step => holds.step step) start admissible
  exact legal.imp (fun _ holds job member => (holds.2 job member).reportsAttempts_iff)

end LawfulStore

/-- In both stores, along every run of admissible calls: if no step reclaims an expired lease,
`Attempts` reports every attempt of every job exactly once in every state; if the identifiers
drawn never repeat, it does not in every run with a reclaim; and in each state it reports the
attempts of exactly those jobs in whose history no `Running` entry follows another one.
-/
theorem attempts_reported_iff (inputs : List (StoreInput Unit))
    (filteredInputs : List (StoreInput QueryFilter))
    : (InMemoryJobStore.lawful.machine.AlongSteps (fun _ input => input.call.Admissible)
            .empty inputs
        → (InMemoryJobStore.lawful.machine.AlongSteps
              (fun store input => ¬ InMemoryJobStore.lawful.Reclaims store input) .empty inputs
            → InMemoryJobStore.lawful.machine.Along
                InMemoryJobStore.lawful.AttemptsReported .empty inputs)
          ∧ (InMemoryJobStore.lawful.machine.AlongSteps
                (fun store input => input.ambient.Fresh store.jobsById) .empty inputs
            → InMemoryJobStore.lawful.machine.Along
                InMemoryJobStore.lawful.AttemptsReported .empty inputs
            → InMemoryJobStore.lawful.machine.AlongSteps
                (fun store input => ¬ InMemoryJobStore.lawful.Reclaims store input) .empty
                inputs)
          ∧ InMemoryJobStore.lawful.machine.Along
              (fun store =>
                ∀ job ∈ InMemoryJobStore.lawful.jobs store,
                  job.ReportsAttempts ↔ job.reclaimCount = 0)
              .empty inputs)
      ∧ (SqliteJobStore.lawful.machine.AlongSteps (fun _ input => input.call.Admissible)
            .empty filteredInputs
        → (SqliteJobStore.lawful.machine.AlongSteps
              (fun db input => ¬ SqliteJobStore.lawful.Reclaims db input) .empty
              filteredInputs
            → SqliteJobStore.lawful.machine.Along SqliteJobStore.lawful.AttemptsReported
                .empty filteredInputs)
          ∧ (SqliteJobStore.lawful.machine.AlongSteps
                (fun db input => input.ambient.Fresh db.ledger) .empty filteredInputs
            → SqliteJobStore.lawful.machine.Along SqliteJobStore.lawful.AttemptsReported
                .empty filteredInputs
            → SqliteJobStore.lawful.machine.AlongSteps
                (fun db input => ¬ SqliteJobStore.lawful.Reclaims db input) .empty
                filteredInputs)
          ∧ SqliteJobStore.lawful.machine.Along
              (fun db =>
                ∀ job ∈ SqliteJobStore.lawful.jobs db,
                  job.ReportsAttempts ↔ job.reclaimCount = 0)
              .empty filteredInputs) :=
  ⟨InMemoryJobStore.lawful.reported_iff_noReclaim inputs,
    SqliteJobStore.lawful.reported_iff_noReclaim filteredInputs⟩

/-- A first claim of the new job is no reclaim, since the job is not running. -/
theorem firstClaimRun_noReclaim {State Caller : Type} (store : LawfulStore State Caller)
    (caller : Caller) (state : State)
    (picks
      : store.nextDue caller
          (store.machine.run state ((firstClaimRun caller).take 1)).2 (.ofTicks 1)
        = some smallJob)
    : store.machine.AlongSteps (fun state input => ¬ store.Reclaims state input) state
        (firstClaimRun caller) := by
  refine ⟨?_, ?_, trivial⟩
  · intro ⟨_, _, _, _, call, _⟩
    cases call
  · intro ⟨now, workerId, leaseExpiresAt, job, call, valid, picked, expired⟩
    cases call
    cases picks.symm.trans picked
    cases expired.1

/-- The attempts are reported in the run up to the first claim, in both stores. -/
theorem attempts_reported_iff_firstClaim
    : InMemoryJobStore.lawful.machine.Along InMemoryJobStore.lawful.AttemptsReported .empty
          (firstClaimRun ())
      ∧ SqliteJobStore.lawful.machine.Along SqliteJobStore.lawful.AttemptsReported .empty
          (firstClaimRun .everyRow) := by
  obtain ⟨inMemory, sqlite⟩ :=
    attempts_reported_iff (firstClaimRun ()) (firstClaimRun .everyRow)
  refine ⟨?_, ?_⟩
  · exact (inMemory (firstClaimRun_admissible _ _ _)).1
      (firstClaimRun_noReclaim InMemoryJobStore.lawful () .empty (by decide +kernel))
  · exact (sqlite (firstClaimRun_admissible _ _ _)).1
      (firstClaimRun_noReclaim SqliteJobStore.lawful .everyRow .empty (by decide +kernel))

/-- The reclaimed job of the small run. -/
def reclaimedSnapshot : JobRecord :=
  firstSnapshot.claimedUnder (smallAmbient 9) (.ofTicks 9) "worker-2" (.ofTicks 15)

/-- After a crash and a reclaim the job has two attempts, and `Attempts` reports one, in both
stores.
-/
theorem attempts_missing_after_reclaim
    : InMemoryJobStore.lawful.Reachable
          (InMemoryJobStore.lawful.machine.run .empty (crashedWorkerRun ())).2
      ∧ reclaimedSnapshot ∈ InMemoryJobStore.lawful.jobs
          (InMemoryJobStore.lawful.machine.run .empty (crashedWorkerRun ())).2
      ∧ SqliteJobStore.lawful.Reachable
          (SqliteJobStore.lawful.machine.run .empty (crashedWorkerRun .everyRow)).2
      ∧ reclaimedSnapshot ∈ SqliteJobStore.lawful.jobs
          (SqliteJobStore.lawful.machine.run .empty (crashedWorkerRun .everyRow)).2
      ∧ reclaimedSnapshot.attemptCount = 2
      ∧ reclaimedSnapshot.attempts = [.running 1 (.ofTicks 9)]
      ∧ ¬ reclaimedSnapshot.ReportsAttempts := by
  refine ⟨Machine.reaches_run (crashedWorkerRun_admissible _ _ _), by decide +kernel,
    Machine.reaches_run (crashedWorkerRun_admissible _ _ _), by decide +kernel, by decide,
    by decide, ?_⟩
  intro reports
  have all := reports.count
  revert all
  decide

end JobScheduler
