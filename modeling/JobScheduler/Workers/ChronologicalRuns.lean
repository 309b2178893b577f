import JobScheduler.Actions.JobActions
import JobScheduler.Lifecycle.RetryRounds
import JobScheduler.Workers.ClockedSteps

/-! Histories in order of time. Along clocked runs they stay so unless a claim with an old
reading comes to a retry that is due before its failure was recorded.
-/

namespace JobScheduler

open Library JobLifecycleService

namespace WorkerSystem

variable {State Caller : Type} {store : LawfulStore State Caller}
  {system : WorkerSystem State} {leaseDuration : TimeSpan}

/-- An early claim is granted, and the history it leaves is out of order. -/
theorem ClaimsEarly.outOfOrder (invariant : Invariant store system)
    {input : WorkerInput Caller} (allowed : system.Allowed store input)
    (early : system.ClaimsEarly store leaseDuration input)
    : ¬ (system.step store.methods leaseDuration input).HistoriesInOrder store := by
  cases input with
  | claim caller ambient now workerId =>
      obtain ⟨leaseExpiresAt, added, valid, job, picked, scheduled, last, final, before⟩ := early
      have pending : job.isPending = true := by simp [JobRecord.isPending, scheduled]
      obtain ⟨next, outcome, ledger⟩ := store.claims caller ambient system.store now workerId
        leaseExpiresAt job invariant.reached.reachable.sound picked (Or.inl pending) valid
        allowed.1
      have stored : (system.step store.methods leaseDuration
          (.claim caller ambient now workerId)).store = next := by
        rw [step_store, storeInput, show (now.add leaseDuration).toOption = some leaseExpiresAt
          from added]
        exact congrArg Prod.snd outcome
      intro inOrder
      have after := inOrder (job.claimedUnder ambient now workerId leaseExpiresAt) (by
        rw [stored, LawfulStore.jobs, ledger]
        exact KeyedTable.mem_set.mpr (Or.inl rfl))
      have step : RecordStep (store.nextDue caller system.store) ambient
          (.tryClaimNextDueJob now workerId leaseExpiresAt) job
          (job.claimedUnder ambient now workerId leaseExpiresAt) :=
        .claimed picked (Or.inl pending) valid
      obtain ⟨entry, appended, -⟩ := job.claimedUnder_eq ambient now workerId leaseExpiresAt
      have member := List.mem_of_getLast? appended
      have later := (step.chronological_iff.mp after.1).2 last final entry member
      cases StoreCall.appended_changedAt member
      exact absurd before (not_lt.mpr later)
  | advance | client | renew | issueCompletion | complete => cases early

/-- A run whose histories stay in order has no early claim, by induction on its inputs. -/
theorem notEarly_of_historiesInOrder {inputs : List (WorkerInput Caller)}
    (invariant : Invariant store system)
    (allowed
      : (machine store.methods leaseDuration).AlongSteps (fun system => system.Allowed store)
          system inputs)
    (inOrder
      : (machine store.methods leaseDuration).Along (fun system => system.HistoriesInOrder store)
          system inputs)
    : (machine store.methods leaseDuration).AlongSteps
        (fun system input => ¬ system.ClaimsEarly store leaseDuration input) system inputs := by
  induction inputs generalizing system with
  | nil => trivial
  | cons input rest ih =>
      refine ⟨?_, ih (invariant.step leaseDuration allowed.1) allowed.2 inOrder.2⟩
      exact fun early => early.outOfOrder invariant allowed.1 inOrder.2.head

-----------------------------------------------------------------------------------------
-- Delays that are long enough
-----------------------------------------------------------------------------------------

/-- The step makes no job due before its last change: a retry delay reaches from the reading
in `CompleteExecution` at least to the one in the store.
-/
def Covered (system : WorkerSystem State) : WorkerInput Caller → Prop
  | .client input => ∀ job, input.call = .add job → job.DueLater
  | .complete index _ ambient definitions utcNow result =>
      result.succeeded = false
      → ∀ held ∈ system.claims[index]?,
          ∀ definition ∈ retryDefinition definitions held.snapshot,
            ∀ scheduledAt ∈ (utcNow.add definition.retryPolicy.delay).toOption,
              ambient.utcNow ≤ scheduledAt
  | _ => True

/-- A covered step adds no job that is due before its only change. -/
theorem Asks.dueLater {input : WorkerInput Caller} {call : StoreInput Caller}
    (asks : Asks leaseDuration system input call) (covered : system.Covered input)
    {job : JobRecord} (added : call.call = .add job)
    : job.DueLater := by
  cases asks with
  | client => exact covered job added
  | claim => cases added
  | renew => cases added
  | complete _ issued =>
      cases added
      cases completionCall_carries issued

/-- A covered step asks for no retry that is due before its failure. -/
theorem Asks.covered {input : WorkerInput Caller} {call : StoreInput Caller}
    (asks : Asks leaseDuration system input call) (allowed : system.Allowed store input)
    (covered : system.Covered input) {id token : Guid} {reason : String}
    {scheduledAt : DateTimeOffset}
    (retries : call.call = .scheduleRetry id token reason scheduledAt)
    : call.ambient.utcNow ≤ scheduledAt := by
  cases asks with
  | client =>
      have client := allowed.2
      rw [retries] at client
      cases client
  | claim => cases retries
  | renew => cases retries
  | @complete _ _ ambient definitions utcNow result held _ _ listed issued =>
      cases retries
      rcases completionCall_cases definitions utcNow held.snapshot result with ⟨-, other⟩
        | ⟨-, -, other⟩ | ⟨definition, failed, retried, ⟨runAt, added, other⟩ | ⟨_, -, other⟩⟩
      · cases issued.symm.trans other
      · cases issued.symm.trans other
      · cases issued.symm.trans other
        exact covered failed held listed definition retried scheduledAt (by rw [added]; rfl)
      · cases issued.symm.trans other

/-- If no job is due before its last change, claims are not early. -/
theorem not_claimsEarly_of_dueLater (picksDue : store.PicksDue)
    (invariant : Invariant store system)
    (dueLater : ∀ job ∈ store.jobs system.store, job.DueLater) (input : WorkerInput Caller)
    : ¬ system.ClaimsEarly store leaseDuration input := by
  cases input with
  | claim caller ambient now workerId =>
      rintro ⟨leaseExpiresAt, -, -, job, picked, -, last, final, before⟩
      obtain ⟨member, isDue⟩ := picksDue _ invariant.reached caller now job picked
      obtain ⟨due, known, past⟩ := JobRecord.dueInstant_of_isDue isDue
      have later := (dueLater job member last final due known).trans past
      exact absurd before (not_lt.mpr later)
  | advance | client | renew | issueCompletion | complete => exact id

-----------------------------------------------------------------------------------------
-- Whole runs
-----------------------------------------------------------------------------------------

section ClockedRuns

variable {clock : DateTimeOffset} {inputs : List (WorkerInput Caller)}
  (picksDue : store.PicksDue)
  (allowed
    : (machine store.methods leaseDuration).AlongSteps (fun system => system.Allowed store)
        (.start store clock) inputs)
  (clocked
    : (machine store.methods leaseDuration).AlongSteps Clocked (.start store clock) inputs)

include picksDue allowed clocked

/-- Every state of a clocked run is punctual. -/
theorem punctual_along
    : (machine store.methods leaseDuration).Along (Punctual store) (.start store clock)
        inputs :=
  Machine.along_of_preserved
    (fun _ _ punctual step => punctual.step picksDue step.1 step.2)
    (Punctual.start clock) (allowed.and clocked)

/-- In a clocked run the histories stay in order exactly when no claim is early. -/
theorem historiesInOrder_iff
    : (machine store.methods leaseDuration).AlongSteps
          (fun system input => ¬ system.ClaimsEarly store leaseDuration input)
          (.start store clock) inputs
      ↔ (machine store.methods leaseDuration).Along
          (fun system => system.HistoriesInOrder store) (.start store clock) inputs := by
  constructor
  · intro notEarly
    have inOrder : (machine store.methods leaseDuration).Along
        (fun system =>
          Punctual store system ∧ ∀ job ∈ store.jobs system.store, job.Chronological)
        (.start store clock) inputs :=
      Machine.along_of_preserved
        (fun _ _ holds step => ⟨holds.1.step picksDue step.1 step.2.1,
          holds.1.chronological_step picksDue step.1 step.2.1 step.2.2 holds.2⟩)
        ⟨Punctual.start clock, store.initially_forall _⟩ (allowed.and (clocked.and notEarly))
    exact inOrder.imp (fun _ holds job member =>
      ⟨holds.2 job member, holds.1.nonnegativeDurations job member⟩)
  · exact notEarly_of_historiesInOrder (Invariant.start clock) allowed

/-- The law of clocked runs: the histories stay in order of time exactly when no claim is early,
and early claims give no negative duration either.
-/
theorem chronologyLaw
    : ((machine store.methods leaseDuration).AlongSteps
            (fun system input => ¬ system.ClaimsEarly store leaseDuration input)
            (.start store clock) inputs
          ↔ (machine store.methods leaseDuration).Along
              (fun system => system.HistoriesInOrder store) (.start store clock) inputs)
      ∧ (machine store.methods leaseDuration).Along
          (fun system => ∀ job ∈ store.jobs system.store, job.NonnegativeDurations)
          (.start store clock) inputs :=
  ⟨historiesInOrder_iff picksDue allowed clocked,
    (punctual_along picksDue allowed clocked).imp
      (fun _ punctual => punctual.nonnegativeDurations)⟩

/-- If the steps of a clocked run are covered, no claim is early: every job stays due no
earlier than its last change.
-/
theorem notEarly_of_covered
    (covered
      : (machine store.methods leaseDuration).AlongSteps Covered (.start store clock) inputs)
    : (machine store.methods leaseDuration).AlongSteps
        (fun system input => ¬ system.ClaimsEarly store leaseDuration input)
        (.start store clock) inputs := by
  have steps := allowed.and (clocked.and covered)
  have dueLater : (machine store.methods leaseDuration).Along
      (fun system =>
        Punctual store system ∧ ∀ job ∈ store.jobs system.store, job.DueLater)
      (.start store clock) inputs := by
    refine Machine.along_of_preserved ?_ ⟨Punctual.start clock, store.initially_forall _⟩ steps
    rintro system input ⟨punctual, dueLater⟩ ⟨allowed, clocked, covered⟩
    refine ⟨punctual.step picksDue allowed clocked, ?_⟩
    refine step_forall_jobs punctual.reached allowed dueLater
      (fun call job asks added _ => asks.dueLater covered added) ?_
    intro call job changed asks one member
    refine one.dueLater (dueLater job member) ?_
      (fun _ _ _ _ retries => asks.covered allowed covered retries)
    intro _
    exact punctual.notBeforeLast picksDue allowed clocked asks one member
      (fun _ => not_claimsEarly_of_dueLater picksDue punctual.toInvariant dueLater input)
  refine Machine.AlongSteps.imp ?_ dueLater steps
  intro system input holds _
  exact not_claimsEarly_of_dueLater picksDue holds.1.toInvariant holds.2 input

/-- If the steps of a clocked run are covered, the histories stay in order. -/
theorem historiesInOrder_of_covered
    (covered
      : (machine store.methods leaseDuration).AlongSteps Covered (.start store clock) inputs)
    : (machine store.methods leaseDuration).Along
        (fun system => system.HistoriesInOrder store) (.start store clock) inputs :=
  (historiesInOrder_iff picksDue allowed clocked).mp
    (notEarly_of_covered picksDue allowed clocked covered)

end ClockedRuns

end WorkerSystem

/-- A representable delay that is not negative leads forward. -/
theorem DateTimeOffset.le_add {instant later : DateTimeOffset} {span : TimeSpan}
    (added : instant.add span = .ok later) (forward : 0 ≤ span.ticks)
    : instant ≤ later := by
  unfold DateTimeOffset.add at added
  split at added
  · cases added
    change instant.utcTicks ≤ ((instant.utcTicks : Int) + span.ticks).toNat
    omega
  · cases added

/-- What the enqueue action builds is not due before its only change: both times come from one
reading, and a delay is not negative.
-/
theorem EnqueueJobAction.jobFor_dueLater {ambient : Ambient} {type : String}
    {payload : JsonElement} {retryPolicy : JobRetryPolicy} {delaySeconds : Int}
    {actor : JobActor} {job : JobRecord}
    (built
      : EnqueueJobAction.jobFor ambient type payload retryPolicy delaySeconds actor = .ok job)
    : job.DueLater := by
  rcases jobFor_cases built with ⟨scheduledAt, delayed, added, made⟩ | made
  · obtain ⟨-, rfl⟩ := JobRecord.schedule_ok made
    intro last final due dueAt
    cases final
    cases dueAt
    refine DateTimeOffset.le_add added ?_
    have positive : 0 < delaySeconds := delayed
    simp only [TimeSpan.fromSeconds]
    omega
  · obtain ⟨-, rfl⟩ := JobRecord.enqueue_ok made
    intro last final due dueAt
    cases final
    cases dueAt
    exact le_refl ambient.utcNow

/-- Additions of the enqueue action are covered. -/
theorem WorkerSystem.covered_of_jobFor {State Caller : Type} (system : WorkerSystem State)
    {input : StoreInput Caller} {reading : Ambient} {type : String} {payload : JsonElement}
    {retryPolicy : JobRetryPolicy} {delaySeconds : Int} {actor : JobActor} {job : JobRecord}
    (built
      : EnqueueJobAction.jobFor reading type payload retryPolicy delaySeconds actor = .ok job)
    (adds : input.call = .add job)
    : system.Covered (.client input) := by
  intro added same
  cases adds.symm.trans same
  exact EnqueueJobAction.jobFor_dueLater built

/-- In both stores, along every clocked run: the changes of every job stay in order of time and
no finished attempt has a negative duration exactly when no valid claim comes to a scheduled
job with a reading from before the job's last change; the durations stay so in any case.
-/
theorem histories_in_order_iff (leaseDuration : TimeSpan) (clock : DateTimeOffset)
    (inputs : List (WorkerInput Unit)) (filteredInputs : List (WorkerInput QueryFilter))
    : ((WorkerSystem.machine InMemoryJobStore.lawful.methods leaseDuration).AlongSteps
              (fun system => system.Allowed InMemoryJobStore.lawful)
              (.start InMemoryJobStore.lawful clock) inputs
        → (WorkerSystem.machine InMemoryJobStore.lawful.methods leaseDuration).AlongSteps
              WorkerSystem.Clocked (.start InMemoryJobStore.lawful clock) inputs
        → ((WorkerSystem.machine InMemoryJobStore.lawful.methods leaseDuration).AlongSteps
                (fun system input =>
                  ¬ system.ClaimsEarly InMemoryJobStore.lawful leaseDuration input)
                (.start InMemoryJobStore.lawful clock) inputs
            ↔ (WorkerSystem.machine InMemoryJobStore.lawful.methods leaseDuration).Along
                (fun system => system.HistoriesInOrder InMemoryJobStore.lawful)
                (.start InMemoryJobStore.lawful clock) inputs)
          ∧ (WorkerSystem.machine InMemoryJobStore.lawful.methods leaseDuration).Along
              (fun system =>
                ∀ job ∈ InMemoryJobStore.lawful.jobs system.store, job.NonnegativeDurations)
              (.start InMemoryJobStore.lawful clock) inputs)
      ∧ ((WorkerSystem.machine SqliteJobStore.lawful.methods leaseDuration).AlongSteps
              (fun system => system.Allowed SqliteJobStore.lawful)
              (.start SqliteJobStore.lawful clock) filteredInputs
        → (WorkerSystem.machine SqliteJobStore.lawful.methods leaseDuration).AlongSteps
              WorkerSystem.Clocked (.start SqliteJobStore.lawful clock) filteredInputs
        → ((WorkerSystem.machine SqliteJobStore.lawful.methods leaseDuration).AlongSteps
                (fun system input =>
                  ¬ system.ClaimsEarly SqliteJobStore.lawful leaseDuration input)
                (.start SqliteJobStore.lawful clock) filteredInputs
            ↔ (WorkerSystem.machine SqliteJobStore.lawful.methods leaseDuration).Along
                (fun system => system.HistoriesInOrder SqliteJobStore.lawful)
                (.start SqliteJobStore.lawful clock) filteredInputs)
          ∧ (WorkerSystem.machine SqliteJobStore.lawful.methods leaseDuration).Along
              (fun system =>
                ∀ job ∈ SqliteJobStore.lawful.jobs system.store, job.NonnegativeDurations)
              (.start SqliteJobStore.lawful clock) filteredInputs) :=
  ⟨WorkerSystem.chronologyLaw InMemoryJobStore.picksDue,
    WorkerSystem.chronologyLaw SqliteJobStore.picksDue⟩

/-- Reports are retried at once. -/
def promptDefinition : IJobDefinition :=
  { reportDefinition with
    retryPolicy :=
      { reportDefinition.retryPolicy with
        delay := ⟨0⟩
        notNegative := le_refl 0 } }

/-- The scheduled job fails for the worker that claimed it: the service reads tick 4 and
schedules the retry for it, the store dates the failure by tick 6. Then the claim of another
worker takes effect.
-/
def retriedAtOnceRun {Caller : Type} (caller : Caller) (now : Nat) : List (WorkerInput Caller) :=
  [.client ⟨caller, smallAmbient 0, .add retriedJob⟩,
    .advance (.ofTicks 3),
    .claim caller (smallAmbient 3) (.ofTicks 3) "worker-1",
    .issueCompletion 0,
    .advance (.ofTicks 4),
    .advance (.ofTicks 5),
    .advance (.ofTicks 6),
    .complete 0 caller (smallAmbient 6) (fun _ => some promptDefinition) (.ofTicks 4)
      (.failure "no printer"),
    .claim caller (smallAmbient 5) (.ofTicks now) "worker-2"]

theorem retriedAtOnceRun_allowed {now : Nat} (past : DateTimeOffset.ofTicks now ≤ .ofTicks 6)
    : (WorkerSystem.machine InMemoryJobStore.lawful.methods ⟨4⟩).AlongSteps
          (fun system => system.Allowed InMemoryJobStore.lawful)
          (.start InMemoryJobStore.lawful (.ofTicks 0)) (retriedAtOnceRun () now)
      ∧ (WorkerSystem.machine SqliteJobStore.lawful.methods ⟨4⟩).AlongSteps
          (fun system => system.Allowed SqliteJobStore.lawful)
          (.start SqliteJobStore.lawful (.ofTicks 0)) (retriedAtOnceRun .everyRow now) := by
  refine ⟨?_, ?_⟩
  · exact ⟨⟨.firstAdd retriedJob_newlyMade (by decide), rfl⟩, .advance (by decide +kernel),
      ⟨by decide +kernel, by decide +kernel⟩, trivial, .advance (by decide +kernel),
      .advance (by decide +kernel), .advance (by decide +kernel),
      ⟨by decide +kernel, by decide +kernel⟩, ⟨by decide +kernel, past⟩, trivial⟩
  · exact ⟨⟨.firstAdd retriedJob_newlyMade (by decide), rfl⟩, .advance (by decide +kernel),
      ⟨by decide +kernel, by decide +kernel⟩, trivial, .advance (by decide +kernel),
      .advance (by decide +kernel), .advance (by decide +kernel),
      ⟨by decide +kernel, by decide +kernel⟩, ⟨by decide +kernel, past⟩, trivial⟩

theorem retriedAtOnceRun_clocked (now : Nat)
    : (WorkerSystem.machine InMemoryJobStore.lawful.methods ⟨4⟩).AlongSteps
          WorkerSystem.Clocked (.start InMemoryJobStore.lawful (.ofTicks 0))
          (retriedAtOnceRun () now)
      ∧ (WorkerSystem.machine SqliteJobStore.lawful.methods ⟨4⟩).AlongSteps
          WorkerSystem.Clocked (.start SqliteJobStore.lawful (.ofTicks 0))
          (retriedAtOnceRun .everyRow now) := by
  refine ⟨?_, ?_⟩
  · exact ⟨trivial, trivial, trivial, trivial, trivial, trivial, trivial,
      ⟨by decide +kernel, by decide +kernel, by decide +kernel⟩, trivial, trivial⟩
  · exact ⟨trivial, trivial, trivial, trivial, trivial, trivial, trivial,
      ⟨by decide +kernel, by decide +kernel, by decide +kernel⟩, trivial, trivial⟩

/-- The run in which the second worker reads the clock after the store has dated the failure
leaves every history in order, in both stores.
-/
theorem histories_in_order_iff_freshClaim
    : (WorkerSystem.machine InMemoryJobStore.lawful.methods ⟨4⟩).Along
          (fun system => system.HistoriesInOrder InMemoryJobStore.lawful)
          (.start InMemoryJobStore.lawful (.ofTicks 0)) (retriedAtOnceRun () 6)
      ∧ (WorkerSystem.machine SqliteJobStore.lawful.methods ⟨4⟩).Along
          (fun system => system.HistoriesInOrder SqliteJobStore.lawful)
          (.start SqliteJobStore.lawful (.ofTicks 0)) (retriedAtOnceRun .everyRow 6) := by
  obtain ⟨inMemory, sqlite⟩ := histories_in_order_iff ⟨4⟩ (.ofTicks 0)
    (retriedAtOnceRun () 6) (retriedAtOnceRun .everyRow 6)
  have allowed := @retriedAtOnceRun_allowed 6 (le_refl _)
  have clocked := retriedAtOnceRun_clocked 6
  refine ⟨(inMemory allowed.1 clocked.1).1.mp ?_, (sqlite allowed.2 clocked.2).1.mp ?_⟩
  · exact ⟨id, id, by decide +kernel, id, id, id, id, id, by decide +kernel, trivial⟩
  · exact ⟨id, id, by decide +kernel, id, id, id, id, id, by decide +kernel, trivial⟩

/-- With a retry delay of zero, which `JobRetryPolicy.Create` accepts, a claim that read the
clock at tick 5 is granted a job whose failure was dated by tick 6, in both stores.
-/
theorem history_out_of_order_staleClaim
    : JobRetryPolicy.create 2 ⟨0⟩ = .ok promptDefinition.retryPolicy
      ∧ (WorkerSystem.machine InMemoryJobStore.lawful.methods ⟨4⟩).AlongSteps
          (fun system => system.Allowed InMemoryJobStore.lawful)
          (.start InMemoryJobStore.lawful (.ofTicks 0)) (retriedAtOnceRun () 5)
      ∧ (WorkerSystem.machine InMemoryJobStore.lawful.methods ⟨4⟩).AlongSteps
          WorkerSystem.Clocked (.start InMemoryJobStore.lawful (.ofTicks 0))
          (retriedAtOnceRun () 5)
      ∧ ¬ WorkerSystem.HistoriesInOrder InMemoryJobStore.lawful
          ((WorkerSystem.machine InMemoryJobStore.lawful.methods ⟨4⟩).run
            (.start InMemoryJobStore.lawful (.ofTicks 0)) (retriedAtOnceRun () 5)).2
      ∧ (WorkerSystem.machine SqliteJobStore.lawful.methods ⟨4⟩).AlongSteps
          (fun system => system.Allowed SqliteJobStore.lawful)
          (.start SqliteJobStore.lawful (.ofTicks 0)) (retriedAtOnceRun .everyRow 5)
      ∧ (WorkerSystem.machine SqliteJobStore.lawful.methods ⟨4⟩).AlongSteps
          WorkerSystem.Clocked (.start SqliteJobStore.lawful (.ofTicks 0))
          (retriedAtOnceRun .everyRow 5)
      ∧ ¬ WorkerSystem.HistoriesInOrder SqliteJobStore.lawful
          ((WorkerSystem.machine SqliteJobStore.lawful.methods ⟨4⟩).run
            (.start SqliteJobStore.lawful (.ofTicks 0)) (retriedAtOnceRun .everyRow 5)).2 := by
  have allowed := @retriedAtOnceRun_allowed 5 (by decide)
  have clocked := retriedAtOnceRun_clocked 5
  exact ⟨rfl, allowed.1, clocked.1, by decide +kernel, allowed.2, clocked.2,
    by decide +kernel⟩

end JobScheduler
