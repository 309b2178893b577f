import JobScheduler.Ledger.AttemptLimit
import JobScheduler.Ledger.ClaimOrder
import JobScheduler.Ledger.JobEvents
import JobScheduler.Lifecycle.RetryRounds

/-! Workers that keep going bring the jobs to an end. The runs a job has left are used up by
completed rounds, whatever the handlers answer, and a store whose jobs have no run left has
nothing to hand out.
-/

namespace JobScheduler

open Library JobLifecycleService

-----------------------------------------------------------------------------------------
-- The runs a job has left
-----------------------------------------------------------------------------------------

namespace JobRecord

/-- The runs the job may still be given, the one in progress included. -/
def runsLeft (job : JobRecord) : Nat :=
  if job.isPending then (job.maxAttempts - job.attemptCount).toNat
  else if job.status = .running then max 1 (job.maxAttempts - job.attemptCount + 1).toNat
  else 0

theorem runsLeft_of_pending {job : JobRecord} (pending : job.isPending = true)
    : job.runsLeft = (job.maxAttempts - job.attemptCount).toNat := by
  rw [runsLeft, if_pos pending]

theorem runsLeft_of_running {job : JobRecord} (running : job.status = .running)
    : job.runsLeft = max 1 (job.maxAttempts - job.attemptCount + 1).toNat := by
  have active : ¬ job.isPending = true := by simp [isPending, running]
  rw [runsLeft, if_neg active, if_pos running]

/-- A job without a run left has ended: a waiting job has an attempt left. -/
theorem LimitInvariant.isSettled {job : JobRecord} (invariant : job.LimitInvariant)
    (done : job.runsLeft = 0)
    : job.isSettled = true := by
  cases status : job.status with
  | completed | failed => simp [JobRecord.isSettled, status]
  | running =>
      rw [runsLeft_of_running status] at done
      omega
  | queued | scheduled =>
      have pending : job.isPending = true := by simp [isPending, status]
      have left := invariant.pendingLeft pending
      rw [runsLeft_of_pending pending] at done
      omega

end JobRecord

namespace RecordStep

variable {nextDue : DateTimeOffset → Option JobRecord} {ambient : Ambient}
  {job changed : JobRecord}

/-- A claim takes no run from the job: the one it starts was left before, and a reclaimed job
is given one in any case.
-/
theorem runsLeft_claimed {now : DateTimeOffset} {workerId : String}
    {leaseExpiresAt : DateTimeOffset}
    (step
      : RecordStep nextDue ambient (.tryClaimNextDueJob now workerId leaseExpiresAt) job changed)
    (invariant : job.LimitInvariant)
    : changed.status = .running ∧ changed.runsLeft ≤ job.runsLeft := by
  have attempts := step.attemptCount_eq
  have bound := step.sameTerms.maxAttempts
  cases step with
  | claimed picked ready valid =>
      have running := job.claimedUnder_status ambient now workerId leaseExpiresAt
      refine ⟨running, ?_⟩
      rw [JobRecord.runsLeft_of_running running, attempts, bound, JobRecord.countP_claim]
      rcases ready with pending | ⟨before, -⟩
      · have left := invariant.pendingLeft pending
        rw [JobRecord.runsLeft_of_pending pending]
        omega
      · rw [JobRecord.runsLeft_of_running before]
        omega

/-- An outcome uses up the run of the job it concludes. -/
theorem runsLeft_concluded {call : StoreCall}
    (step : RecordStep nextDue ambient call job changed) (concludes : call.Concludes job.id)
    : changed.runsLeft < job.runsLeft := by
  have attempts := step.attemptCount_eq
  have bound := step.sameTerms.maxAttempts
  cases step with
  | claimed | renewed | acknowledged => cases concludes
  | completed running | failed running =>
      have used : max 1 (job.maxAttempts - job.attemptCount + 1).toNat ≥ 1 := le_max_left _ _
      rw [JobRecord.runsLeft_of_running running]
      exact used
  | retried running present attemptsLeft =>
      rw [JobRecord.runsLeft_of_pending rfl, JobRecord.runsLeft_of_running running, attempts,
        bound]
      simp only [StoreCall.appended]
      omega

end RecordStep

-----------------------------------------------------------------------------------------
-- Completions of a running job
-----------------------------------------------------------------------------------------

namespace JobLifecycleService

variable {definitions : IJobDefinitionRegistry} {utcNow : DateTimeOffset} {job : JobRecord}
  {result : JobExecutionResult} {call : StoreCall} {completion : JobExecutionCompletion}

/-- The call a completion issues concludes a run of the snapshot's job. -/
theorem completionCall_concludes
    (issued : completionCall definitions utcNow job result = .ok (call, completion))
    : call.Concludes job.id := by
  rcases completionCall_cases definitions utcNow job result with ⟨-, other⟩ | ⟨-, -, other⟩
    | ⟨_, -, -, ⟨_, -, other⟩ | ⟨_, -, other⟩⟩
  · cases issued.symm.trans other
    exact rfl
  · cases issued.symm.trans other
    exact rfl
  · cases issued.symm.trans other
    exact rfl
  · cases issued.symm.trans other

/-- While the job runs as in the snapshot, its completion issues a call that is enabled: a
retry is asked for only with attempts left.
-/
theorem completionCall_enabled (ambient : Ambient) (running : job.status = .running)
    (present : isNullOrWhiteSpace (failureReasonOf result) = false)
    (representable
      : ∀ definition,
          definitions job.type = some definition
          → ∃ runAt, utcNow.add definition.retryPolicy.delay = .ok runAt)
    : ∃ call completion revision,
        completionCall definitions utcNow job result = .ok (call, completion)
        ∧ call.revision ambient = some revision
        ∧ revision.jobId = job.id
        ∧ revision.enabled job = true := by
  have owned : job.isRunningUnder job.currentStateChangeId = true :=
    JobRecord.isRunningUnder_iff.mpr ⟨running, rfl⟩
  rcases completionCall_cases definitions utcNow job result with ⟨-, issued⟩ | ⟨-, -, issued⟩
    | ⟨definition, -, retry, reported⟩
  · exact ⟨_, _, _, issued, rfl, rfl, owned⟩
  · exact ⟨_, _, _, issued, rfl, rfl, by simp only [present, owned]; rfl⟩
  · have left : (job.attemptCount : Int) < job.maxAttempts := by
      by_contra used
      rw [retryDefinition, if_neg used] at retry
      cases retry
    rw [retryDefinition, if_pos left] at retry
    obtain ⟨runAt, fits⟩ := representable definition retry
    rcases reported with ⟨scheduledAt, -, issued⟩ | ⟨exception, thrown, -⟩
    · exact ⟨_, _, _, issued, rfl, rfl, by simp only [present, owned, left]; rfl⟩
    · cases thrown.symm.trans fits

end JobLifecycleService

-----------------------------------------------------------------------------------------
-- Rounds served by workers
-----------------------------------------------------------------------------------------

namespace LawfulStore

variable {State Caller : Type} (store : LawfulStore State Caller)
  (definitions : IJobDefinitionRegistry)

/-- The second state is reached from the first by an orderly run whose claims are valid. -/
abbrev ValidlyReaches : State → State → Prop :=
  store.machine.Reaches (fun state input => store.Orderly state input ∧ input.call.ValidIfClaim)

/-- A worker serves a round: it claims, and completes what it is granted. The answer tells
whether it was granted a job.
-/
def serve (state : State) (round : Round Caller) : Bool × State :=
  match store.machine.step state round.claim with
  | (.job (some snapshot), claimed) =>
      (true,
        (completeExecution (store.methods round.caller) definitions round.utcNow
          round.completionAmbient snapshot round.result claimed).2)
  | (_, next) => (false, next)

/-- Rounds served one after the other. -/
def service : Machine State (Round Caller) Bool where
  step := store.serve definitions

/-- The runs all stored jobs have left. -/
def runsLeft (state : State) : Nat := ((store.jobs state).map JobRecord.runsLeft).sum

@[simp] theorem service_step (state : State) (round : Round Caller)
    : (store.service definitions).step state round = store.serve definitions state round :=
  rfl

/-- The arguments of the round are valid, the identifiers it draws are new, and its result can
be stored.
-/
structure Serviceable (state : State) (round : Round Caller) : Prop where
  fresh : round.claimAmbient.Fresh (store.ledger state)
  valid : JobRecord.ValidClaim round.workerId round.now round.leaseExpiresAt
  freshAfter
    : round.completionAmbient.Fresh (store.ledger (store.machine.step state round.claim).2)
  present : isNullOrWhiteSpace (failureReasonOf round.result) = false
  representable
    : ∀ type definition,
        definitions type = some definition
        → ∃ runAt, round.utcNow.add definition.retryPolicy.delay = .ok runAt

/-- The caller's round comes when every job that waits or runs is due. -/
structure Timely (caller : Caller) (state : State) (round : Round Caller) : Prop where
  caller : round.caller = caller
  due
    : ∀ job ∈ store.jobs state,
        ∀ instant, job.dueInstant = some instant → instant ≤ round.now

variable {store definitions} {caller : Caller} {state : State} {round : Round Caller}

theorem runsLeft_of_ledger {next : State} (same : store.ledger next = store.ledger state)
    : store.runsLeft next = store.runsLeft state := by
  rw [runsLeft, jobs, same, runsLeft, jobs]

theorem ValidlyReaches.orderly {first last : State} (reached : store.ValidlyReaches first last)
    : store.OrderlyReaches first last :=
  reached.mono (fun _ _ met => met.1)

/-- A granted round claims a job and concludes its run: the ledger changes at that job alone,
by a claim and then by a conclusive call.
-/
theorem serve_granted {snapshot : JobRecord} {claimed : State}
    (reached : store.ValidlyReaches store.initial state)
    (serviceable : store.Serviceable definitions state round)
    (granted : store.machine.step state round.claim = (.job (some snapshot), claimed))
    : ∃ job changed call,
        (store.ledger state).find? snapshot.id = some job
        ∧ RecordStep (store.nextDue round.caller state) round.claimAmbient
            round.claim.call job snapshot
        ∧ store.Orderly claimed ⟨round.caller, round.completionAmbient, call⟩
        ∧ call.Concludes snapshot.id
        ∧ (store.serve definitions state round).2
          = (store.machine.step claimed ⟨round.caller, round.completionAmbient, call⟩).2
        ∧ RecordStep (store.nextDue round.caller claimed) round.completionAmbient call
            snapshot changed
        ∧ store.ledger (store.serve definitions state round).2
          = ((store.ledger state).set snapshot).set changed := by
  have sound := reached.orderly.reachable.sound
  have orderly : store.Orderly state round.claim := .claim serviceable.fresh
  have fresh := serviceable.freshAfter
  have next : store.OrderlyReaches store.initial claimed := by
    have step := reached.orderly.step orderly
    rw [granted] at step
    exact step
  rw [granted] at fresh
  obtain ⟨job, picked, found, seen, ready, valid, shown, ledger⟩ := stored_of_claim sound granted
  have sameId : snapshot.id = job.id := by rw [shown, JobRecord.claimedUnder_id]
  have claim : RecordStep (store.nextDue round.caller state) round.claimAmbient round.claim.call
      job snapshot := by
    rw [shown]
    exact .claimed picked ready valid
  have running : snapshot.status = .running := by
    rw [shown]
    exact JobRecord.claimedUnder_status _ _ _ _ _
  have stored : (store.ledger claimed).find? snapshot.id = some snapshot := by
    rw [ledger]
    exact KeyedTable.find?_set_self _ _
  have visible : store.visible round.caller snapshot = true := by
    rw [store.ownership round.caller snapshot job claim.sameTerms.tenantId
      claim.sameTerms.createdByActorId]
    exact seen
  obtain ⟨call, completion, revision, issued, revises, target, enabled⟩ :=
    completionCall_enabled round.completionAmbient running serviceable.present
      (serviceable.representable snapshot.type)
  have served : (store.serve definitions state round).2
      = ((store.methods round.caller).call round.completionAmbient call claimed).2 := by
    simp only [serve, granted, completeExecution_eq, issued]
  refine ⟨job, revision.change snapshot, call, sameId ▸ found, claim,
    .carries (completionCall_carries issued) fresh, completionCall_concludes issued, served,
    .ofRevision revises target.symm enabled, ?_⟩
  rw [served]
  rcases @revision_cases _ _ store round.caller round.completionAmbient _ _ _
      next.reachable.sound revises with
    ⟨other, after, answered, there, -, -, written⟩ | ⟨-, disabled⟩ | ⟨-, stale, -⟩
  · cases (target ▸ there).symm.trans stored
    rw [answered, written, ledger]
  · cases (disabled snapshot (target ▸ stored) visible).symm.trans enabled
  · exact absurd fresh stale

/-- A round that is not granted a job leaves the ledger. -/
theorem serve_refused (reached : store.ValidlyReaches store.initial state)
    (refused : ∀ job, (store.machine.step state round.claim).1 ≠ .job (some job))
    : store.serve definitions state round = (false, (store.machine.step state round.claim).2)
      ∧ store.ledger (store.machine.step state round.claim).2 = store.ledger state := by
  have step := store.follows round.caller round.claimAmbient round.claim.call state
    reached.orderly.reachable.sound (StoreCall.admissible_claim _ _ _)
  refine ⟨?_, step.eq_of_noJob refused⟩
  rw [serve]
  split
  · rename_i granted
    exact absurd (congrArg Prod.fst granted) (refused _)
  · rename_i other
    rw [other]

/-- Whether the round was granted a job or not, it leads on from a validly reached state. It
uses up a run if it was, and leaves the ledger if not.
-/
theorem serve_spec (reached : store.ValidlyReaches store.initial state)
    (serviceable : store.Serviceable definitions state round)
    : store.ValidlyReaches state (store.serve definitions state round).2
      ∧ ((store.serve definitions state round).1 = true
          ∧ store.runsLeft (store.serve definitions state round).2 < store.runsLeft state
        ∨ (store.serve definitions state round).1 = false
          ∧ store.ledger (store.serve definitions state round).2 = store.ledger state) := by
  have claim : store.ValidlyReaches state (store.machine.step state round.claim).2 := by
    refine (Machine.Reaches.refl state).step ⟨.claim serviceable.fresh, ?_⟩
    intro now workerId leaseExpiresAt claims
    cases claims
    exact serviceable.valid
  by_cases granted : ∃ job, (store.machine.step state round.claim).1 = .job (some job)
  · obtain ⟨snapshot, answered⟩ := granted
    obtain ⟨job, changed, call, stored, claimed, orderly, concludes, served, concluded, ledger⟩ :=
      serve_granted reached serviceable (Prod.ext answered rfl)
    refine ⟨?_, Or.inl ⟨?_, ?_⟩⟩
    · rw [served]
      refine claim.step ⟨orderly, ?_⟩
      intro now workerId leaseExpiresAt claims
      cases (show call = _ from claims)
      cases concludes
    · rw [serve, show store.machine.step state round.claim = (.job (some snapshot), _) from
        Prod.ext answered rfl]
    · have invariant := reached.orderly.reachable.limitInvariant job (KeyedTable.find?_mem stored)
      obtain ⟨running, kept⟩ := claimed.runsLeft_claimed invariant
      have used := concluded.runsLeft_concluded concludes
      have first := KeyedTable.sum_set JobRecord.runsLeft stored
      have there : ((store.ledger state).set snapshot).find? changed.id = some snapshot := by
        rw [concluded.id_eq]
        exact KeyedTable.find?_set_self _ _
      have second := KeyedTable.sum_set JobRecord.runsLeft there
      rw [runsLeft, runsLeft, jobs, jobs, ledger]
      omega
  · rw [not_exists] at granted
    obtain ⟨served, same⟩ := @serve_refused _ _ _ definitions _ _ reached granted
    rw [served]
    exact ⟨claim, Or.inr ⟨rfl, same⟩⟩

/-- A timely round is granted a job while a run is left: the job that has it is due, so the
claim finds one.
-/
theorem serve_of_runsLeft (reached : store.ValidlyReaches store.initial state)
    (dueFirst : store.DueFirst caller state)
    (serviceable : store.Serviceable definitions state round)
    (timely : store.Timely caller state round) (left : 0 < store.runsLeft state)
    : (store.serve definitions state round).1 = true := by
  obtain ⟨runs, counted, remains⟩ := List.sum_pos_iff_exists_pos_nat.mp left
  obtain ⟨job, member, rfl⟩ := List.mem_map.mp counted
  obtain ⟨instant, known, active⟩ : ∃ instant,
      job.dueInstant = some instant ∧ (job.isPending = true ∨ job.status = .running) := by
    have coherent := (reached.orderly.coherenceInvariant job member).coherent
    by_cases running : job.status = .running
    · obtain ⟨-, -, expires⟩ := coherent.claimPresent running
      obtain ⟨instant, known⟩ := Option.isSome_iff_exists.mp expires
      exact ⟨instant, by rw [JobRecord.dueInstant, if_pos running, known], Or.inr running⟩
    · have pending : job.isPending = true := by
        by_contra idle
        rw [JobRecord.runsLeft, if_neg idle, if_neg running] at remains
        exact absurd remains (lt_irrefl 0)
      obtain ⟨enqueuedAt, -, known⟩ := coherent.dueWhilePending pending
      exact ⟨_, by rw [JobRecord.dueInstant, if_neg running, known], Or.inl pending⟩
  have due : job.isDue round.now = true := by
    have past := timely.due job member instant known
    rcases active with pending | running
    · simp [JobRecord.isDue, pending, known, past]
    · simp [JobRecord.isDue, running, known, past]
  cases picks : store.nextDue caller state round.now with
  | none =>
      have idle := (dueFirst.nothing round.now picks).1 job member
      cases idle.symm.trans due
  | some next =>
      obtain ⟨-, nextDue, -⟩ := dueFirst.picked round.now next picks
      rw [← timely.caller] at picks
      obtain ⟨claimed, outcome, -⟩ := store.claims round.caller round.claimAmbient state round.now
        round.workerId round.leaseExpiresAt next dueFirst.sound picks
        (JobRecord.isDue_ready nextDue) serviceable.valid serviceable.fresh
      have granted : store.machine.step state round.claim = (.job _, claimed) := outcome
      rw [serve, granted]

-----------------------------------------------------------------------------------------
-- Series of rounds
-----------------------------------------------------------------------------------------

/-- The rounds that are granted a job use up the runs that are left, by induction on the
rounds.
-/
theorem service_bounded {rounds : List (Round Caller)}
    (reached : store.ValidlyReaches store.initial state)
    (serviceable
      : (store.service definitions).AlongSteps (store.Serviceable definitions) state rounds)
    : store.ValidlyReaches state ((store.service definitions).run state rounds).2
      ∧ ((store.service definitions).run state rounds).1.count true
          + store.runsLeft ((store.service definitions).run state rounds).2
        ≤ store.runsLeft state := by
  induction rounds generalizing state with
  | nil => exact ⟨.refl _, by simp⟩
  | cons round rest ih =>
      obtain ⟨next, outcome⟩ := serve_spec reached serviceable.1
      obtain ⟨final, later⟩ := ih (reached.trans next) serviceable.2
      refine ⟨next.trans final, ?_⟩
      simp only [Machine.run_cons, service_step]
      rcases outcome with ⟨granted, used⟩ | ⟨refused, same⟩
      · rw [granted, List.count_cons_self]
        omega
      · rw [refused, List.count_cons_of_ne (by decide), ← runsLeft_of_ledger same]
        exact later

/-- Timely rounds leave no run, once they are as many as the runs that were left: each of them
uses up one, by induction on the rounds.
-/
theorem service_drains {rounds : List (Round Caller)}
    (dueFirst : ∀ state, store.ValidlyReaches store.initial state → store.DueFirst caller state)
    (reached : store.ValidlyReaches store.initial state)
    (serviceable
      : (store.service definitions).AlongSteps (store.Serviceable definitions) state rounds)
    (timely : (store.service definitions).AlongSteps (store.Timely caller) state rounds)
    (enough : store.runsLeft state ≤ rounds.length)
    : store.runsLeft ((store.service definitions).run state rounds).2 = 0 := by
  induction rounds generalizing state with
  | nil => exact Nat.le_zero.mp enough
  | cons round rest ih =>
      obtain ⟨next, outcome⟩ := serve_spec reached serviceable.1
      refine ih (reached.trans next) serviceable.2 timely.2 ?_
      change store.runsLeft (store.serve definitions state round).2 ≤ rest.length
      rw [List.length_cons] at enough
      rcases outcome with ⟨-, used⟩ | ⟨refused, same⟩
      · omega
      · have none : store.runsLeft state = 0 := by
          by_contra left
          have granted := serve_of_runsLeft reached (dueFirst state reached) serviceable.1
            timely.1 (Nat.pos_of_ne_zero left)
          cases refused.symm.trans granted
        rw [runsLeft_of_ledger same, none]
        exact Nat.zero_le _

/-- What a series of rounds does to the jobs of a store. -/
structure DrainLaw (store : LawfulStore State Caller) (caller : Caller) : Prop where
  /-- The rounds of any callers are granted a job as often as runs are used up, at most. -/
  bounded
    : ∀ definitions state rounds,
        store.ValidlyReaches store.initial state
        → (store.service definitions).AlongSteps (store.Serviceable definitions) state rounds
        → ((store.service definitions).run state rounds).1.count true
            + store.runsLeft ((store.service definitions).run state rounds).2
          ≤ store.runsLeft state
  /-- Enough timely rounds of the caller end every job, and lose none. -/
  drains
    : ∀ definitions state rounds,
        store.ValidlyReaches store.initial state
        → (store.service definitions).AlongSteps (store.Serviceable definitions) state rounds
        → (store.service definitions).AlongSteps (store.Timely caller) state rounds
        → store.runsLeft state ≤ rounds.length
        → ∀ id job,
            (store.ledger state).find? id = some job
            → ∃ last,
                (store.ledger ((store.service definitions).run state rounds).2).find? id
                  = some last
                ∧ job.history <+: last.history
                ∧ last.isSettled = true

/-- The drain law of every store that follows the ledger and claims what is due first. -/
theorem drainLaw
    (dueFirst
      : ∀ state, store.ValidlyReaches store.initial state → store.DueFirst caller state)
    : DrainLaw store caller where
  bounded _ _ _ reached serviceable := (service_bounded reached serviceable).2
  drains definitions state rounds reached serviceable timely enough id job stored := by
    have since := (service_bounded reached serviceable).1
    obtain ⟨last, found, -, begins⟩ := since.orderly.continues reached.orderly id job stored
    refine ⟨last, found, begins, ?_⟩
    have none := service_drains dueFirst reached serviceable timely enough
    have member : last ∈ store.jobs ((store.service definitions).run state rounds).2 :=
      KeyedTable.find?_mem found
    have final : store.OrderlyReaches store.initial _ := reached.orderly.trans since.orderly
    refine (final.reachable.limitInvariant last member).isSettled ?_
    exact List.sum_eq_zero_iff_forall_eq_nat.mp none _ (List.mem_map_of_mem member)

end LawfulStore

/-- In both stores the runs that are left bound how often workers are granted a job, and a
worker that keeps claiming what is due and completing it with results that can be stored ends
every job within as many rounds.
-/
theorem rounds_drain_store
    : InMemoryJobStore.lawful.DrainLaw () ∧ SqliteJobStore.lawful.DrainLaw .everyRow :=
  ⟨LawfulStore.drainLaw (fun _ reached => (InMemoryJobStore.exact_of_reached reached).dueFirst),
    LawfulStore.drainLaw (fun _ reached =>
      SqliteJobStore.dueFirst_everyRow reached.orderly.reachable.sound)⟩

/-- The state after the scheduled job of two attempts was added. -/
def reportAdded : Database :=
  (SqliteJobStore.lawful.machine.step Database.empty
    ⟨.everyRow, smallAmbient 0, .add retriedJob⟩).2

/-- The rounds that claim the scheduled job when it is due: the first fails, the second
succeeds.
-/
def reportRounds : List (Round QueryFilter) :=
  [reportRound .everyRow 3 1, reportRound .everyRow 8 2]

/-- Two runs are left of the scheduled job, and two rounds end it. -/
theorem rounds_drain_store_report
    : SqliteJobStore.lawful.runsLeft reportAdded = 2
      ∧ ((SqliteJobStore.lawful.service (fun _ => some reportDefinition)).run reportAdded
            reportRounds).1.count true
          + SqliteJobStore.lawful.runsLeft
              ((SqliteJobStore.lawful.service (fun _ => some reportDefinition)).run reportAdded
                reportRounds).2
        ≤ 2
      ∧ ∃ last,
          (SqliteJobStore.lawful.ledger
              ((SqliteJobStore.lawful.service (fun _ => some reportDefinition)).run reportAdded
                reportRounds).2).find? ⟨2⟩
            = some last
          ∧ retriedJob.history <+: last.history
          ∧ last.isSettled = true := by
  have left : SqliteJobStore.lawful.runsLeft reportAdded = 2 := by decide +kernel
  have reached : SqliteJobStore.lawful.ValidlyReaches SqliteJobStore.lawful.initial
      reportAdded := by
    refine (Machine.Reaches.refl _).step ⟨.firstAdd retriedJob_newlyMade (by decide), ?_⟩
    intro _ _ _ claims
    cases claims
  have representable (due index : Nat) (some : ∃ runAt, (reportRound QueryFilter.everyRow due
      index).utcNow.add reportDefinition.retryPolicy.delay = .ok runAt)
      : ∀ (type : String) (definition : IJobDefinition),
          (fun _ => Option.some reportDefinition) type = Option.some definition
          → ∃ runAt, (reportRound QueryFilter.everyRow due index).utcNow.add
              definition.retryPolicy.delay = .ok runAt := by
    rintro _ _ ⟨⟩
    exact some
  have serviceable : (SqliteJobStore.lawful.service
      (fun _ => some reportDefinition)).AlongSteps
        (SqliteJobStore.lawful.Serviceable (fun _ => some reportDefinition)) reportAdded
        reportRounds :=
    ⟨⟨by decide +kernel, by decide +kernel, by decide +kernel, by decide,
        representable 3 1 ⟨.ofTicks 8, by decide⟩⟩,
      ⟨by decide +kernel, by decide +kernel, by decide +kernel, by decide,
        representable 8 2 ⟨.ofTicks 13, by decide⟩⟩,
      trivial⟩
  have timely : (SqliteJobStore.lawful.service
      (fun _ => some reportDefinition)).AlongSteps
        (SqliteJobStore.lawful.Timely .everyRow) reportAdded reportRounds := by
    have due (db : Database) (now : DateTimeOffset)
        (shown : ∀ job ∈ SqliteJobStore.lawful.jobs db, job.dueInstant.all (· ≤ now) = true)
        : ∀ job ∈ SqliteJobStore.lawful.jobs db,
            ∀ instant, job.dueInstant = some instant → instant ≤ now := by
      intro job member instant known
      simpa [known] using shown job member
    exact ⟨⟨rfl, due _ _ (by decide +kernel)⟩, ⟨rfl, due _ _ (by decide +kernel)⟩, trivial⟩
  have bounded := rounds_drain_store.2.bounded _ _ _ reached serviceable
  have drains := rounds_drain_store.2.drains _ _ _ reached serviceable timely left.le ⟨2⟩
    retriedJob (by decide +kernel)
  exact ⟨left, left ▸ bounded, drains⟩

end JobScheduler
