import JobScheduler.Lifecycle.RoundProgress

/-! Retries over whole runs of a store. A job is claimed and completed round after round, with
calls of others in between; the first success or the last attempt allowed decides how it ends,
and every failure before that is retried after the delay of the job's definition.
-/

namespace JobScheduler

open Library JobLifecycleService

/-- The claim a round begins with. -/
def Round.claim {Caller : Type} (round : Round Caller) : StoreInput Caller :=
  ⟨round.caller, round.claimAmbient,
    .tryClaimNextDueJob round.now round.workerId round.leaseExpiresAt⟩

/-- The call gives an outcome to a run of the job with the given id. -/
def StoreCall.Concludes (id : Guid) : StoreCall → Prop
  | .markCompleted jobId _ | .markFailed jobId _ _ | .scheduleRetry jobId _ _ _ => jobId = id
  | _ => False

namespace LawfulStore

variable {State Caller : Type}

/-- A call of anyone that gives no outcome to the job. -/
structure Aside (store : LawfulStore State Caller) (id : Guid) (state : State)
    (input : StoreInput Caller) : Prop
    extends store.Orderly state input where
  inconclusive
    : input.call.Concludes id → (store.machine.step state input).1 ≠ .flag true

/-- A call between two rounds: if it claims a job, then another one. -/
structure Between (store : LawfulStore State Caller) (id : Guid) (state : State)
    (input : StoreInput Caller) : Prop
    extends store.Aside id state input where
  elsewhere
    : ∀ now workerId leaseExpiresAt snapshot,
        input.call = .tryClaimNextDueJob now workerId leaseExpiresAt
        → (store.machine.step state input).1 = .job (some snapshot)
        → snapshot.id ≠ id

/-- A call during a round: if it is a claim, then before the job's lease expires. -/
structure Leased (store : LawfulStore State Caller) (id : Guid) (state : State)
    (input : StoreInput Caller) : Prop
    extends store.Aside id state input where
  beforeExpiry
    : ∀ now workerId leaseExpiresAt job expiry,
        input.call = .tryClaimNextDueJob now workerId leaseExpiresAt
        → (store.ledger state).find? id = some job
        → job.leaseExpiresAt = some expiry
        → now < expiry

/-- The state is reached by adding the job and completing the rounds, each before its lease
expires, with calls of others in between.
-/
inductive Processed (store : LawfulStore State Caller) (definitions : IJobDefinitionRegistry)
    (job : JobRecord)
    : List (Round Caller) → State → Prop
  | added {state : State} {caller : Caller} {ambient : Ambient}
    (reached : store.OrderlyReaches store.initial state)
    (orderly : store.Orderly state ⟨caller, ambient, .add job⟩)
    (accepted : (store.machine.step state ⟨caller, ambient, .add job⟩).1 = .done)
    : Processed store definitions job []
        (store.machine.step state ⟨caller, ambient, .add job⟩).2
  | between {rounds : List (Round Caller)} {state : State} {input : StoreInput Caller}
    (before : Processed store definitions job rounds state)
    (call : store.Between job.id state input)
    : Processed store definitions job rounds (store.machine.step state input).2
  | completed {rounds : List (Round Caller)} {state claimed due : State}
    {snapshot : JobRecord} (round : Round Caller)
    (before : Processed store definitions job rounds state)
    (orderly : store.Orderly state round.claim)
    (granted : store.machine.step state round.claim = (.job (some snapshot), claimed))
    (ours : snapshot.id = job.id)
    (leased : store.machine.Reaches (store.Leased job.id) claimed due)
    (fresh : round.completionAmbient.Fresh (store.ledger due))
    : Processed store definitions job (rounds ++ [round])
        (completeExecution (store.methods round.caller) definitions round.utcNow
          round.completionAmbient snapshot round.result due).2

end LawfulStore

-----------------------------------------------------------------------------------------
-- What calls aside leave alone
-----------------------------------------------------------------------------------------

namespace LawfulStore

variable {State Caller : Type} {store : LawfulStore State Caller} {id : Guid}

/-- A call aside leaves the run of the job as it is, or is a claim that takes the job. -/
theorem Aside.sameRun_or_claims {state : State} {input : StoreInput Caller}
    (aside : store.Aside id state input)
    (reached : store.OrderlyReaches store.initial state) {job : JobRecord}
    (stored : (store.ledger state).find? id = some job)
    : (∃ later,
        (store.ledger (store.machine.step state input).2).find? id = some later
        ∧ job.SameRun later)
      ∨ ∃ now workerId leaseExpiresAt,
          input.call = .tryClaimNextDueJob now workerId leaseExpiresAt
          ∧ (job.isPending = true ∨ job.LeaseExpired now)
          ∧ (store.machine.step state input).1
            = .job (some (job.claimedUnder input.ambient now workerId leaseExpiresAt)) := by
  obtain ⟨⟨admissible, fresh, newJob⟩, inconclusive⟩ := aside
  obtain ⟨caller, ambient, call⟩ := input
  have sound := reached.reachable.sound
  have inOrder := (reached.coherenceInvariant job (KeyedTable.find?_mem stored)).inOrder
  have here := KeyedTable.find?_key stored
  have step := store.follows caller ambient call state sound admissible
  rcases step.find?_next stored with untouched | ⟨new, added, sameId, -⟩
    | ⟨changed, one, -, there⟩
  · exact Or.inl ⟨job, untouched, .refl job⟩
  · have absent := (newJob new added).1
    rw [sameId, stored] at absent
    cases absent
  · -- a refused call leaves the state, so the changed record is the stored one
    have refused (concludes : call.Concludes id) {revision : Revision}
        (revises : call.revision ambient = some revision)
        : job.SameRun changed := by
      have same := store.refusalKeeps caller ambient call state revision sound revises
        (inconclusive concludes)
      rw [same, stored] at there
      cases there
      exact .refl job
    cases one with
    | @claimed now workerId leaseExpiresAt _ picked ready valid =>
        obtain ⟨next, outcome, -⟩ := store.claims caller ambient state now workerId
          leaseExpiresAt job sound picked ready valid fresh
        exact Or.inr ⟨now, workerId, leaseExpiresAt, rfl, ready, congrArg Prod.fst outcome⟩
    | renewed =>
        exact Or.inl ⟨_, there, ⟨rfl, rfl, rfl, rfl⟩, rfl, rfl, rfl, rfl, rfl, inOrder⟩
    | acknowledged =>
        exact Or.inl ⟨_, there, ⟨rfl, rfl, rfl, rfl⟩, rfl, rfl, rfl, rfl, rfl, inOrder⟩
    | completed => exact Or.inl ⟨_, there, refused here rfl⟩
    | failed => exact Or.inl ⟨_, there, refused here rfl⟩
    | retried => exact Or.inl ⟨_, there, refused here rfl⟩

/-- A call between two rounds leaves the run of the job as it is. -/
theorem Between.sameRun {state : State} {input : StoreInput Caller}
    (between : store.Between id state input)
    (reached : store.OrderlyReaches store.initial state) {job : JobRecord}
    (stored : (store.ledger state).find? id = some job)
    : ∃ later,
        (store.ledger (store.machine.step state input).2).find? id = some later
        ∧ job.SameRun later := by
  rcases between.toAside.sameRun_or_claims reached stored with same
    | ⟨now, workerId, leaseExpiresAt, claim, -, answered⟩
  · exact same
  · have other := between.elsewhere now workerId leaseExpiresAt _ claim answered
    rw [JobRecord.claimedUnder_id] at other
    exact absurd (KeyedTable.find?_key stored) other

/-- A call during a round leaves the run of a running job as it is: its lease protects it. -/
theorem Leased.sameRun {state : State} {input : StoreInput Caller}
    (leased : store.Leased id state input)
    (reached : store.OrderlyReaches store.initial state) {job : JobRecord}
    (stored : (store.ledger state).find? id = some job) (running : job.status = .running)
    : ∃ later,
        (store.ledger (store.machine.step state input).2).find? id = some later
        ∧ job.SameRun later := by
  rcases leased.toAside.sameRun_or_claims reached stored with same
    | ⟨now, workerId, leaseExpiresAt, claim, ready, -⟩
  · exact same
  · rcases ready with pending | ⟨-, expiry, lease, elapsed⟩
    · simp [JobRecord.isPending, running] at pending
    · exact absurd elapsed
        (not_le.mpr (leased.beforeExpiry now workerId leaseExpiresAt job expiry claim stored lease))

/-- The calls during a round leave the run of a running job as it is, by induction on the
last of them.
-/
theorem sameRun_of_leased {first last : State}
    (leased : store.machine.Reaches (store.Leased id) first last)
    (reached : store.OrderlyReaches store.initial first) {job : JobRecord}
    (stored : (store.ledger first).find? id = some job) (running : job.status = .running)
    : store.OrderlyReaches store.initial last
      ∧ ∃ later, (store.ledger last).find? id = some later ∧ job.SameRun later := by
  induction leased with
  | refl => exact ⟨reached, job, stored, .refl job⟩
  | step _ call ih =>
      obtain ⟨before, middle, there, same⟩ := ih
      obtain ⟨later, found, sameAgain⟩ :=
        call.sameRun before there (same.status.trans running)
      exact ⟨before.step call.toOrderly, later, found, same.trans sameAgain⟩

end LawfulStore

-----------------------------------------------------------------------------------------
-- Completions of running jobs
-----------------------------------------------------------------------------------------

namespace LawfulStore

variable {State Caller : Type} {store : LawfulStore State Caller} {caller : Caller}

/-- A completion whose call is enabled is one record step of the stored job. -/
theorem completeExecution_step {definitions : IJobDefinitionRegistry}
    {utcNow : DateTimeOffset} {ambient : Ambient} {snapshot job : JobRecord}
    {result : JobExecutionResult} {state : State} {call : StoreCall}
    {completion : JobExecutionCompletion} {revision : Revision} (sound : store.Sound state)
    (fresh : ambient.Fresh (store.ledger state))
    (issued : completionCall definitions utcNow snapshot result = .ok (call, completion))
    (revises : call.revision ambient = some revision) (target : revision.jobId = snapshot.id)
    (stored : (store.ledger state).find? snapshot.id = some job)
    (seen : store.visible caller job = true) (enabled : revision.enabled job = true)
    : RecordStep (store.nextDue caller state) ambient call job (revision.change job)
      ∧ (store.ledger
          (completeExecution (store.methods caller) definitions utcNow ambient snapshot result
            state).2).find? snapshot.id
        = some (revision.change job) := by
  have sameId : job.id = snapshot.id := KeyedTable.find?_key stored
  have step : RecordStep (store.nextDue caller state) ambient call job (revision.change job) :=
    .ofRevision revises (sameId.trans target.symm) enabled
  refine ⟨step, ?_⟩
  simp only [completeExecution_eq, issued]
  rcases @revision_cases _ _ store caller ambient _ _ _ sound revises with
    ⟨other, next, answered, found, -, -, written⟩ | ⟨-, disabled⟩ | ⟨-, stale, -⟩
  · cases (target ▸ found).symm.trans stored
    rw [answered, written, ← sameId, ← step.id_eq]
    exact KeyedTable.find?_set_self _ _
  · cases (disabled job (target ▸ stored) seen).symm.trans enabled
  · exact absurd fresh stale

/-- The completion of a run ends the rounds or leaves the job waiting for the next one, by
the result and the attempts left.
-/
theorem round_completed {definitions : IJobDefinitionRegistry}
    {definition : IJobDefinition} {job snapshot current : JobRecord}
    {rounds : List (Round Caller)} {round : Round Caller} {state : State}
    (runs : RunsRound job rounds snapshot) (new : job.NewlyMade)
    (registered : definitions job.type = some definition)
    (present : isNullOrWhiteSpace (failureReasonOf round.result) = false)
    (representable : ∃ runAt, round.utcNow.add definition.retryPolicy.delay = .ok runAt)
    (sound : store.Sound state) (fresh : round.completionAmbient.Fresh (store.ledger state))
    (stored : (store.ledger state).find? snapshot.id = some current)
    (same : snapshot.SameRun current) (seen : store.visible round.caller current = true)
    : ∃ later,
        (store.ledger
            (completeExecution (store.methods round.caller) definitions round.utcNow
              round.completionAmbient snapshot round.result state).2).find? snapshot.id
          = some later
        ∧ RoundProgress definition job (rounds ++ [round]) later := by
  have continues := runs.sameRun same
  have attempts := runs.attemptCount new
  have owned : current.isRunningUnder snapshot.currentStateChangeId = true :=
    JobRecord.isRunningUnder_iff.mpr ⟨continues.running, same.currentStateChangeId⟩
  have bound : snapshot.maxAttempts = job.maxAttempts := runs.terms.maxAttempts
  rcases completionCall_cases definitions round.utcNow snapshot round.result with
    ⟨succeeded, issued⟩ | ⟨failed, noRetry, issued⟩ | ⟨found, failed, retry, reported⟩
  · obtain ⟨step, there⟩ := completeExecution_step sound fresh issued rfl rfl stored seen owned
    exact ⟨_, there, continues.succeeded step succeeded⟩
  · obtain ⟨step, there⟩ := completeExecution_step sound fresh issued rfl rfl stored seen (by
      simp only [present, owned]
      rfl)
    have used : ¬ (snapshot.attemptCount : Int) < snapshot.maxAttempts := by
      intro left
      rw [retryDefinition, if_pos left, runs.type, registered] at noRetry
      cases noRetry
    refine ⟨_, there, continues.exhausted step failed rfl ?_⟩
    have within := runs.left
    rw [List.length_append, List.length_singleton]
    omega
  · have left : (snapshot.attemptCount : Int) < snapshot.maxAttempts := by
      by_contra used
      rw [retryDefinition, if_neg used] at retry
      cases retry
    rw [retryDefinition, if_pos left, runs.type, registered] at retry
    cases retry
    obtain ⟨runAt, fits⟩ := representable
    rcases reported with ⟨scheduledAt, added, issued⟩ | ⟨exception, thrown, -⟩
    · have stillLeft : (current.attemptCount : Int) < current.maxAttempts := by
        rw [JobRecord.attemptCount, same.history, same.maxAttempts]
        exact left
      obtain ⟨step, there⟩ := completeExecution_step sound fresh issued rfl rfl stored seen (by
        simp only [present, owned, stillLeft]
        rfl)
      refine ⟨_, there, continues.retried step failed added ?_⟩
      rw [List.length_append, List.length_singleton, ← attempts, ← bound]
      exact left
    · cases thrown.symm.trans fits

/-- A completion leads on from a reached state, whether or not it issues a call. -/
theorem reached_completeExecution {definitions : IJobDefinitionRegistry}
    {utcNow : DateTimeOffset} {ambient : Ambient} {snapshot : JobRecord}
    {result : JobExecutionResult} {state : State}
    (reached : store.OrderlyReaches store.initial state)
    (fresh : ambient.Fresh (store.ledger state))
    : store.OrderlyReaches store.initial
        (completeExecution (store.methods caller) definitions utcNow ambient snapshot result
          state).2 := by
  rw [completeExecution_eq]
  cases issued : completionCall definitions utcNow snapshot result with
  | error exception => exact reached
  | ok issue =>
      obtain ⟨call, completion⟩ := issue
      exact reached.step (.carries (completionCall_carries issued) fresh)

section Processed

variable {definitions : IJobDefinitionRegistry} {definition : IJobDefinition}
  {job : JobRecord} {rounds : List (Round Caller)} {state : State}

/-- The state before a round's completion was reached by an orderly run. -/
theorem reached_due {round : Round Caller} {snapshot : JobRecord} {claimed due : State}
    (reached : store.OrderlyReaches store.initial state)
    (orderly : store.Orderly state round.claim)
    (granted : store.machine.step state round.claim = (.job (some snapshot), claimed))
    (leased : store.machine.Reaches (store.Leased job.id) claimed due)
    : store.OrderlyReaches store.initial claimed ∧ store.OrderlyReaches store.initial due := by
  have next := reached.step orderly
  rw [granted] at next
  exact ⟨next, next.trans (leased.mono (fun _ _ call => call.toOrderly))⟩

/-- Rounds are processed in orderly runs, by induction on the run. -/
theorem Processed.reached (run : store.Processed definitions job rounds state)
    : store.OrderlyReaches store.initial state := by
  induction run with
  | added reached orderly => exact reached.step orderly
  | between _ call ih => exact ih.step call.toOrderly
  | completed round _ orderly granted _ leased fresh ih =>
      exact reached_completeExecution (reached_due ih orderly granted leased).2 fresh

/-- The processed job was new when it was added. -/
theorem Processed.newlyMade (run : store.Processed definitions job rounds state)
    : job.NewlyMade := by
  induction run with
  | added _ orderly => exact orderly.admissible job rfl
  | between _ _ ih => exact ih
  | completed _ _ _ _ _ _ _ ih => exact ih

/-- The stored job shows the progress through its rounds, by induction on the run: new it
awaits the first one, calls in between keep its progress, and a round takes it one further.
-/
theorem Processed.progress (run : store.Processed definitions job rounds state)
    (registered : definitions job.type = some definition)
    (present
      : ∀ round ∈ rounds, isNullOrWhiteSpace (failureReasonOf round.result) = false)
    (representable
      : ∀ round ∈ rounds,
          ∃ runAt, round.utcNow.add definition.retryPolicy.delay = .ok runAt)
    : ∃ stored,
        (store.ledger state).find? job.id = some stored
        ∧ RoundProgress definition job rounds stored := by
  induction run with
  | @added state caller ambient reached orderly accepted =>
      have new : job.NewlyMade := orderly.admissible job rfl
      exact ⟨job, stored_of_add reached.reachable.sound new accepted, .newlyMade new⟩
  | between before call ih =>
      obtain ⟨stored, there, progress⟩ := ih present representable
      obtain ⟨later, found, same⟩ := call.sameRun before.reached there
      exact ⟨later, found, progress.sameRun same⟩
  | @completed rounds state claimed due snapshot round before orderly granted ours leased fresh
      ih =>
      obtain ⟨stored, there, progress⟩ :=
        ih (fun other member => present other (List.mem_append_left _ member))
          (fun other member => representable other (List.mem_append_left _ member))
      obtain ⟨other, -, found, seen, ready, -, rfl, ledger⟩ :=
        stored_of_claim before.reached.reachable.sound granted
      have sameId : other.id = job.id := by rw [← ours, JobRecord.claimedUnder_id]
      cases (sameId ▸ found).symm.trans there
      obtain ⟨reachedClaim, reachedDue⟩ := reached_due before.reached orderly granted leased
      have runs := @RoundProgress.claimed _ _ _ _ _ progress round.claimAmbient round.now
        round.workerId round.leaseExpiresAt ready
      have stores : (store.ledger claimed).find? job.id
          = some (stored.claimedUnder round.claimAmbient round.now round.workerId
              round.leaseExpiresAt) := by
        rw [ledger, ← ours]
        exact KeyedTable.find?_set_self _ _
      obtain ⟨-, current, kept, same⟩ :=
        sameRun_of_leased leased reachedClaim stores runs.running
      have visible : store.visible round.caller current = true := by
        rw [store.ownership round.caller current stored
          (same.tenantId.trans (runs.terms.tenantId.trans progress.terms.tenantId.symm))
          (same.createdByActorId.trans
            (runs.terms.createdByActorId.trans progress.terms.createdByActorId.symm))]
        exact seen
      rw [← ours] at kept ⊢
      exact round_completed runs before.newlyMade registered
        (present round (by simp)) (representable round (by simp)) reachedDue.reachable.sound
        fresh kept same visible

end Processed

end LawfulStore

namespace LawfulStore

variable {State Caller : Type} {store : LawfulStore State Caller}
  {definitions : IJobDefinitionRegistry} {definition : IJobDefinition} {job : JobRecord}
  {rounds : List (Round Caller)} {state : State} {results : Nat → JobExecutionResult}
  {n last : Nat}

end LawfulStore

/-- A job scheduled at tick 0 for tick 3, with two attempts. -/
def retriedJob : JobRecord :=
  .construct ⟨2⟩ "tenant-a" "alice" "report" ⟨"[]"⟩ .scheduled ⟨200⟩ (some (.ofTicks 3)) none
    none none none none 2 none [.scheduled ⟨200⟩ (.ofTicks 0) "Job scheduled." (.ofTicks 3)]

/-- Reports are retried once, after four ticks. -/
def reportDefinition : IJobDefinition where
  type := "report"
  retryPolicy := ⟨2, ⟨4⟩, by omega, by decide⟩
  maxScheduleDelaySeconds := 60
  validatePayload payload := ⟨true, payload, none⟩

/-- The first handler result is a failure without a reason, all others are successes. -/
def reportResults : Nat → JobExecutionResult
  | 1 => ⟨false, none⟩
  | _ => .success

/-- The job is claimed when it is due, and completed one tick later. -/
def reportRound {Caller : Type} (caller : Caller) (due index : Nat) : Round Caller :=
  ⟨caller, smallAmbient due, .ofTicks due, "worker-1", .ofTicks (due + 3),
    smallAmbient (due + 1), .ofTicks (due + 1), reportResults index⟩

theorem retriedJob_newlyMade : retriedJob.NewlyMade :=
  @JobRecord.NewlyMade.scheduled retriedJob ⟨200⟩ ⟨2⟩ "tenant-a" "alice" "report" ⟨"[]"⟩ 2
    (.ofTicks 3) (.ofTicks 0) (by decide)

end JobScheduler
