import JobScheduler.Actions.EnqueuedJobs
import JobScheduler.Ledger.Transitions
import JobScheduler.Workers.PoolLog

/-! Where the outcomes in the histories come from. A loop completes a job with the result of a
handler, and the store accepts the completion only as long as the job is as the loop has
claimed it.
-/

namespace JobScheduler

open Library JobLifecycleService

-----------------------------------------------------------------------------------------
-- Outcomes in a history
-----------------------------------------------------------------------------------------

/-- The entry tells that a run ended with the result. -/
def JobStateChange.Records (change : JobStateChange) (result : JobExecutionResult) : Prop :=
  (change.status = .completed ∧ result.succeeded = true)
  ∨ (change.status = .failed
    ∧ result.succeeded = false
    ∧ change.reason = failureReasonOf result)

/-- The calls that append an outcome to a history, if they append anything. -/
def StoreCall.isReport : StoreCall → Bool
  | .markCompleted _ _ | .markFailed _ _ _ | .scheduleRetry _ _ _ _ => true
  | _ => false

/-- The other calls append no outcome. -/
theorem StoreCall.no_outcome_of_isReport {ambient : Ambient} {job : JobRecord}
    {call : StoreCall} (other : call.isReport = false) {change : JobStateChange}
    (member : change ∈ call.appended ambient job)
    : change.isOutcome = false := by
  cases call with
  | tryClaimNextDueJob now workerId leaseExpiresAt =>
      rcases appended_of_claim member with queued | running
      · simp [JobStateChange.isOutcome, queued]
      · simp [JobStateChange.isOutcome, running]
  | add | get | list | renewLease | acknowledge => cases member
  | markCompleted | markFailed | scheduleRetry => cases other

/-- What a call appends to a history follows the entries that were there. -/
theorem RecordStep.getElem?_appended {nextDue : DateTimeOffset → Option JobRecord}
    {ambient : Ambient} {call : StoreCall} {job changed : JobRecord}
    (step : RecordStep nextDue ambient call job changed) (position : Nat)
    : changed.history[job.history.length + position]?
      = ((call.appended ambient job)[position]?).map
          (fun entry => entry.withSequence (job.history.length + position + 1)) := by
  rw [step.history_eq, numbered, List.getElem?_mapIdx,
    List.getElem?_append_right (Nat.le_add_right _ _), Nat.add_sub_cancel_left]

-----------------------------------------------------------------------------------------
-- Stored jobs
-----------------------------------------------------------------------------------------

/-- The handlers ended with the result when they were given the job. -/
def QueuedJobWorker.Gave (worker : QueuedJobWorker) (handlers : IJobHandlerRegistry)
    (job : JobRecord) (result : JobExecutionResult)
    : Prop :=
  ∃ stopping, (worker.executeInScope handlers stopping job).2 = .finished result

namespace JobRecord

/-- The job is of a registered type, under the terms of its definition, and its payload is what
the definition made of a payload it found valid.
-/
def Accepted (definitions : IJobDefinitionRegistry) (job : JobRecord) : Prop :=
  ∃ definition offered,
    definitions job.type = some definition
    ∧ (definition.validatePayload offered).isValid = true
    ∧ job.payload = (definition.validatePayload offered).payload
    ∧ job.maxAttempts = definition.retryPolicy.maxAttempts

/-- The snapshot of a claim ran with the result: the entry that follows the claim tells the result
of the handlers, and a failure that leaves attempts has its retry behind it.
-/
structure RanWith (worker : QueuedJobWorker) (handlers : IJobHandlerRegistry)
    (snapshot : JobRecord) (result : JobExecutionResult) (history : List JobStateChange)
    : Prop where
  running : snapshot.EndsRunning
  gave : worker.Gave handlers snapshot result
  recorded
    : ∃ outcome,
        history[snapshot.history.length]? = some outcome
        ∧ outcome.Records result
  retried
    : result.succeeded = false
      → snapshot.attemptCount < snapshot.maxAttempts
      → ∃ retry,
          history[snapshot.history.length + 1]? = some retry
          ∧ retry.status = .scheduled

/-- Each outcome in the history is that of a run of the job, as the claim directly before it
showed the job.
-/
def Executed (worker : QueuedJobWorker) (handlers : IJobHandlerRegistry) (job : JobRecord)
    : Prop :=
  ∀ (index : Nat) (change : JobStateChange),
    job.history[index]? = some change
    → change.isOutcome = true
    → ∃ (snapshot : JobRecord) (result : JobExecutionResult),
        snapshot.Continues job
        ∧ snapshot.history.length = index
        ∧ snapshot.RanWith worker handlers result job.history

variable {worker : QueuedJobWorker} {handlers : IJobHandlerRegistry} {job changed : JobRecord}

theorem Accepted.continues {definitions : IJobDefinitionRegistry}
    (accepted : job.Accepted definitions) (later : job.Continues changed)
    : changed.Accepted definitions := by
  obtain ⟨definition, offered, found, valid, payload, attempts⟩ := accepted
  exact ⟨definition, offered, later.type ▸ found, valid, later.payload.trans payload,
    later.maxAttempts.trans attempts⟩

/-- A job that was just made has no outcome. -/
theorem NewlyMade.executed (new : job.NewlyMade) : job.Executed worker handlers := by
  obtain ⟨newGuid, changedAt, reason, made, -⟩ := new.cases
  intro index change there outcome
  have member := List.mem_of_getElem? there
  rcases made with ⟨history, -⟩ | ⟨scheduledAt, history, -⟩
  · rw [history, List.mem_singleton] at member
    subst member
    cases outcome
  · rw [history, List.mem_singleton] at member
    subst member
    cases outcome

end JobRecord

theorem getElem?_of_prefix {history longer : List JobStateChange} (grows : history <+: longer)
    {index : Nat} {change : JobStateChange} (there : history[index]? = some change)
    : longer[index]? = some change := by
  obtain ⟨inside, same⟩ := List.getElem?_eq_some_iff.mp there
  rw [List.prefix_iff_getElem?.mp grows index inside, same]

/-- What a run shows in the history of a job it shows later. -/
theorem JobRecord.RanWith.later {worker : QueuedJobWorker} {handlers : IJobHandlerRegistry}
    {snapshot : JobRecord} {result : JobExecutionResult} {history longer : List JobStateChange}
    (ran : snapshot.RanWith worker handlers result history) (grows : history <+: longer)
    : snapshot.RanWith worker handlers result longer where
  running := ran.running
  gave := ran.gave
  recorded := by
    obtain ⟨outcome, there, records⟩ := ran.recorded
    exact ⟨outcome, getElem?_of_prefix grows there, records⟩
  retried failed left := by
    obtain ⟨retry, there, scheduled⟩ := ran.retried failed left
    exact ⟨retry, getElem?_of_prefix grows there, scheduled⟩

/-- A record step keeps the outcomes executed, if those it appends are. -/
theorem RecordStep.executed {nextDue : DateTimeOffset → Option JobRecord} {ambient : Ambient}
    {call : StoreCall} {job changed : JobRecord} {worker : QueuedJobWorker}
    {handlers : IJobHandlerRegistry} (step : RecordStep nextDue ambient call job changed)
    (inOrder : job.Numbered) (executed : job.Executed worker handlers)
    (reports
      : ∀ position entry,
          (call.appended ambient job)[position]? = some entry
          → entry.isOutcome = true
          → position = 0
            ∧ ∃ (snapshot : JobRecord) (result : JobExecutionResult),
                snapshot.Continues job
                ∧ snapshot.history = job.history
                ∧ snapshot.RanWith worker handlers result changed.history)
    : changed.Executed worker handlers := by
  have later := step.continues inOrder
  intro index change there outcome
  by_cases inside : index < job.history.length
  · obtain ⟨added, longer⟩ := later.history
    rw [← longer, List.getElem?_append_left inside] at there
    obtain ⟨snapshot, result, begins, place, ran⟩ := executed index change there outcome
    exact ⟨snapshot, result, begins.trans later, place, ran.later later.history⟩
  · obtain ⟨position, rfl⟩ := Nat.exists_eq_add_of_le (not_lt.mp inside)
    rw [step.getElem?_appended] at there
    obtain ⟨entry, appended, rfl⟩ := Option.map_eq_some_iff.mp there
    obtain ⟨rfl, snapshot, result, begins, history, ran⟩ :=
      reports position entry appended outcome
    exact ⟨snapshot, result, begins.trans later, by rw [history, Nat.add_zero], ran⟩

namespace LawfulStore

variable {State Caller : Type} {store : LawfulStore State Caller}

/-- An orderly run continues the jobs it finds, by induction on its last step. -/
theorem OrderlyReaches.job_continues {first last : State} {id : Guid} {job : JobRecord}
    (tail : store.OrderlyReaches first last)
    (reached : store.OrderlyReaches store.initial first)
    (stored : (store.ledger first).find? id = some job)
    : ∃ later, (store.ledger last).find? id = some later ∧ job.Continues later := by
  induction tail with
  | refl => exact ⟨job, stored, .refl job⟩
  | @step middle input before orderly ih =>
      obtain ⟨found, here, begins⟩ := ih
      have upTo : store.OrderlyReaches store.initial middle := reached.trans before
      have invariant := upTo.coherenceInvariant found (KeyedTable.find?_mem here)
      have step := store.follows input.caller input.ambient input.call middle
        upTo.reachable.sound orderly.admissible
      rcases step.find?_next here with same | ⟨new, added, sameId, -⟩ | ⟨changed, one, -, there⟩
      · exact ⟨found, same, begins⟩
      · have absent := (orderly.newJob new added).1
        rw [sameId, here] at absent
        cases absent
      · exact ⟨changed, there, begins.trans (one.continues invariant.inOrder)⟩

/-- The stored job continues the snapshot of a claim. -/
theorem HoldsClaim.continues {caller : Caller} {snapshot : JobRecord} {state : State}
    (held : store.HoldsClaim caller snapshot state)
    : ∃ job,
        (store.ledger state).find? snapshot.id = some job
        ∧ snapshot.Continues job := by
  obtain ⟨before, ambient, now, workerId, leaseExpiresAt, after, reached, orderly, claimed,
    since⟩ := held
  obtain ⟨job, -, -, -, -, -, rfl, ledger⟩ :=
    stored_of_claim reached.reachable.sound claimed
  have next := reached.step orderly
  have moved : (store.machine.step before
      ⟨caller, ambient, .tryClaimNextDueJob now workerId leaseExpiresAt⟩).2 = after :=
    congrArg Prod.snd claimed
  rw [moved] at next
  refine since.job_continues next ?_
  rw [ledger]
  exact KeyedTable.find?_set_self _ _

end LawfulStore

/-- A call with a claim token changes the job of the claim, while it runs under this token. -/
theorem RecordStep.runs_under {nextDue : DateTimeOffset → Option JobRecord} {ambient : Ambient}
    {call : StoreCall} {job changed snapshot : JobRecord}
    (step : RecordStep nextDue ambient call job changed) (carries : Carries snapshot call)
    : job.id = snapshot.id ∧ job.isRunningUnder snapshot.currentStateChangeId = true := by
  generalize called : call = other at carries
  cases step with
  | claimed | acknowledged =>
      rw [← called] at carries
      cases carries
  | renewed running | completed running | failed running | retried running =>
      cases carries <;> grind [JobRecord.isRunningUnder_iff]

/-- Every stored job was accepted, and the outcomes it shows were executed. -/
structure Ledger.Authentic (worker : QueuedJobWorker) (handlers : IJobHandlerRegistry)
    (ledger : Ledger)
    : Prop where
  accepted : ∀ job ∈ ledger.rows, job.Accepted worker.definitions
  executed : ∀ job ∈ ledger.rows, job.Executed worker handlers

section Steps

variable {worker : QueuedJobWorker} {handlers : IJobHandlerRegistry}
  {visible : JobRecord → Bool} {nextDue : DateTimeOffset → Option JobRecord}
  {ambient : Ambient} {ledger next : Ledger} {call : StoreCall} {answer : StoreAnswer}

/-- A job that a request adds was accepted. -/
theorem StoreCall.AddsRequested.accepted {definitions : IJobDefinitionRegistry}
    (adds : call.AddsRequested definitions ambient) {job : JobRecord} (added : call = .add job)
    : job.Accepted definitions := by
  obtain ⟨request, payload, retryPolicy, delaySeconds, actor, valid, built⟩ := adds job added
  obtain ⟨definition, found, passes, rfl, rfl, -⟩ := EnqueueJobAction.validate_valid valid
  obtain ⟨type, kept, attempts, -⟩ := EnqueueJobAction.jobFor_asks built
  exact ⟨definition, request.payload, type ▸ found, passes, kept, attempts⟩

/-- A step keeps the ledger authentic, if the outcomes it appends were executed. -/
theorem LedgerStep.authentic
    (step : LedgerStep visible nextDue ambient ledger call answer next)
    (authentic : ledger.Authentic worker handlers)
    (inOrder : ∀ job ∈ ledger.rows, job.Numbered)
    (adds : call.AddsRequested worker.definitions ambient)
    (reports
      : ∀ job changed position entry,
          RecordStep nextDue ambient call job changed
          → job ∈ ledger.rows
          → (call.appended ambient job)[position]? = some entry
          → entry.isOutcome = true
          → position = 0
            ∧ ∃ (snapshot : JobRecord) (result : JobExecutionResult),
                snapshot.Continues job
                ∧ snapshot.history = job.history
                ∧ snapshot.RanWith worker handlers result changed.history)
    : next.Authentic worker handlers where
  accepted := step.forall_rows authentic.accepted (fun _ added _ => adds.accepted added)
    (fun job _ one member accepted =>
      accepted.continues (one.continues (inOrder job member)))
  executed := step.forall_rows authentic.executed (fun _ _ new => new.executed)
    (fun job changed one member executed =>
      one.executed (inOrder job member) executed
        (fun position entry => reports job changed position entry one member))

/-- A completion call appends one outcome at most, before anything else: that of the run whose
result it reports.
-/
theorem RecordStep.runs_with {snapshot job changed : JobRecord} {utcNow : DateTimeOffset}
    {result : JobExecutionResult} {completion : JobExecutionCompletion}
    (step : RecordStep nextDue ambient call job changed)
    (issued : completionCall worker.definitions utcNow snapshot result = .ok (call, completion))
    (registered : worker.definitions snapshot.type ≠ none)
    (history : job.history = snapshot.history) (running : snapshot.EndsRunning)
    (gave : worker.Gave handlers snapshot result) {position : Nat} {entry : JobStateChange}
    (there : (call.appended ambient job)[position]? = some entry)
    (outcome : entry.isOutcome = true)
    : position = 0 ∧ snapshot.RanWith worker handlers result changed.history := by
  have first := step.getElem?_appended 0
  have second := step.getElem?_appended 1
  rw [history] at first second
  rcases completionCall_cases worker.definitions utcNow snapshot result with ⟨done, same⟩
    | ⟨failed, final, same⟩ | ⟨_, failed, -, ⟨scheduledAt, -, same⟩ | ⟨_, -, same⟩⟩
  · cases issued.symm.trans same
    cases position with
    | succ position => cases there
    | zero =>
        refine ⟨rfl, running, gave, ⟨_, first, Or.inl ⟨rfl, done⟩⟩, ?_⟩
        intro failed
        cases failed.symm.trans done
  · cases issued.symm.trans same
    cases position with
    | succ position => cases there
    | zero =>
        refine ⟨rfl, running, gave, ⟨_, first, Or.inr ⟨rfl, failed, rfl⟩⟩, ?_⟩
        intro _ left
        rw [retryDefinition, if_pos left] at final
        exact absurd final registered
  · cases issued.symm.trans same
    cases position with
    | succ position =>
        cases position with
        | succ position => cases there
        | zero =>
            cases there
            cases outcome
    | zero =>
        exact ⟨rfl, running, gave, ⟨_, first, Or.inr ⟨rfl, failed, rfl⟩⟩,
          fun _ _ => ⟨_, second, rfl⟩⟩
  · cases issued.symm.trans same

end Steps

-----------------------------------------------------------------------------------------
-- Runs of the pool
-----------------------------------------------------------------------------------------

/-- A step that executes a job uses these handlers. -/
def PoolInput.ServedBy (handlers : IJobHandlerRegistry) : PoolInput → Prop
  | .execute _ other => other = handlers
  | _ => True

namespace WorkerPool

/-- The process lives, and it and the processes before it execute jobs with these handlers. -/
inductive Serves (worker : QueuedJobWorker) (handlers : IJobHandlerRegistry)
    : WorkerPool → Prop
  | first (options : JobWorkerOptions) (clock : DateTimeOffset)
    : Serves worker handlers (start options ⟨none, .empty⟩ clock)
  | step {pool : WorkerPool} {input : PoolInput} (serves : Serves worker handlers pool)
    (allowed : pool.Allowed input) (served : input.ServedBy handlers)
    : Serves worker handlers (pool.step worker input).2
  | restart {pool : WorkerPool} (options : JobWorkerOptions)
    (serves : Serves worker handlers pool)
    : Serves worker handlers (start options ⟨none, pool.factory.database⟩ pool.clock)

variable {worker : QueuedJobWorker} {handlers : IJobHandlerRegistry} {pool : WorkerPool}
  {system : WorkerSystem Database}

theorem Serves.lives (serves : Serves worker handlers pool) : Lives worker pool := by
  induction serves with
  | first options clock => exact .first options clock
  | step serves allowed served ih => exact ih.step allowed
  | restart options serves ih => exact ih.restart options

/-- A run of steps that use the handlers, by induction on its inputs. -/
theorem Serves.run {inputs : List PoolInput} (serves : Serves worker handlers pool)
    (allowed : (machine worker).AlongSteps WorkerPool.Allowed pool inputs)
    (served : ∀ input ∈ inputs, input.ServedBy handlers)
    : Serves worker handlers ((machine worker).run pool inputs).2 := by
  induction inputs generalizing pool with
  | nil => exact serves
  | cons input rest ih =>
      have now := served input List.mem_cons_self
      exact ih (serves.step allowed.1 now) allowed.2
        (fun other member => served other (List.mem_cons_of_mem _ member))

/-- The results that the loops of a pool bring to their completions are those of the handlers. -/
def BringsResults (worker : QueuedJobWorker) (handlers : IJobHandlerRegistry)
    (pool : WorkerPool)
    : Prop :=
  ∀ (index : Nat) (phase : WorkerPhase) (job : JobRecord) (result : JobExecutionResult),
    pool.phases[index]? = some phase
    → phase.result = some (job, result)
    → worker.Gave handlers job result

/-- A loop that moves on brings the result it has, or one the handlers have just given. -/
theorem BringsResults.enter {factory : DbContextFactory} {index : Nat}
    {before after : WorkerPhase} (brings : pool.BringsResults worker handlers)
    (there : pool.phases[index]? = some before)
    (results
      : ∀ job result,
          after.result = some (job, result)
          → before.result = some (job, result) ∨ worker.Gave handlers job result)
    : ({ pool with factory := factory }.enter index after).BringsResults worker handlers := by
  intro other phase job result found shows
  rcases @phases_enter { pool with factory := factory } _ _ _ _ _ there found with
    ⟨-, rfl⟩ | ⟨-, kept⟩
  · rcases results job result shows with same | gave
    · exact brings index before job result there same
    · exact gave
  · exact brings other phase job result kept shows

/-- A call of a tracked pool that reports no outcome keeps the ledger authentic. -/
theorem TrackedBy.authentic_of_call (tracked : pool.TrackedBy system)
    (invariant : WorkerSystem.Invariant SqliteJobStore.lawful system)
    (authentic : Ledger.Authentic worker handlers pool.factory.database.ledger)
    {context : DataAccessPolicyContext} {ambient : Ambient} {call : StoreCall}
    {answer : StoreAnswer} {next : DbContextFactory}
    (adds : call.AddsRequested worker.definitions ambient) (silent : call.isReport = false)
    (answered
      : (DbContextFactory.store context).call ambient call pool.factory = (answer, next))
    : Ledger.Authentic worker handlers next.database.ledger := by
  obtain ⟨visible, nextDue, step⟩ := tracked.ledgerStep invariant adds.admissible answered
  refine step.authentic authentic ?_ adds ?_
  · intro job member
    rw [← tracked.store] at member
    exact (invariant.reached.coherenceInvariant job member).inOrder
  · intro job changed position entry one member there outcome
    have none := StoreCall.no_outcome_of_isReport silent (List.mem_of_getElem? there)
    rw [none] at outcome
    cases outcome

/-- The completion of a loop keeps the ledger authentic: what it appends tells of the result the
loop brings, and finds the job as the loop has claimed it.
-/
theorem TrackedBy.authentic_of_completion (tracked : pool.TrackedBy system)
    (invariant : WorkerSystem.Invariant SqliteJobStore.lawful system)
    (authentic : Ledger.Authentic worker handlers pool.factory.database.ledger)
    (brings : pool.BringsResults worker handlers) {index : Nat} {ambient : Ambient}
    {utcNow : DateTimeOffset} {job : JobRecord} {leaseExpiresAt : DateTimeOffset}
    {result : JobExecutionResult} {call : StoreCall} {completion : JobExecutionCompletion}
    {answer : StoreAnswer} {next : DbContextFactory}
    (there : pool.phases[index]? = some (.completing job leaseExpiresAt result))
    (issued : completionCall worker.definitions utcNow job result = .ok (call, completion))
    (answered
      : (DbContextFactory.store worker.context).call ambient call pool.factory
        = (answer, next))
    : Ledger.Authentic worker handlers next.database.ledger := by
  have carries := completionCall_carries issued
  have adds : call.AddsRequested worker.definitions ambient := by
    intro other added
    rw [added] at carries
    cases carries
  obtain ⟨visible, nextDue, step⟩ := tracked.ledgerStep invariant carries.admissible answered
  obtain ⟨entry, backs⟩ := tracked.backed
  obtain ⟨caller, claimed⟩ := invariant.granted _ _ (backs.listed index _ (claimAt_of there))
  obtain ⟨found, stored, begins⟩ := claimed.continues
  change system.store.ledger.find? job.id = some found at stored
  rw [tracked.store] at stored
  have registered : worker.definitions job.type ≠ none := by
    obtain ⟨definition, offered, known, -⟩ :=
      authentic.accepted found (KeyedTable.find?_mem stored)
    rw [← begins.type, known]
    exact Option.some_ne_none definition
  refine step.authentic authentic ?_ adds ?_
  · intro other member
    rw [← tracked.store] at member
    exact (invariant.reached.coherenceInvariant other member).inOrder
  · intro other changed position entry one member appended outcome
    obtain ⟨sameId, owned⟩ := one.runs_under carries
    have here := KeyedTable.find?_of_mem member
    rw [sameId] at here
    cases stored.symm.trans here
    have history := (tracked.completing invariant there).2 found stored owned
    obtain ⟨first, ran⟩ := one.runs_with issued registered history claimed.stored.1
      (brings index _ job result there rfl) appended outcome
    exact ⟨first, job, result, begins, history.symm, ran⟩

/-- What the loops bring and what is stored comes from the handlers and the definitions. -/
structure Authentic (worker : QueuedJobWorker) (handlers : IJobHandlerRegistry)
    (pool : WorkerPool)
    : Prop where
  brings : pool.BringsResults worker handlers
  ledger : Ledger.Authentic worker handlers pool.factory.database.ledger

/-- A process that starts brings no result. -/
theorem BringsResults.start (options : JobWorkerOptions) (factory : DbContextFactory)
    (clock : DateTimeOffset)
    : (start options factory clock).BringsResults worker handlers := by
  intro index phase job result there shows
  rw [List.eq_of_mem_replicate (List.mem_of_getElem? there)] at shows
  cases shows

/-- Every step keeps the pool authentic, whatever kind it is of. -/
theorem Authentic.step (authentic : pool.Authentic worker handlers)
    (tracked : pool.TrackedBy system)
    (invariant : WorkerSystem.Invariant SqliteJobStore.lawful system) {input : PoolInput}
    (served : input.ServedBy handlers)
    : (pool.step worker input).2.Authentic worker handlers := by
  obtain ⟨brings, ledger⟩ := authentic
  have move := step_poolStep worker pool input
  generalize (pool.step worker input).1 = entries at move
  generalize (pool.step worker input).2 = after at move ⊢
  cases move with
  | advanced | stopping | idle => exact ⟨brings, ledger⟩
  | @requested actor ambient request client context call reading adds =>
      refine ⟨brings, tracked.authentic_of_call invariant ledger adds ?_ rfl⟩
      cases call with
      | add | get | list | acknowledge => rfl
      | tryClaimNextDueJob | renewLease | markCompleted | markFailed | scheduleRetry =>
          cases reading
  | moved there _ _ _ results =>
      refine ⟨brings.enter there ?_, ledger⟩
      intro job result shows
      rcases results with none | same
      · cases none.symm.trans shows
      · exact Or.inl (same ▸ shows)
  | @executed index used execution entries ended there waiting outcome =>
      refine ⟨@BringsResults.enter _ _ _ pool.factory _ _ _ brings there ?_, ledger⟩
      intro job result shows
      cases served
      simp only [WorkerPhase.result] at shows
      split at shows
      · rename_i same
        cases shows
        cases same
        exact Or.inr ⟨pool.stopping, congrArg Prod.snd outcome⟩
      · cases shows
      · cases shows
      · cases shows
  | claimMissed there _ _ answered =>
      refine ⟨brings.enter there (fun _ _ shows => by cases shows), ?_⟩
      exact tracked.authentic_of_call invariant ledger (.ofOther rfl) rfl answered
  | claimed there _ _ answered =>
      refine ⟨brings.enter there (fun _ _ shows => by cases shows), ?_⟩
      exact tracked.authentic_of_call invariant ledger (.ofOther rfl) rfl answered
  | renewalMissed there _ _ _ answered =>
      refine ⟨brings.enter there (fun _ _ shows => Or.inl shows), ?_⟩
      exact tracked.authentic_of_call invariant ledger (.ofOther rfl) rfl answered
  | renewed there _ _ _ answered =>
      refine ⟨brings.enter there (fun _ _ shows => Or.inl shows), ?_⟩
      exact tracked.authentic_of_call invariant ledger (.ofOther rfl) rfl answered
  | issued there ended =>
      refine ⟨@BringsResults.enter _ _ _ pool.factory _ _ _ brings there ?_, ledger⟩
      intro job result shows
      cases shows
      refine Or.inl ?_
      simp only [WorkerPhase.result, ended]
  | completed there _ issued answered =>
      refine ⟨brings.enter there (fun _ _ shows => by cases shows), ?_⟩
      exact tracked.authentic_of_completion invariant ledger brings there issued answered

/-- A served process is authentic, by induction on what happened to it. -/
theorem Serves.authentic (serves : Serves worker handlers pool)
    : pool.Authentic worker handlers := by
  induction serves with
  | first options clock =>
      refine ⟨.start options _ clock, ⟨?_, ?_⟩⟩
      · exact fun job member => absurd member List.not_mem_nil
      · exact fun job member => absurd member List.not_mem_nil
  | step serves allowed served ih =>
      obtain ⟨system, invariant, tracked⟩ := serves.lives.tracked
      exact ih.step tracked invariant served
  | restart options serves ih => exact ⟨.start options _ _, ih.ledger⟩

end WorkerPool

end JobScheduler
