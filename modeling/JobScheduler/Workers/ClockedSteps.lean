import JobScheduler.Ledger.Chronology
import JobScheduler.Ledger.ClaimOrder
import JobScheduler.Workers.LeaseExclusion

/-! Steps of workers whose clock readings are taken in the order of the program. Every such step
leaves the runs of a job going forward, and a job that is queued or runs is never due before
its last change.
-/

namespace JobScheduler

open Library JobLifecycleService

/-- The call a completion issues is dated inside the store. -/
theorem JobLifecycleService.completionCall_reading {definitions : IJobDefinitionRegistry}
    {utcNow : DateTimeOffset} {snapshot : JobRecord} {result : JobExecutionResult}
    {call : StoreCall} {completion : JobExecutionCompletion}
    (issued : completionCall definitions utcNow snapshot result = .ok (call, completion))
    (ambient : Ambient)
    : call.reading ambient = some ambient.utcNow := by
  rcases completionCall_cases definitions utcNow snapshot result with ⟨-, other⟩ | ⟨-, -, other⟩
    | ⟨_, -, -, ⟨_, -, other⟩ | ⟨_, -, other⟩⟩
  · cases issued.symm.trans other
    rfl
  · cases issued.symm.trans other
    rfl
  · cases issued.symm.trans other
    rfl
  · cases issued.symm.trans other

/-- Clients bring no clock reading to a job that is stored. -/
theorem StoreCall.reading_of_client {call : StoreCall} (client : call.isClientCall = true)
    (ambient : Ambient)
    : call.reading ambient = none := by
  cases call with
  | add | get | list | acknowledge => rfl
  | tryClaimNextDueJob | renewLease | markCompleted | markFailed | scheduleRetry => cases client

namespace LawfulStore

variable {State Caller : Type} {store : LawfulStore State Caller} {caller : Caller}
  {snapshot : JobRecord} {state : State}

/-- The job that claims look at is stored and due. -/
def PicksDue (store : LawfulStore State Caller) : Prop :=
  ∀ state,
    store.OrderlyReaches store.initial state
    → ∀ caller now job,
        store.nextDue caller state now = some job
        → job ∈ store.jobs state ∧ job.isDue now = true

/-- The snapshot of a claim shows when it was claimed as its last time. -/
theorem HoldsClaim.lastChangedAt (held : store.HoldsClaim caller snapshot state)
    : ∃ claimedAt,
        snapshot.claimedAt = some claimedAt ∧ snapshot.lastChangedAt = some claimedAt := by
  obtain ⟨before, ambient, now, workerId, leaseExpiresAt, after, reached, -, claimed, -⟩ := held
  obtain ⟨job, -, -, -, -, -, rfl, -⟩ := stored_of_claim reached.reachable.sound claimed
  obtain ⟨_, -, -, record⟩ := job.claimedUnder_eq ambient now workerId leaseExpiresAt
  exact ⟨now, by rw [record], job.claimedUnder_lastChangedAt ambient now workerId leaseExpiresAt⟩

/-- A call that carries a claim's token changes the job as the claim left it. -/
theorem HoldsClaim.history_of_step (held : store.HoldsClaim caller snapshot state)
    {ambient : Ambient} {call : StoreCall} {nextDue : DateTimeOffset → Option JobRecord}
    {job changed : JobRecord} (carries : Carries snapshot call)
    (step : RecordStep nextDue ambient call job changed) (member : job ∈ store.jobs state)
    : job.history = snapshot.history := by
  obtain ⟨running, stored, there, -, begins, coherent, -⟩ := held.stored
  obtain ⟨revision, revises, target, -⟩ := carries.revision ambient
  have token := carries.expectedToken
  have owned : job.id = snapshot.id
      ∧ job.isRunningUnder snapshot.currentStateChangeId = true := by
    rw [JobRecord.isRunningUnder_iff]
    cases step with
    | claimed => cases revises
    | renewed runs | completed runs | failed runs | retried runs =>
        cases revises
        exact ⟨target, runs, Option.some.inj token⟩
    | acknowledged => cases token
  obtain ⟨sameId, runs⟩ := owned
  have found : (store.ledger state).find? job.id = some job := KeyedTable.find?_of_mem member
  rw [sameId, there] at found
  cases found
  exact (coherent.isRunningUnder_iff running begins).mp runs

end LawfulStore

/-- In the in-memory store claims look at due jobs, since every indexed job is stored. -/
theorem InMemoryJobStore.picksDue : InMemoryJobStore.lawful.PicksDue := by
  intro store reached _ now job picks
  have indexed : store.Indexed :=
    reached.preserves
      (fun _ input indexed orderly => indexed.call input.ambient orderly.admissible
        (fun job added => (orderly.newJob job added).1))
      InMemoryJobStore.empty_exact.toIndexed
  exact indexed.due_of_picks picks

/-- In the SQLite store claims look at due jobs, by the due query. -/
theorem SqliteJobStore.picksDue : SqliteJobStore.lawful.PicksDue := by
  intro db _ filter now job picks
  obtain ⟨stored, -, due, -⟩ := SqliteJobStore.nextDue_eq_some picks
  exact ⟨KeyedTable.find?_mem stored, due⟩

namespace WorkerSystem

variable {State Caller : Type} {store : LawfulStore State Caller}
  {system : WorkerSystem State} {leaseDuration : TimeSpan}

/-- A worker reads the clock for its claim before it reads it for a renewal or in
`CompleteExecution`, and the store reads it after that, before the call takes effect.
-/
def Clocked (system : WorkerSystem State) : WorkerInput Caller → Prop
  | .renew index _ _ renewedAt =>
      ∀ held ∈ system.claims[index]?,
        ∀ claimedAt ∈ held.snapshot.claimedAt, claimedAt ≤ renewedAt
  | .complete index _ ambient _ utcNow _ =>
      (∀ held ∈ system.claims[index]?,
        ∀ claimedAt ∈ held.snapshot.claimedAt, claimedAt ≤ utcNow)
      ∧ utcNow ≤ ambient.utcNow
      ∧ ambient.utcNow ≤ system.clock
  | _ => True

/-- The step is a valid claim that comes to a scheduled job, with a clock reading from before
the job's last change.
-/
def ClaimsEarly (store : LawfulStore State Caller) (leaseDuration : TimeSpan)
    (system : WorkerSystem State)
    : WorkerInput Caller → Prop
  | .claim caller _ now workerId =>
      ∃ leaseExpiresAt ∈ (now.add leaseDuration).toOption,
        JobRecord.ValidClaim workerId now leaseExpiresAt
        ∧ ∃ job ∈ store.nextDue caller system.store now,
            job.status = .scheduled ∧ ∃ last ∈ job.lastChangedAt, now < last
  | _ => False

instance (store : LawfulStore State Caller) (leaseDuration : TimeSpan)
    (system : WorkerSystem State) (input : WorkerInput Caller)
    : Decidable (system.ClaimsEarly store leaseDuration input) :=
  match input with
  | .claim caller _ now workerId =>
      inferInstanceAs (Decidable (∃ leaseExpiresAt ∈ (now.add leaseDuration).toOption,
        JobRecord.ValidClaim workerId now leaseExpiresAt
        ∧ ∃ job ∈ store.nextDue caller system.store now,
            job.status = .scheduled ∧ ∃ last ∈ job.lastChangedAt, now < last))
  | .advance _ | .client _ | .renew _ _ _ _ | .issueCompletion _ | .complete _ _ _ _ _ _ =>
      inferInstanceAs (Decidable False)

/-- Every history is in order of time, and no attempt has a negative duration. -/
def HistoriesInOrder (store : LawfulStore State Caller) (system : WorkerSystem State) : Prop :=
  ∀ job ∈ store.jobs system.store, job.Chronological ∧ job.NonnegativeDurations

instance (store : LawfulStore State Caller) (system : WorkerSystem State)
    : Decidable (system.HistoriesInOrder store) :=
  inferInstanceAs (Decidable (∀ job ∈ store.jobs system.store, _))

/-- What an allowed step asks of the store is orderly. -/
theorem Asks.orderly {input : WorkerInput Caller} {call : StoreInput Caller}
    (asks : Asks leaseDuration system input call) (allowed : system.Allowed store input)
    : store.Orderly system.store call := by
  cases asks with
  | client => exact allowed.1
  | claim => exact .claim allowed.1
  | renew _ leaseExpiresAt => exact .carries (.renewLease _ leaseExpiresAt) allowed.1
  | complete _ issued => exact .carries (completionCall_carries issued) allowed.1

/-- A property of single jobs holds after a step if it held before, if new jobs have it, and
if the changes that the step asks for keep it.
-/
theorem step_forall_jobs {P : JobRecord → Prop} {input : WorkerInput Caller}
    (reached : store.OrderlyReaches store.initial system.store)
    (allowed : system.Allowed store input) (before : ∀ job ∈ store.jobs system.store, P job)
    (made
      : ∀ call job,
          Asks leaseDuration system input call
          → call.call = .add job
          → job.NewlyMade
          → P job)
    (changed
      : ∀ call job after,
          Asks leaseDuration system input call
          → RecordStep (store.nextDue call.caller system.store) call.ambient call.call job after
          → job ∈ store.jobs system.store
          → P after)
    : ∀ job ∈ store.jobs (system.step store.methods leaseDuration input).store, P job := by
  rw [step_store]
  cases called : system.storeInput leaseDuration input with
  | none => exact before
  | some call =>
      have asks := asks_of_storeInput called
      have step := store.follows call.caller call.ambient call.call system.store
        reached.reachable.sound (asks.orderly allowed).admissible
      exact step.forall_rows before (fun job => made call job asks)
        (fun job after one member _ => changed call job after asks one member)

/-- The call of a listed claim is not dated before the job's last change, if it is not dated
before the claim.
-/
theorem Invariant.notBeforeLast_of_carries (invariant : Invariant store system) {index : Nat}
    {held : WorkerClaim} (listed : system.claims[index]? = some held) {ambient : Ambient}
    {call : StoreCall} (carries : Carries held.snapshot call)
    (later
      : ∀ claimedAt ∈ held.snapshot.claimedAt,
          ∀ reading ∈ call.reading ambient, claimedAt ≤ reading)
    {nextDue : DateTimeOffset → Option JobRecord} {job changed : JobRecord}
    (step : RecordStep nextDue ambient call job changed)
    (member : job ∈ store.jobs system.store)
    : call.NotBeforeLast ambient job := by
  obtain ⟨caller, claimed⟩ := invariant.granted index held listed
  obtain ⟨claimedAt, shown, final⟩ := claimed.lastChangedAt
  have same := claimed.history_of_step carries step member
  intro last lastAt reading read
  rw [JobRecord.lastChangedAt, same] at lastAt
  cases final.symm.trans lastAt
  exact later claimedAt shown reading read

/-- The invariant of the system, with every job punctual. -/
structure Punctual (store : LawfulStore State Caller) (system : WorkerSystem State)
    : Prop extends Invariant store system where
  jobs : ∀ job ∈ store.jobs system.store, job.Punctual

/-- Every stored job has a legal history. -/
theorem Invariant.legalHistory (invariant : Invariant store system)
    : ∀ job ∈ store.jobs system.store, job.LegalHistory :=
  store.jobs_legalHistory invariant.reached.reachable

/-- A claim comes to a due job, so unless it is early its reading does not lie before the
last change of the job.
-/
theorem Punctual.claim_notBeforeLast (punctual : Punctual store system)
    (picksDue : store.PicksDue) {caller : Caller} {ambient : Ambient}
    {now leaseExpiresAt : DateTimeOffset} {workerId : String}
    (added : now.add leaseDuration = .ok leaseExpiresAt) {job changed : JobRecord}
    (step
      : RecordStep (store.nextDue caller system.store) ambient
          (.tryClaimNextDueJob now workerId leaseExpiresAt) job changed)
    (member : job ∈ store.jobs system.store)
    (onTime
      : job.status = .scheduled
        → ¬ system.ClaimsEarly store leaseDuration (.claim caller ambient now workerId))
    : (StoreCall.tryClaimNextDueJob now workerId leaseExpiresAt).NotBeforeLast ambient job := by
  intro last final reading read
  cases read
  cases step with
  | claimed picked ready valid =>
      by_cases scheduled : job.status = .scheduled
      · by_contra early
        refine onTime scheduled ⟨leaseExpiresAt, by rw [added]; rfl, valid, job, picked,
          scheduled, last, final, not_le.mp early⟩
      · obtain ⟨due, known, past⟩ :=
          JobRecord.dueInstant_of_isDue (picksDue _ punctual.reached caller now job picked).2
        exact ((punctual.jobs job member).dueLater scheduled last final due known).trans past

/-- No clocked step asks for a change dated before the last one, unless it is an early claim
of a scheduled job: the calls of a claim find the job as the claim left it.
-/
theorem Punctual.notBeforeLast (punctual : Punctual store system) (picksDue : store.PicksDue)
    {input : WorkerInput Caller} (allowed : system.Allowed store input)
    (clocked : system.Clocked input) {call : StoreInput Caller}
    (asks : Asks leaseDuration system input call) {job changed : JobRecord}
    (step
      : RecordStep (store.nextDue call.caller system.store) call.ambient call.call job changed)
    (member : job ∈ store.jobs system.store)
    (onTime : job.status = .scheduled → ¬ system.ClaimsEarly store leaseDuration input)
    : call.call.NotBeforeLast call.ambient job := by
  cases asks with
  | client =>
      intro last _ reading read
      cases (StoreCall.reading_of_client allowed.2 call.ambient).symm.trans read
  | claim added => exact punctual.claim_notBeforeLast picksDue added step member onTime
  | @renew _ _ _ renewedAt held listed leaseExpiresAt =>
      refine punctual.notBeforeLast_of_carries listed (.renewLease _ leaseExpiresAt) ?_ step
        member
      intro claimedAt shown reading read
      cases read
      exact clocked held listed claimedAt shown
  | @complete _ _ ambient _ _ _ held _ _ listed issued =>
      refine punctual.notBeforeLast_of_carries listed (completionCall_carries issued) ?_ step
        member
      intro claimedAt shown reading read
      cases (completionCall_reading issued ambient).symm.trans read
      exact (clocked.1 held listed claimedAt shown).trans clocked.2.1

/-- Every allowed and clocked step keeps the jobs punctual, early claims too: they come to
jobs that do not run.
-/
theorem Punctual.step (punctual : Punctual store system) (picksDue : store.PicksDue)
    {input : WorkerInput Caller} (allowed : system.Allowed store input)
    (clocked : system.Clocked input)
    : Punctual store (system.step store.methods leaseDuration input) := by
  refine ⟨punctual.toInvariant.step leaseDuration allowed, ?_⟩
  refine step_forall_jobs punctual.reached allowed punctual.jobs
    (fun _ _ _ _ new => new.punctual.2) ?_
  intro call job changed asks one member
  refine one.punctual (punctual.legalHistory job member) (punctual.jobs job member) ?_
  intro running
  refine punctual.notBeforeLast picksDue allowed clocked asks one member ?_
  intro scheduled
  cases running.symm.trans scheduled

/-- A step that is no early claim keeps the histories in order of time. -/
theorem Punctual.chronological_step (punctual : Punctual store system)
    (picksDue : store.PicksDue) {input : WorkerInput Caller}
    (allowed : system.Allowed store input) (clocked : system.Clocked input)
    (notEarly : ¬ system.ClaimsEarly store leaseDuration input)
    (before : ∀ job ∈ store.jobs system.store, job.Chronological)
    : ∀ job ∈ store.jobs (system.step store.methods leaseDuration input).store,
        job.Chronological := by
  refine step_forall_jobs punctual.reached allowed before (fun _ _ _ _ new => new.punctual.1) ?_
  intro call job changed asks one member
  exact one.chronological (before job member)
    (punctual.notBeforeLast picksDue allowed clocked asks one member (fun _ => notEarly))

theorem Punctual.start (clock : DateTimeOffset)
    : Punctual store (WorkerSystem.start store clock) where
  toInvariant := Invariant.start clock
  jobs := store.initially_forall _

/-- No finished attempt of a punctual system has a negative duration. -/
theorem Punctual.nonnegativeDurations (punctual : Punctual store system)
    : ∀ job ∈ store.jobs system.store, job.NonnegativeDurations := fun job member =>
  (punctual.legalHistory job member).nonnegativeDurations (punctual.jobs job member).runsForward

end WorkerSystem

end JobScheduler
