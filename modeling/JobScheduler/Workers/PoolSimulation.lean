import JobScheduler.Actions.EnqueuedJobs
import JobScheduler.Library.Holders
import JobScheduler.Library.Simulation
import JobScheduler.Workers.LeaseExclusion
import JobScheduler.Workers.PoolSteps

/-! The worker pool refines the abstract worker system. Each step of the process is at most one
step of the system, which makes the same call under the query filter of the context it runs
in. The clock of the system does not follow one that is set back; where none is, leases exclude
in the pool as they do in the system.
-/

namespace JobScheduler

open Library JobLifecycleService

-----------------------------------------------------------------------------------------
-- Steps of the system by the answer of the store
-----------------------------------------------------------------------------------------

namespace WorkerSystem

variable {State : Type} {methods : IJobStore State} {leaseDuration : TimeSpan}
  {ambient : Ambient} {system : WorkerSystem State} {answer : StoreAnswer} {next : State}

/-- The claims that an answer to `TryClaimNextDueJob` grants. -/
def granted (leaseExpiresAt : DateTimeOffset) : StoreAnswer → List WorkerClaim
  | .job (some job) => [⟨job, leaseExpiresAt, false⟩]
  | _ => []

theorem granted_eq_nil {leaseExpiresAt : DateTimeOffset}
    (nothing : ∀ job, answer ≠ .job (some job))
    : granted leaseExpiresAt answer = [] := by
  unfold granted
  split
  · exact absurd rfl (nothing _)
  · rfl

theorem claim_of_call {now leaseExpiresAt : DateTimeOffset} {workerId : String}
    (added : now.add leaseDuration = .ok leaseExpiresAt)
    (called
      : methods.call ambient (.tryClaimNextDueJob now workerId leaseExpiresAt) system.store
        = (answer, next))
    : system.claim methods leaseDuration ambient now workerId
      = { system with
          store := next
          claims := system.claims ++ granted leaseExpiresAt answer } := by
  unfold claim
  simp only [added, claimNextDueJob]
  simp only [IJobStore.call] at called
  rcases attempt : methods.tryClaimNextDueJob ambient now workerId leaseExpiresAt system.store
    with ⟨exception | _ | job, after⟩
  · rw [attempt] at called
    cases called
    simp [granted]
  · rw [attempt] at called
    cases called
    simp [granted]
  · rw [attempt] at called
    cases called
    rfl

theorem renew_of_call {index : Nat} {held : WorkerClaim}
    {renewedAt leaseExpiresAt : DateTimeOffset}
    (listed : system.claims[index]? = some held)
    (added : renewedAt.add leaseDuration = .ok leaseExpiresAt)
    (called
      : methods.call ambient (held.renewal renewedAt leaseExpiresAt) system.store
        = (answer, next))
    : system.renew methods leaseDuration index renewedAt
      = { system with
          store := next
          claims :=
            if answer = .flag true then
              system.claims.modify index
                (fun held => { held with leaseExpiresAt := leaseExpiresAt })
            else
              system.claims } := by
  unfold renew
  simp only [listed, added, renewLease]
  simp only [IJobStore.call, WorkerClaim.renewal] at called
  rcases attempt : methods.renewLease held.snapshot.id held.snapshot.currentStateChangeId
    renewedAt leaseExpiresAt system.store with ⟨exception | _ | _, after⟩
  · rw [attempt] at called
    cases called
    simp
  · rw [attempt] at called
    cases called
    simp
  · rw [attempt] at called
    cases called
    simp

theorem complete_of_call {index : Nat} {held : WorkerClaim}
    {definitions : IJobDefinitionRegistry} {utcNow : DateTimeOffset}
    {result : JobExecutionResult} {call : StoreCall} {completion : JobExecutionCompletion}
    (listed : system.claims[index]? = some held)
    (issued : completionCall definitions utcNow held.snapshot result = .ok (call, completion))
    (called : methods.call ambient call system.store = (answer, next))
    : system.complete methods index ambient definitions utcNow result
      = { system with store := next } := by
  unfold complete
  simp only [listed, completeExecution_eq, issued, called]

end WorkerSystem

-----------------------------------------------------------------------------------------
-- Runs of the pool
-----------------------------------------------------------------------------------------

namespace WorkerPool

/-- The claim the loop at a position holds. -/
def claimAt (pool : WorkerPool) (index : Nat) : Option WorkerClaim :=
  pool.phases[index]?.bind WorkerPhase.claim

/-- Identifiers do not repeat: those a step draws are not stored yet, nor is the id that a
request draws for a new job.
-/
def Allowed (pool : WorkerPool) : PoolInput → Prop
  | .request _ ambient _ _ =>
      ambient.Fresh pool.factory.database.ledger
      ∧ pool.factory.database.ledger.find? ambient.newGuid = none
  | .claim _ ambient | .renew _ ambient | .complete _ ambient =>
      ambient.Fresh pool.factory.database.ledger
  | _ => True

instance : ∀ (pool : WorkerPool) (input : PoolInput), Decidable (pool.Allowed input)
  | pool, .request _ ambient _ _ =>
      inferInstanceAs (Decidable (ambient.Fresh pool.factory.database.ledger
        ∧ pool.factory.database.ledger.find? ambient.newGuid = none))
  | pool, .claim _ ambient | pool, .renew _ ambient | pool, .complete _ ambient =>
      inferInstanceAs (Decidable (ambient.Fresh pool.factory.database.ledger))
  | _, .advance _ | _, .stop | _, .poll _ | _, .endDelay _ | _, .cancelRenewal _
  | _, .cancelWork _ | _, .execute _ _ | _, .leave _ => inferInstanceAs (Decidable True)

/-- The clock is not set back. -/
def Forward (pool : WorkerPool) : PoolInput → Prop
  | .advance clock => pool.clock ≤ clock
  | _ => True

instance : ∀ (pool : WorkerPool) (input : PoolInput), Decidable (pool.Forward input)
  | pool, .advance clock => inferInstanceAs (Decidable (pool.clock ≤ clock))
  | _, .request _ _ _ _ | _, .claim _ _ | _, .renew _ _ | _, .complete _ _ | _, .stop
  | _, .poll _ | _, .endDelay _ | _, .cancelRenewal _ | _, .cancelWork _ | _, .execute _ _
  | _, .leave _ => inferInstanceAs (Decidable True)

/-- No reading that a loop has taken lies after the instant. -/
def ReadBy (pool : WorkerPool) (latest : DateTimeOffset) : Prop :=
  ∀ (index : Nat) (phase : WorkerPhase) (reading : DateTimeOffset),
    pool.phases[index]? = some phase → phase.reading = some reading → reading ≤ latest

/-- The system has the database of the pool, lists the claims of its loops, and its clock has
seen whatever the clock of the pool has shown.
-/
structure TrackedBy (pool : WorkerPool) (system : WorkerSystem Database) : Prop where
  store : system.store = pool.factory.database
  clock : pool.clock ≤ system.clock
  past : pool.ReadBy system.clock
  backed : ∃ entry, Backs pool.claimAt system.claims entry

section Moves

variable {pool : WorkerPool} {index : Nat} {before after : WorkerPhase}

/-- A loop is where it was, unless it is the one that moves on. -/
theorem phases_enter {other : Nat} {phase : WorkerPhase}
    (there : pool.phases[index]? = some before)
    (found : (pool.enter index after).phases[other]? = some phase)
    : (other = index ∧ phase = after)
      ∨ (other ≠ index ∧ pool.phases[other]? = some phase) := by
  have inside : index < pool.phases.length := (List.getElem?_eq_some_iff.mp there).1
  simp only [WorkerPool.enter] at found
  by_cases same : index = other
  · subst same
    rw [List.getElem?_set_self inside] at found
    exact Or.inl ⟨rfl, (Option.some.inj found).symm⟩
  · rw [List.getElem?_set_ne same] at found
    exact Or.inr ⟨Ne.symm same, found⟩

/-- A loop that moves on changes its own claim alone. -/
theorem claimAt_enter (there : pool.phases[index]? = some before)
    : (pool.enter index after).claimAt = Function.update pool.claimAt index after.claim := by
  funext other
  have inside : index < pool.phases.length := (List.getElem?_eq_some_iff.mp there).1
  unfold claimAt enter
  by_cases same : other = index
  · rw [same, Function.update_self, List.getElem?_set_self inside]
    rfl
  · rw [Function.update_of_ne same, List.getElem?_set_ne (Ne.symm same)]

theorem claimAt_of (there : pool.phases[index]? = some before)
    : pool.claimAt index = before.claim := by
  rw [claimAt, there]
  rfl

/-- A reading that a loop takes when it moves on is one of the clock. -/
theorem ReadBy.enter {latest : DateTimeOffset} (past : pool.ReadBy latest)
    (clock : pool.clock ≤ latest) (there : pool.phases[index]? = some before)
    (reading
      : after.reading = none
        ∨ after.reading = before.reading
        ∨ after.reading = some pool.clock)
    : (pool.enter index after).ReadBy latest := by
  intro other phase taken found shows
  rcases phases_enter there found with ⟨-, rfl⟩ | ⟨-, kept⟩
  · rcases reading with none | same | now
    · rw [none] at shows
      cases shows
    · exact past index before taken there (same ▸ shows)
    · rw [now] at shows
      cases shows
      exact clock
  · exact past other phase taken kept shows

end Moves

namespace TrackedBy

variable {worker : QueuedJobWorker} {pool : WorkerPool} {system : WorkerSystem Database}

/-- A process that starts holds no claim, whatever claims the processes before it hold. -/
theorem start (options : JobWorkerOptions) {factory : DbContextFactory}
    {clock : DateTimeOffset} (store : system.store = factory.database)
    (shown : clock ≤ system.clock)
    : (WorkerPool.start options factory clock).TrackedBy system := by
  have polling {index : Nat} {phase : WorkerPhase}
      (there : (WorkerPool.start options factory clock).phases[index]? = some phase)
      : phase = .polling :=
    List.eq_of_mem_replicate (List.mem_of_getElem? there)
  refine ⟨store, shown, ?_, fun _ => 0, Backs.ofNone ?_⟩
  · intro index phase reading there shows
    rw [polling there] at shows
    cases shows
  · intro index
    unfold claimAt
    cases there : (WorkerPool.start options factory clock).phases[index]? with
    | none => rfl
    | some phase =>
        rw [polling there]
        rfl

/-- A loop that moves on under an unchanged claim, or gives it up, needs no step. -/
theorem moved (tracked : pool.TrackedBy system) {next : WorkerSystem Database}
    {factory : DbContextFactory} {index : Nat} {before after : WorkerPhase}
    (there : pool.phases[index]? = some before)
    (store : next.store = factory.database) (clock : next.clock = system.clock)
    (claims : next.claims = system.claims)
    (kept : after.claim = none ∨ after.claim = before.claim)
    (reading
      : after.reading = none
        ∨ after.reading = before.reading
        ∨ after.reading = some pool.clock)
    : ({ pool with factory := factory }.enter index after).TrackedBy next := by
  obtain ⟨entry, backs⟩ := tracked.backed
  refine ⟨store, clock ▸ tracked.clock, clock ▸ @ReadBy.enter { pool with factory := factory }
    _ _ _ _ tracked.past tracked.clock there reading, entry, ?_⟩
  rw [@claimAt_enter { pool with factory := factory } _ _ _ there, claims]
  exact backs.drop index (kept.imp id (fun same => same.trans (claimAt_of there).symm))

/-- A client call is orderly when the request that makes it drew its identifiers afresh. -/
theorem orderly_of_request {definitions : IJobDefinitionRegistry} {filter : QueryFilter}
    {ambient : Ambient} {call : StoreCall} {db : Database}
    (adds : call.AddsRequested definitions ambient) (fresh : ambient.Fresh db.ledger)
    (newId : db.ledger.find? ambient.newGuid = none)
    : SqliteJobStore.lawful.Orderly db ⟨filter, ambient, call⟩ where
  admissible := adds.admissible
  fresh := fresh
  newJob job added := by
    obtain ⟨request, payload, retryPolicy, delaySeconds, actor, -, built⟩ := adds job added
    obtain ⟨sameId, -, -, change, history, drawn⟩ := EnqueueJobAction.jobFor_eq built
    refine ⟨?_, ?_⟩
    · rw [sameId]
      exact newId
    · intro other member entry listed
      rw [history, List.mem_singleton] at listed
      rw [listed, drawn]
      exact (fresh.2 other member).2

/-- What a loop asks of its database it asks of that of the system, under some filter. -/
theorem called (tracked : pool.TrackedBy system) {context : DataAccessPolicyContext}
    {ambient : Ambient} {call : StoreCall} {answer : StoreAnswer} {next : DbContextFactory}
    (answered
      : (DbContextFactory.store context).call ambient call pool.factory = (answer, next))
    : ∃ filter,
        (SqliteJobStore.methods filter).call ambient call system.store
        = (answer, next.database) := by
  obtain ⟨filter, called⟩ := DbContextFactory.call_database context ambient call pool.factory
  rw [answered] at called
  exact ⟨filter, tracked.store ▸ called⟩

/-- A loop whose claim changes with the entry that lists it. -/
theorem changed (tracked : pool.TrackedBy system) {factory : DbContextFactory} {index : Nat}
    {before after : WorkerPhase} {held : WorkerClaim}
    (there : pool.phases[index]? = some before) (holds : before.claim = some held)
    (change : WorkerClaim → WorkerClaim) (changes : after.claim = some (change held))
    (reading : after.reading = none)
    {entry : Nat → Nat} (backs : Backs pool.claimAt system.claims entry)
    : ({ pool with factory := factory }.enter index after).TrackedBy
        { system with
          store := factory.database
          claims := system.claims.modify (entry index) change } := by
  refine ⟨rfl, tracked.clock, @ReadBy.enter { pool with factory := factory } _ _ _ _
    tracked.past tracked.clock there (Or.inl reading), entry, ?_⟩
  rw [@claimAt_enter { pool with factory := factory } _ _ _ there, changes]
  exact backs.change ((claimAt_of there).trans holds) change

/-- Each step of the pool is at most one step of the system. A clock that is set back is not
followed; otherwise the clocks stay together.
-/
theorem step (tracked : pool.TrackedBy system) (worker : QueuedJobWorker)
    {input : PoolInput} (allowed : pool.Allowed input)
    : ∃ next,
        (WorkerSystem.machine SqliteJobStore.lawful.methods worker.leaseDuration).Moves
            (fun system => system.Allowed SqliteJobStore.lawful) system next
        ∧ (pool.step worker input).2.TrackedBy next
        ∧ (system.clock = pool.clock
          → pool.Forward input
          → next.clock = (pool.step worker input).2.clock) := by
  have one {input : WorkerInput QueryFilter}
      (permitted : system.Allowed SqliteJobStore.lawful input)
      : (WorkerSystem.machine SqliteJobStore.lawful.methods worker.leaseDuration).Moves
          (fun system => system.Allowed SqliteJobStore.lawful) system
          (system.step SqliteJobStore.lawful.methods worker.leaseDuration input) :=
    .step permitted
  have move := step_poolStep worker pool input
  generalize (pool.step worker input).1 = entries at move
  generalize (pool.step worker input).2 = after at move ⊢
  obtain ⟨entry, backs⟩ := tracked.backed
  cases move with
  | advanced clock =>
      by_cases ahead : system.clock ≤ clock
      · refine ⟨_, @one (.advance clock) (.advance ahead),
          ⟨tracked.store, le_refl clock, ?_, entry, backs⟩, fun _ _ => rfl⟩
        intro index phase reading there shows
        exact (tracked.past index phase reading there shows).trans ahead
      · refine ⟨system, .stay _,
          ⟨tracked.store, (le_total system.clock clock).resolve_left ahead, tracked.past, entry,
            backs⟩, ?_⟩
        intro same forward
        exact absurd (same ▸ forward) ahead
  | stopping =>
      exact ⟨system, .stay _, ⟨tracked.store, tracked.clock, tracked.past, entry, backs⟩,
        fun same _ => same⟩
  | @requested actor ambient request client context call reading adds =>
      obtain ⟨filter, called⟩ := DbContextFactory.call_database context ambient call pool.factory
      refine ⟨_, @one (.client ⟨filter, ambient, call⟩) ⟨?_, reading⟩,
        ⟨?_, tracked.clock, tracked.past, entry, backs⟩, fun same _ => same⟩
      · rw [tracked.store]
        exact orderly_of_request adds allowed.1 allowed.2
      · show ((SqliteJobStore.methods filter).call ambient call system.store).2 = _
        rw [tracked.store, called]
  | idle => exact ⟨system, .stay _, tracked, fun same _ => same⟩
  | moved there kept reading =>
      exact ⟨system, .stay _, tracked.moved there tracked.store rfl rfl kept reading,
        fun same _ => same⟩
  | executed there =>
      exact ⟨system, .stay _,
        tracked.moved there tracked.store rfl rfl (Or.inr rfl) (Or.inr (Or.inl rfl)),
        fun same _ => same⟩
  | @claimMissed index ambient now leaseExpiresAt entries answer next there authorized added
      answered nothing quiet =>
      obtain ⟨filter, called⟩ := tracked.called answered
      have early : now ≤ system.clock :=
        tracked.past index _ now there rfl
      refine ⟨_, @one (.claim filter ambient now (workerId index))
        ⟨tracked.store ▸ allowed, early⟩, ?_⟩
      show TrackedBy _ (system.claim (SqliteJobStore.methods filter) _ _ _ _)
        ∧ (_ → _ → (system.claim (SqliteJobStore.methods filter) _ _ _ _).clock = pool.clock)
      rw [WorkerSystem.claim_of_call added called, WorkerSystem.granted_eq_nil nothing,
        List.append_nil]
      exact ⟨tracked.moved there rfl rfl rfl (Or.inl rfl) (Or.inl rfl), fun same _ => same⟩
  | @claimed index ambient now leaseExpiresAt job next there authorized added answered =>
      obtain ⟨filter, called⟩ := tracked.called answered
      have early : now ≤ system.clock :=
        tracked.past index _ now there rfl
      refine ⟨_, @one (.claim filter ambient now (workerId index))
        ⟨tracked.store ▸ allowed, early⟩, ?_⟩
      show TrackedBy _ (system.claim (SqliteJobStore.methods filter) _ _ _ _)
        ∧ (_ → _ → (system.claim (SqliteJobStore.methods filter) _ _ _ _).clock = pool.clock)
      rw [WorkerSystem.claim_of_call added called]
      refine ⟨⟨rfl, tracked.clock, @ReadBy.enter { pool with factory := next } _ _ _ _
        tracked.past tracked.clock there (Or.inl rfl),
        Function.update entry index system.claims.length, ?_⟩, fun same _ => same⟩
      rw [@claimAt_enter { pool with factory := next } _ _ _ there]
      exact backs.grant index _
  | @renewalMissed index ambient execution renewedAt leaseExpiresAt entries answer next there
      reading authorized added answered refused quiet =>
      obtain ⟨filter, called⟩ := tracked.called answered
      have listed := backs.listed index _ (claimAt_of there)
      refine ⟨_, @one (.renew (entry index) filter ambient renewedAt)
        ⟨tracked.store ▸ allowed, ?_⟩, ?_⟩
      · refine tracked.past index _ renewedAt there ?_
        simp only [WorkerPhase.reading, reading]
      · show TrackedBy _ (system.renew (SqliteJobStore.methods filter) _ _ _)
          ∧ (_ → _ → (system.renew (SqliteJobStore.methods filter) _ _ _).clock = pool.clock)
        rw [WorkerSystem.renew_of_call listed added called, if_neg refused]
        exact ⟨tracked.moved there rfl rfl rfl (Or.inr rfl) (Or.inl rfl), fun same _ => same⟩
  | @renewed index ambient execution renewedAt leaseExpiresAt next there reading authorized
      added answered =>
      obtain ⟨filter, called⟩ := tracked.called answered
      have listed := backs.listed index _ (claimAt_of there)
      refine ⟨_, @one (.renew (entry index) filter ambient renewedAt)
        ⟨tracked.store ▸ allowed, ?_⟩, ?_⟩
      · refine tracked.past index _ renewedAt there ?_
        simp only [WorkerPhase.reading, reading]
      · show TrackedBy _ (system.renew (SqliteJobStore.methods filter) _ _ _)
          ∧ (_ → _ → (system.renew (SqliteJobStore.methods filter) _ _ _).clock = pool.clock)
        rw [WorkerSystem.renew_of_call listed added called, if_pos rfl]
        exact ⟨tracked.changed there rfl _ rfl rfl backs, fun same _ => same⟩
  | @issued index execution result there _ =>
      refine ⟨_, @one (.issueCompletion (entry index)) trivial, ?_⟩
      have after := @changed pool system tracked pool.factory _ _
        (.completing execution.job execution.leaseExpiresAt result) _ there rfl
        (fun held => { held with completionIssued := true }) rfl rfl entry backs
      rw [← tracked.store] at after
      exact ⟨after, fun same _ => same⟩
  | @completed index ambient job leaseExpiresAt result call completion entries answer next
      there authorized issued answered reports =>
      obtain ⟨filter, called⟩ := tracked.called answered
      have listed := backs.listed index _ (claimAt_of there)
      refine ⟨_, @one (.complete (entry index) filter
        { ambient with utcNow := ambient.utcNowAgain } worker.definitions ambient.utcNow result)
        ⟨tracked.store ▸ allowed, ?_⟩, ?_⟩
      · intro held found
        cases listed.symm.trans found
        rfl
      · show TrackedBy _ (system.complete (SqliteJobStore.methods filter) _ _ _ _ _)
          ∧ (_
            → _
            → (system.complete (SqliteJobStore.methods filter) _ _ _ _ _).clock = pool.clock)
        rw [WorkerSystem.complete_of_call listed issued called]
        exact ⟨tracked.moved there rfl rfl rfl (Or.inl rfl) (Or.inl rfl), fun same _ => same⟩

end TrackedBy

/-- The process is reached by allowed steps, over an empty database in the beginning. At any
moment it may die, and another one starts over the database it left. The clock may show
anything.
-/
inductive Lives (worker : QueuedJobWorker) : WorkerPool → Prop
  | first (options : JobWorkerOptions) (clock : DateTimeOffset)
    : Lives worker (start options ⟨none, .empty⟩ clock)
  | step {pool : WorkerPool} {input : PoolInput} (lives : Lives worker pool)
    (allowed : pool.Allowed input)
    : Lives worker (pool.step worker input).2
  | restart {pool : WorkerPool} (options : JobWorkerOptions) (lives : Lives worker pool)
    : Lives worker (start options ⟨none, pool.factory.database⟩ pool.clock)

/-- A run of allowed steps, by induction on its inputs. -/
theorem Lives.run {worker : QueuedJobWorker} {pool : WorkerPool} {inputs : List PoolInput}
    (lives : Lives worker pool)
    (allowed : (machine worker).AlongSteps WorkerPool.Allowed pool inputs)
    : Lives worker ((machine worker).run pool inputs).2 := by
  induction inputs generalizing pool with
  | nil => exact lives
  | cons input rest ih => exact ih (lives.step allowed.1) allowed.2

/-- A step of the pool leaves the invariant of the system that follows it in place. -/
theorem invariant_of_moves {worker : QueuedJobWorker} {system next : WorkerSystem Database}
    (moved
      : (WorkerSystem.machine SqliteJobStore.lawful.methods worker.leaseDuration).Moves
          (fun system => system.Allowed SqliteJobStore.lawful) system next)
    (invariant : system.Invariant SqliteJobStore.lawful)
    : next.Invariant SqliteJobStore.lawful :=
  moved.reaches.preserves
    (fun _ _ invariant allowed => invariant.step worker.leaseDuration allowed) invariant

/-- A system tracks the process and satisfies the invariant of worker systems, by induction on
what happened to the process. A restart takes no step of the system: the claims of the dead
loops stay listed.
-/
theorem Lives.tracked {worker : QueuedJobWorker} {pool : WorkerPool}
    (lives : Lives worker pool)
    : ∃ system, system.Invariant SqliteJobStore.lawful ∧ pool.TrackedBy system := by
  induction lives with
  | first options clock =>
      exact ⟨.start SqliteJobStore.lawful clock, .start clock,
        .start options rfl (le_refl clock)⟩
  | step lives allowed ih =>
      obtain ⟨system, invariant, tracked⟩ := ih
      obtain ⟨next, moved, trackedNext, -⟩ := tracked.step worker allowed
      exact ⟨next, invariant_of_moves moved invariant, trackedNext⟩
  | restart options lives ih =>
      obtain ⟨system, invariant, tracked⟩ := ih
      exact ⟨system, invariant, .start options tracked.store tracked.clock⟩

/-- The lives in which the clock is never set back. -/
inductive SteadyLives (worker : QueuedJobWorker) : WorkerPool → Prop
  | first (options : JobWorkerOptions) (clock : DateTimeOffset)
    : SteadyLives worker (start options ⟨none, .empty⟩ clock)
  | step {pool : WorkerPool} {input : PoolInput} (lives : SteadyLives worker pool)
    (allowed : pool.Allowed input) (forward : pool.Forward input)
    : SteadyLives worker (pool.step worker input).2
  | restart {pool : WorkerPool} (options : JobWorkerOptions) (lives : SteadyLives worker pool)
    : SteadyLives worker (start options ⟨none, pool.factory.database⟩ pool.clock)

theorem SteadyLives.run {worker : QueuedJobWorker} {pool : WorkerPool}
    {inputs : List PoolInput} (lives : SteadyLives worker pool)
    (steps
      : (machine worker).AlongSteps (fun pool input => pool.Allowed input ∧ pool.Forward input)
          pool inputs)
    : SteadyLives worker ((machine worker).run pool inputs).2 := by
  induction inputs generalizing pool with
  | nil => exact lives
  | cons input rest ih => exact ih (lives.step steps.1.1 steps.1.2) steps.2

/-- In steady lives the clock of the system is that of the pool. -/
theorem SteadyLives.tracked {worker : QueuedJobWorker} {pool : WorkerPool}
    (lives : SteadyLives worker pool)
    : ∃ system,
        system.Invariant SqliteJobStore.lawful
        ∧ pool.TrackedBy system
        ∧ system.clock = pool.clock := by
  induction lives with
  | first options clock =>
      exact ⟨.start SqliteJobStore.lawful clock, .start clock,
        .start options rfl (le_refl clock), rfl⟩
  | step lives allowed forward ih =>
      obtain ⟨system, invariant, tracked, same⟩ := ih
      obtain ⟨next, moved, trackedNext, together⟩ := tracked.step worker allowed
      exact ⟨next, invariant_of_moves moved invariant, trackedNext, together same forward⟩
  | restart options lives ih =>
      obtain ⟨system, invariant, tracked, same⟩ := ih
      exact ⟨system, invariant, .start options tracked.store tracked.clock, same⟩

end WorkerPool

theorem workerService_present : isNullOrWhiteSpace "worker-service" = false := by decide

theorem system_present : isNullOrWhiteSpace "system" = false := by decide

/-- The worker service over emails, with leases of four ticks. -/
def emailWorker : QueuedJobWorker where
  workerActor := ⟨"worker-service", "system", [JobPermissions.execute], workerService_present,
    system_present⟩
  leaseDuration := ⟨4⟩
  definitions := fun _ => some emailDefinition
  provided := ⟨"worker-service", "system", [JobPermissions.execute], workerService_present,
    system_present⟩

/-- An email is enqueued, and the first of two loops claims it at tick 1. -/
def abandonedEmail : List PoolInput :=
  [.request (emailActor "tenant-a" tenantA_present) (smallAmbient 0)
      (.enqueueJob ⟨"email", ⟨"{}"⟩, none⟩) rfl,
    .advance (.ofTicks 1), .poll 0, .claim 0 (smallAmbient 1)]

end JobScheduler
