import JobScheduler.Workers.PoolLog

/-! Which jobs a pool works on. Its workers see rows through the query filter of the model the
process has built, whatever operation that model was built for; jobs outside of it are never
claimed, and a job inside of it is claimed when it is due.
-/

namespace JobScheduler

open Library JobLifecycleService

/-- The permission that opens all rows of the scope to an operation. -/
def DataAccessOperation.permission : DataAccessOperation → String
  | .read => JobPermissions.globalRead
  | .mutate => JobPermissions.execute

/-- The worker actor sees the job under the model the process has built: it created the job, it
manages emails, or it has the permission for the operation the model was built for.
-/
def QueuedJobWorker.Sees (worker : QueuedJobWorker) (factory : DbContextFactory)
    (job : JobRecord)
    : Prop :=
  ∃ model,
    factory.model = some model
    ∧ (job.createdByActorId = worker.workerActor.id
      ∨ worker.workerActor.hasPermission JobPermissions.emailManage = true
      ∨ worker.workerActor.hasPermission model.operation.permission = true)

instance (worker : QueuedJobWorker) (factory : DbContextFactory) (job : JobRecord)
    : Decidable (worker.Sees factory job) :=
  decidable_of_iff
    (factory.model.any (fun model =>
      job.createdByActorId = worker.workerActor.id
      || worker.workerActor.hasPermission JobPermissions.emailManage
      || worker.workerActor.hasPermission model.operation.permission))
    (by simp [QueuedJobWorker.Sees, Option.any_eq_true, or_assoc])

namespace DbContextFactory

/-- The model that a call uses is there afterwards, if the call creates a context. -/
theorem call_builds {context : DataAccessPolicyContext} {ambient : Ambient} {call : StoreCall}
    {factory next : DbContextFactory} {answer : StoreAnswer} (creates : call.createsContext)
    (answered : (store context).call ambient call factory = (answer, next))
    : ∃ model,
        next.model = some model
        ∧ (SqliteJobStore.methods (model.filterIn context)).call ambient call factory.database
          = (answer, next.database) := by
  obtain ⟨model, known, -⟩ := modelFor_eq context factory
  rw [call_eq context known, creates] at answered
  cases answered
  exact ⟨model, rfl, rfl⟩

end DbContextFactory

/-- What the filter of the workers shows. -/
theorem QueuedJobWorker.visible_iff (worker : QueuedJobWorker) (model : JobSchedulerModel)
    (job : JobRecord)
    : SqliteJobStore.visible (model.filterIn worker.context) job = true
      ↔ job.createdByActorId = worker.workerActor.id
        ∨ worker.workerActor.hasPermission JobPermissions.emailManage = true
        ∨ worker.workerActor.hasPermission model.operation.permission = true := by
  have granted : worker.context.operationGrant model.operation
      = worker.workerActor.hasPermission model.operation.permission := by
    cases model.operation <;> rfl
  have everywhere : worker.context.includesAllTenants = true := rfl
  rw [SqliteJobStore.visible, JobSchedulerModel.filterIn_admits, granted, everywhere,
    Bool.true_or, Bool.true_and, Bool.or_eq_true, Bool.or_eq_true, or_assoc]
  exact or_congr decide_eq_true_iff Iff.rfl

-----------------------------------------------------------------------------------------
-- The calls of a step
-----------------------------------------------------------------------------------------

/-- A call that a loop makes: a claim under its own name, or one for a job it has claimed. -/
inductive StoreCall.FromLoop : StoreCall → Prop
  | claims (index : Nat) (now leaseExpiresAt : DateTimeOffset)
    : FromLoop (.tryClaimNextDueJob now (WorkerPool.workerId index) leaseExpiresAt)
  | carries {job : JobRecord} {call : StoreCall} (carried : Carries job call) : FromLoop call

section Calls

variable {call : StoreCall}

theorem StoreCall.FromLoop.admissible (fromLoop : call.FromLoop) : call.Admissible := by
  cases fromLoop with
  | claims => exact StoreCall.admissible_claim _ _ _
  | carries carried => exact carried.admissible

/-- Loops add no jobs. -/
theorem StoreCall.FromLoop.isAdd (fromLoop : call.FromLoop) : call.isAdd = false := by
  cases fromLoop with
  | claims => rfl
  | carries carried => cases carried <;> rfl

end Calls

namespace WorkerPool

variable {worker : QueuedJobWorker} {pool : WorkerPool}

/-- A step leaves the database and the model, or it makes one call, for a client or a loop. -/
theorem PoolStep.call_cases {input : PoolInput} {entries : List LogEntry} {after : WorkerPool}
    (move : PoolStep worker pool input entries after)
    : after.factory = pool.factory
      ∨ (∃ (actor : JobActor) (ambient : Ambient) (request : JobActionRequest)
          (client : request.fromClient = true) (context : DataAccessPolicyContext)
          (call : StoreCall),
          input = .request actor ambient request client
          ∧ call.AddsRequested worker.definitions ambient
          ∧ after.factory
            = ((DbContextFactory.store context).call ambient call pool.factory).2)
      ∨ ∃ (context : DataAccessPolicyContext) (ambient : Ambient) (call : StoreCall)
          (answer : StoreAnswer),
          call.FromLoop
          ∧ (DbContextFactory.store context).call ambient call pool.factory
            = (answer, after.factory) := by
  cases move with
  | advanced | stopping | idle | moved | executed | issued => exact Or.inl rfl
  | requested reading adds => exact Or.inr (Or.inl ⟨_, _, _, _, _, _, rfl, adds, rfl⟩)
  | claimMissed there _ _ answered | claimed there _ _ answered =>
      exact Or.inr (Or.inr ⟨_, _, _, _, .claims _ _ _, answered⟩)
  | renewalMissed there _ _ _ answered | renewed there _ _ _ answered =>
      exact Or.inr (Or.inr ⟨_, _, _, _, .carries (.renewLease _ _), answered⟩)
  | completed there _ issued answered =>
      exact Or.inr (Or.inr ⟨_, _, _, _, .carries (completionCall_carries issued), answered⟩)

-----------------------------------------------------------------------------------------
-- What a pool keeps
-----------------------------------------------------------------------------------------

/-- Every loop that works on a job sees it. -/
def SeesClaims (worker : QueuedJobWorker) (pool : WorkerPool) : Prop :=
  ∀ index held, pool.claimAt index = some held → worker.Sees pool.factory held.snapshot

/-- The later pool has every job of the earlier one under the same terms, and its model. -/
structure Grows (pool later : WorkerPool) : Prop where
  ledger : Ledger.Continues pool.factory.database.ledger later.factory.database.ledger
  model : ∀ model, pool.factory.model = some model → later.factory.model = some model

theorem Grows.refl (pool : WorkerPool) : pool.Grows pool := ⟨.refl _, fun _ built => built⟩

theorem Grows.trans {first second third : WorkerPool} (head : first.Grows second)
    (tail : second.Grows third)
    : first.Grows third :=
  ⟨head.ledger.trans tail.ledger, fun model built => tail.model model (head.model model built)⟩

/-- What is seen once is seen later, since the owner of a job does not change. -/
theorem Grows.sees {later : WorkerPool} (grows : pool.Grows later) {job other : JobRecord}
    (sees : worker.Sees pool.factory job) (terms : job.SameTerms other)
    : worker.Sees later.factory other := by
  obtain ⟨model, built, shown⟩ := sees
  refine ⟨model, grows.model model built, ?_⟩
  rwa [terms.createdByActorId]

/-- A call of a loop makes the pool grow. -/
theorem TrackedBy.grows {system : WorkerSystem Database} (tracked : pool.TrackedBy system)
    (invariant : WorkerSystem.Invariant SqliteJobStore.lawful system)
    {context : DataAccessPolicyContext} {ambient : Ambient} {call : StoreCall}
    {answer : StoreAnswer} {next : DbContextFactory} {later : WorkerPool}
    (admissible : call.Admissible)
    (newId
      : ∀ job : JobRecord,
          call = .add job → pool.factory.database.ledger.find? job.id = none)
    (answered
      : (DbContextFactory.store context).call ambient call pool.factory = (answer, next))
    (after : later.factory = next)
    : pool.Grows later := by
  obtain ⟨visible, nextDue, step⟩ := tracked.ledgerStep invariant admissible answered
  subst after
  have kept (model : JobSchedulerModel) (built : pool.factory.model = some model)
      : later.factory.model = some model := by
    rw [← DbContextFactory.call_model built, answered]
  refine ⟨step.continues newId ?_, kept⟩
  intro job member
  rw [← tracked.store] at member
  exact (invariant.reached.coherenceInvariant job member).inOrder

/-- Every step makes the pool grow, whatever kind it is of. -/
theorem TrackedBy.grows_step {system : WorkerSystem Database}
    (tracked : pool.TrackedBy system)
    (invariant : WorkerSystem.Invariant SqliteJobStore.lawful system)
    (worker : QueuedJobWorker) {input : PoolInput} (allowed : pool.Allowed input)
    : pool.Grows (pool.step worker input).2 := by
  have move := step_poolStep worker pool input
  generalize (pool.step worker input).1 = entries at move
  generalize (pool.step worker input).2 = after at move ⊢
  rcases move.call_cases with
    same | ⟨actor, ambient, request, client, context, call, rfl, adds, runs⟩
      | ⟨context, ambient, call, answer, fromLoop, answered⟩
  · refine ⟨?_, ?_⟩
    · rw [same]
      exact .refl _
    · rw [same]
      exact fun _ built => built
  · refine tracked.grows invariant adds.admissible ?_ rfl runs
    intro job added
    rw [adds.id added]
    exact allowed.2
  · refine tracked.grows invariant fromLoop.admissible ?_ answered rfl
    intro job added
    have none := fromLoop.isAdd
    rw [added] at none
    cases none

/-- A granted claim is one of a job that the worker sees, and of one that is stored then. -/
theorem TrackedBy.claimed_sees {system : WorkerSystem Database}
    (tracked : pool.TrackedBy system)
    (invariant : WorkerSystem.Invariant SqliteJobStore.lawful system) {ambient : Ambient}
    {now leaseExpiresAt : DateTimeOffset} {workerId : String} {job : JobRecord}
    {next : DbContextFactory}
    (answered
      : (DbContextFactory.store worker.context).call ambient
          (.tryClaimNextDueJob now workerId leaseExpiresAt) pool.factory
        = (.job (some job), next))
    : worker.Sees next job ∧ next.database.ledger.find? job.id = some job := by
  obtain ⟨model, built, called⟩ := DbContextFactory.call_builds rfl answered
  rw [← tracked.store] at called
  obtain ⟨picked, -, -, seen, -, -, rfl, ledger⟩ :=
    @LawfulStore.stored_of_claim _ _ SqliteJobStore.lawful _ _ _ _ _ _ _ _
      invariant.reached.reachable.sound called
  refine ⟨⟨model, built, ?_⟩, ?_⟩
  · obtain ⟨last, -, -, record⟩ := picked.claimedUnder_eq ambient now workerId leaseExpiresAt
    rw [record]
    exact (worker.visible_iff model picked).mp seen
  · change next.database.ledger = _ at ledger
    rw [ledger]
    exact KeyedTable.find?_set_self _ _

/-- A loop that moves on works on a job that is seen, if it works on one. -/
theorem SeesClaims.enter (sees : SeesClaims worker pool) {factory : DbContextFactory}
    {index : Nat} {before after : WorkerPhase} (there : pool.phases[index]? = some before)
    (kept : ∀ job, worker.Sees pool.factory job → worker.Sees factory job)
    (claim : ∀ held, after.claim = some held → worker.Sees factory held.snapshot)
    : SeesClaims worker ({ pool with factory := factory }.enter index after) := by
  intro other held holds
  rw [@claimAt_enter { pool with factory := factory } _ _ _ there] at holds
  by_cases same : other = index
  · rw [same, Function.update_self] at holds
    exact claim held holds
  · rw [Function.update_of_ne same] at holds
    exact kept held.snapshot (sees other held holds)

/-- The jobs that loops work on stay seen, and a granted claim is seen when it is granted. -/
theorem SeesClaims.step {system : WorkerSystem Database} (sees : SeesClaims worker pool)
    (tracked : pool.TrackedBy system)
    (invariant : WorkerSystem.Invariant SqliteJobStore.lawful system) {input : PoolInput}
    (allowed : pool.Allowed input)
    : SeesClaims worker (pool.step worker input).2 := by
  have grows := tracked.grows_step invariant worker allowed
  have move := step_poolStep worker pool input
  generalize (pool.step worker input).1 = entries at move
  generalize (pool.step worker input).2 = after at move grows ⊢
  have kept (job : JobRecord) (seen : worker.Sees pool.factory job)
      : worker.Sees after.factory job :=
    grows.sees seen (.refl job)
  cases move with
  | advanced | stopping | idle => exact sees
  | requested reading adds =>
      exact fun index held holds => kept held.snapshot (sees index held holds)
  | @moved _ _ index _ _ there claim =>
      refine sees.enter there kept ?_
      intro held holds
      rcases claim with none | same
      · cases none.symm.trans holds
      · exact sees index held ((claimAt_of there).trans (same.symm.trans holds))
  | @executed index _ execution _ _ there =>
      have before := sees index ⟨execution.job, execution.leaseExpiresAt, false⟩
        (claimAt_of there)
      refine @SeesClaims.enter _ _ sees pool.factory _ _ _ there kept ?_
      intro held holds
      cases holds
      exact before
  | claimMissed there =>
      refine sees.enter there kept ?_
      intro held holds
      cases holds
  | claimed there authorized added answered =>
      refine sees.enter there kept ?_
      intro held holds
      cases holds
      exact (tracked.claimed_sees invariant answered).1
  | @renewalMissed index _ _ _ _ _ _ _ there =>
      refine sees.enter there kept ?_
      intro held holds
      cases holds
      exact kept _ (sees index _ (claimAt_of there))
  | @renewed index _ execution _ _ _ there =>
      have before := sees index ⟨execution.job, execution.leaseExpiresAt, false⟩
        (claimAt_of there)
      refine sees.enter there kept ?_
      intro held holds
      cases holds
      exact kept execution.job before
  | @issued index execution _ there _ =>
      have before := sees index ⟨execution.job, execution.leaseExpiresAt, false⟩
        (claimAt_of there)
      refine @SeesClaims.enter _ _ sees pool.factory _ _ _ there kept ?_
      intro held holds
      cases holds
      exact before
  | completed there =>
      refine sees.enter there kept ?_
      intro held holds
      cases holds

/-- What a step logs about a job it logs about a stored job that the worker sees. -/
theorem SeesClaims.events_step {system : WorkerSystem Database}
    (sees : SeesClaims worker pool) (tracked : pool.TrackedBy system)
    (invariant : WorkerSystem.Invariant SqliteJobStore.lawful system) {input : PoolInput}
    (allowed : pool.Allowed input) {id : Guid}
    (logged : eventsOf id (pool.step worker input).1 ≠ [])
    : ∃ job,
        (pool.step worker input).2.factory.database.ledger.find? id = some job
        ∧ worker.Sees (pool.step worker input).2.factory job := by
  have grows := tracked.grows_step invariant worker allowed
  have move := step_poolStep worker pool input
  generalize (pool.step worker input).1 = entries at move logged
  generalize (pool.step worker input).2 = after at move grows ⊢
  cases move with
  | advanced | stopping | requested | renewed | issued => exact absurd rfl logged
  | idle _ quiet | moved _ _ _ _ _ _ _ quiet | executed _ _ _ quiet =>
      exact absurd (eventsOf_quiet quiet id) logged
  | claimMissed _ _ _ _ _ quiet => exact absurd (eventsOf_quiet quiet id) logged
  | renewalMissed _ _ _ _ _ _ quiet => exact absurd (eventsOf_quiet quiet id) logged
  | @claimed _ _ _ _ job next there authorized added answered =>
      have same : job.id = id := by
        by_contra other
        apply logged
        rw [eventsOf, List.flatMap_singleton]
        exact if_neg other
      obtain ⟨seen, stored⟩ := tracked.claimed_sees invariant answered
      exact ⟨job, same ▸ stored, seen⟩
  | @completed index _ job _ _ _ _ _ _ next there authorized issued answered reports =>
      have same : job.id = id := by
        by_contra other
        apply logged
        rw [eventsOf_completed reports]
        exact if_neg (fun both => other both.2)
      obtain ⟨entry, backs⟩ := tracked.backed
      obtain ⟨caller, claimed⟩ := invariant.granted _ _ (backs.listed index _ (claimAt_of there))
      obtain ⟨-, found, stored, terms, -⟩ := claimed.stored
      change system.store.ledger.find? job.id = some found at stored
      rw [tracked.store] at stored
      obtain ⟨later, last, sameTerms, -⟩ := grows.ledger _ _ stored
      exact ⟨later, same ▸ last,
        grows.sees (sees index _ (claimAt_of there)) (terms.trans sameTerms)⟩

/-- Every loop of a process sees the job it works on, by induction on what happened to the
process: one that starts works on none.
-/
theorem Lives.seesClaims (lives : Lives worker pool) : SeesClaims worker pool := by
  have idle (options : JobWorkerOptions) (factory : DbContextFactory) (clock : DateTimeOffset)
      : SeesClaims worker (start options factory clock) := by
    intro index held holds
    obtain ⟨phase, there, claims⟩ := Option.bind_eq_some_iff.mp holds
    rw [List.eq_of_mem_replicate (List.mem_of_getElem? there)] at claims
    cases claims
  induction lives with
  | first options clock => exact idle options _ clock
  | restart options => exact idle options _ _
  | step lives allowed ih =>
      obtain ⟨system, invariant, tracked⟩ := lives.tracked
      exact ih.step tracked invariant allowed

/-- A run makes the pool grow, by induction on its steps. -/
theorem Lives.grows_run {inputs : List PoolInput} (lives : Lives worker pool)
    (allowed : (machine worker).AlongSteps WorkerPool.Allowed pool inputs)
    : pool.Grows ((machine worker).run pool inputs).2 := by
  induction inputs generalizing pool with
  | nil => exact .refl pool
  | cons input rest ih =>
      obtain ⟨system, invariant, tracked⟩ := lives.tracked
      exact (tracked.grows_step invariant worker allowed.1).trans
        (ih (lives.step allowed.1) allowed.2)

/-- A pool works only on jobs that its worker sees under the model the process has built: on
the others it logs no run and no outcome, in whatever run. The induction is on the steps; what
is logged about a job is logged about one seen then, and it would still be seen in the end.
-/
theorem unseen_jobs_untouched {inputs : List PoolInput} (lives : Lives worker pool)
    (allowed : (machine worker).AlongSteps WorkerPool.Allowed pool inputs) {id : Guid}
    {job : JobRecord}
    (stored
      : ((machine worker).run pool inputs).2.factory.database.ledger.find? id = some job)
    (unseen : ¬ worker.Sees ((machine worker).run pool inputs).2.factory job)
    : eventsOf id (pool.log worker inputs) = [] := by
  induction inputs generalizing pool with
  | nil => rfl
  | cons input rest ih =>
      have next := lives.step allowed.1
      obtain ⟨system, invariant, tracked⟩ := lives.tracked
      have later := ih next allowed.2 stored unseen
      have now : eventsOf id (pool.step worker input).1 = [] := by
        by_contra logged
        obtain ⟨before, found, seen⟩ :=
          lives.seesClaims.events_step tracked invariant allowed.1 logged
        have grows := next.grows_run allowed.2
        obtain ⟨after, last, terms, -⟩ := grows.ledger id before found
        cases Option.some.inj (stored.symm.trans last)
        exact unseen (grows.sees seen terms)
      exact List.flatMap_append.trans (congrArg₂ List.append now later)

end WorkerPool

/-- The owner of an email lists jobs before any worker has claimed one, then enqueues it. -/
def hiddenEmail : List PoolInput :=
  .request (emailActor "tenant-a" tenantA_present) (smallAmbient 0) .listJobs rfl
  :: abandonedEmail

/-- The worker service, which may only execute jobs, never claims the email: the listing has
built the model for reading.
-/
theorem unseen_jobs_untouched_hidden
    : ((WorkerPool.machine emailWorker).run (.start ⟨2, 60⟩ ⟨none, .empty⟩ (.ofTicks 0))
            hiddenEmail).2.factory.database.ledger.find? ⟨1000⟩
        = some (emailJob "tenant-a")
      ∧ (emailJob "tenant-a").isDue (.ofTicks 1) = true
      ∧ eventsOf ⟨1000⟩
          (WorkerPool.log emailWorker (.start ⟨2, 60⟩ ⟨none, .empty⟩ (.ofTicks 0)) hiddenEmail)
        = [] := by
  have stored
      : ((WorkerPool.machine emailWorker).run (.start ⟨2, 60⟩ ⟨none, .empty⟩ (.ofTicks 0))
            hiddenEmail).2.factory.database.ledger.find? ⟨1000⟩
          = some (emailJob "tenant-a") := by
    decide +kernel
  refine ⟨stored, by decide, ?_⟩
  exact @WorkerPool.unseen_jobs_untouched emailWorker _ hiddenEmail
    (.first ⟨2, 60⟩ (.ofTicks 0)) (by decide +kernel) _ _ stored (by decide +kernel)

end JobScheduler
