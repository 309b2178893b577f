import JobScheduler.Actions.EnqueuedJobs
import JobScheduler.Workers.PoolReach

/-! Whose names a store holds. A job names its tenant, the actor it was enqueued by, a worker
that claimed it and the actor that acknowledged it. Each of these names was given by someone
who was allowed to act under it.
-/

namespace JobScheduler

open Library

/-- A request of a client, with the actor it came from and what was drawn while it was handled. -/
structure HeardRequest where
  actor : JobActor
  ambient : Ambient
  request : JobActionRequest

/-- The request that a step of the process handles. -/
def PoolInput.heard : PoolInput → List HeardRequest
  | .request actor ambient action _ => [⟨actor, ambient, action⟩]
  | _ => []

namespace HeardRequest

/-- The request enqueued the job, for its own actor. -/
structure Enqueued (heard : HeardRequest) (job : JobRecord) : Prop where
  asked : ∃ body, heard.request = .enqueueJob body ∧ body.type = job.type
  permitted : heard.actor.hasPermission JobPermissions.emailEnqueue = true
  id : job.id = heard.ambient.newGuid
  tenantId : job.tenantId = heard.actor.tenantId
  createdByActorId : job.createdByActorId = heard.actor.id
  enqueuedAt : job.enqueuedAt = .ok heard.ambient.utcNow

/-- The request acknowledged the job, which its actor reaches. -/
structure Acknowledged (heard : HeardRequest) (job : JobRecord) : Prop where
  asked : heard.request = .acknowledgeJob job.id
  permitted : heard.actor.hasPermission JobPermissions.emailManage = true
  reaches
    : job.tenantId = trim heard.actor.tenantId
      ∨ heard.actor.hasPermission JobPermissions.globalRead = true
  acknowledgedBy : job.acknowledgedBy = some (trim heard.actor.id)
  acknowledgedAt : job.acknowledgedAt = some heard.ambient.utcNow

variable {heard : HeardRequest} {job changed : JobRecord}

/-- What continues a job was enqueued by the same request. -/
theorem Enqueued.later (enqueued : heard.Enqueued job) (later : job.Continues changed)
    : heard.Enqueued changed := by
  obtain ⟨body, asked, type⟩ := enqueued.asked
  refine ⟨⟨body, asked, type.trans later.type.symm⟩, enqueued.permitted,
    later.id.trans enqueued.id, later.tenantId.trans enqueued.tenantId,
    later.createdByActorId.trans enqueued.createdByActorId, ?_⟩
  have begins := enqueued.enqueuedAt
  obtain ⟨added, history⟩ := later.history
  cases before : job.history with
  | nil =>
      rw [JobRecord.enqueuedAt, before] at begins
      cases begins
  | cons first rest =>
      rw [JobRecord.enqueuedAt, before] at begins
      rw [JobRecord.enqueuedAt, ← history, before]
      exact begins

end HeardRequest

/-- Every name in the record is accounted for by a request, or is that of a loop. -/
structure JobRecord.AccountedFor (requests : List HeardRequest) (job : JobRecord) : Prop where
  enqueued : ∃ heard ∈ requests, heard.Enqueued job
  claimed : job.claimedBy = none ∨ ∃ index, job.claimedBy = some (WorkerPool.workerId index)
  acknowledged
    : job.acknowledgedBy = none ∧ job.acknowledgedAt = none
      ∨ ∃ heard ∈ requests, heard.Acknowledged job

/-- More requests account for the same names. -/
theorem JobRecord.AccountedFor.more {requests more : List HeardRequest} {job : JobRecord}
    (accounted : job.AccountedFor requests) (contained : requests ⊆ more)
    : job.AccountedFor more := by
  obtain ⟨heard, member, enqueued⟩ := accounted.enqueued
  refine ⟨⟨heard, contained member, enqueued⟩, accounted.claimed, ?_⟩
  rcases accounted.acknowledged with none | ⟨heard, member, acknowledged⟩
  · exact Or.inl none
  · exact Or.inr ⟨heard, contained member, acknowledged⟩

-----------------------------------------------------------------------------------------
-- Names that steps of records write
-----------------------------------------------------------------------------------------

section Records

variable {nextDue : DateTimeOffset → Option JobRecord} {ambient : Ambient} {call : StoreCall}
  {job changed : JobRecord}

theorem JobRecord.NewlyMade.unacknowledged (new : job.NewlyMade)
    : job.acknowledgedBy = none ∧ job.acknowledgedAt = none := by
  cases new with
  | enqueued made =>
      obtain ⟨-, rfl⟩ := JobRecord.enqueue_ok made
      exact ⟨rfl, rfl⟩
  | scheduled made =>
      obtain ⟨-, rfl⟩ := JobRecord.schedule_ok made
      exact ⟨rfl, rfl⟩

/-- Only a claim writes the name of a worker, its own. -/
theorem RecordStep.claimedBy (step : RecordStep nextDue ambient call job changed)
    : changed.claimedBy = none
      ∨ changed.claimedBy = job.claimedBy
      ∨ ∃ now workerId leaseExpiresAt,
          call = .tryClaimNextDueJob now workerId leaseExpiresAt
          ∧ changed.claimedBy = some workerId := by
  cases step with
  | @claimed now workerId leaseExpiresAt =>
      obtain ⟨last, -, -, record⟩ := job.claimedUnder_eq ambient now workerId leaseExpiresAt
      rw [record]
      exact Or.inr (Or.inr ⟨now, workerId, leaseExpiresAt, rfl, rfl⟩)
  | renewed | acknowledged => exact Or.inr (Or.inl rfl)
  | completed | failed | retried => exact Or.inl rfl

/-- Only an acknowledgement writes who acknowledged a job, and when. -/
theorem RecordStep.acknowledgement (step : RecordStep nextDue ambient call job changed)
    : (changed.acknowledgedBy = job.acknowledgedBy
        ∧ changed.acknowledgedAt = job.acknowledgedAt)
      ∨ ∃ acknowledgedBy acknowledgedAt,
          call = .acknowledge job.id acknowledgedBy acknowledgedAt
          ∧ changed.acknowledgedBy = some (trim acknowledgedBy)
          ∧ changed.acknowledgedAt = some acknowledgedAt := by
  cases step with
  | @claimed now workerId leaseExpiresAt =>
      obtain ⟨last, -, -, record⟩ := job.claimedUnder_eq ambient now workerId leaseExpiresAt
      rw [record]
      exact Or.inl ⟨rfl, rfl⟩
  | renewed | completed | failed | retried => exact Or.inl ⟨rfl, rfl⟩
  | acknowledged => exact Or.inr ⟨_, _, rfl, rfl, rfl⟩

end Records

-----------------------------------------------------------------------------------------
-- Names that calls of the store bring
-----------------------------------------------------------------------------------------

/-- A call that is made for a request, in a context. -/
inductive HeardRequest.Asks (heard : HeardRequest) : DataAccessPolicyContext → StoreCall → Prop
  | lists (context : DataAccessPolicyContext) : Asks heard context .list
  | gets (context : DataAccessPolicyContext) (id : Guid) : Asks heard context (.get id)
  | adds {context : DataAccessPolicyContext} {job : JobRecord} (enqueued : heard.Enqueued job)
    : Asks heard context (.add job)
  | acknowledges {context : DataAccessPolicyContext} {id : Guid}
    (asked : heard.request = .acknowledgeJob id)
    (permitted : heard.actor.hasPermission JobPermissions.emailManage = true)
    (reaches
      : context.includesAllTenants = false
          ∧ context.currentTenantId = some (trim heard.actor.tenantId)
        ∨ heard.actor.hasPermission JobPermissions.globalRead = true)
    : Asks heard context (.acknowledge id heard.actor.id heard.ambient.utcNow)

/-- A job that a request acknowledges is one that its actor reaches. -/
theorem JobSchedulerModel.reaches_of_visible {model : JobSchedulerModel}
    {context : DataAccessPolicyContext} {job : JobRecord} {tenantId : String}
    (within : context.includesAllTenants = false ∧ context.currentTenantId = some tenantId)
    (seen : SqliteJobStore.visible (model.filterIn context) job = true)
    : job.tenantId = tenantId := by
  rw [SqliteJobStore.visible, filterIn_admits, within.1, within.2, Bool.false_or,
    Bool.and_eq_true, decide_eq_true_eq] at seen
  exact Option.some.inj seen.1

/-- A record that a step changes stays accounted for, with the request of the step. -/
theorem RecordStep.accountedFor {model : JobSchedulerModel} {context : DataAccessPolicyContext}
    {nextDue : DateTimeOffset → Option JobRecord} {ambient : Ambient} {call : StoreCall}
    {job changed : JobRecord} (step : RecordStep nextDue ambient call job changed)
    (inOrder : job.Numbered)
    (seen : SqliteJobStore.visible (model.filterIn context) job = true)
    {requests heard : List HeardRequest}
    (asks : call.FromLoop ∨ ∃ request ∈ heard, request.Asks context call)
    (before : job.AccountedFor requests)
    : changed.AccountedFor (requests ++ heard) := by
  have continues := step.continues inOrder
  obtain ⟨first, made, enqueued⟩ := before.enqueued
  refine ⟨⟨first, List.mem_append_left _ made, enqueued.later continues⟩, ?_, ?_⟩
  · rcases step.claimedBy with none | same | ⟨now, workerId, leaseExpiresAt, rfl, claimed⟩
    · exact Or.inl none
    · rw [same]
      exact before.claimed
    · rcases asks with fromLoop | ⟨request, -, asked⟩
      · cases fromLoop with
        | claims index => exact Or.inr ⟨index, claimed⟩
        | carries carried => cases carried
      · cases asked
  · rcases step.acknowledgement with ⟨sameBy, sameAt⟩ | ⟨by', at', rfl, named, dated⟩
    · rcases before.acknowledged with none | ⟨request, member, acknowledged⟩
      · exact Or.inl ⟨sameBy.trans none.1, sameAt.trans none.2⟩
      · exact Or.inr ⟨request, List.mem_append_left _ member, continues.id ▸ acknowledged.asked,
          acknowledged.permitted, continues.tenantId ▸ acknowledged.reaches,
          sameBy.trans acknowledged.acknowledgedBy, sameAt.trans acknowledged.acknowledgedAt⟩
    · rcases asks with fromLoop | ⟨request, member, asked⟩
      · cases fromLoop with
        | carries carried => cases carried
      · cases asked with
        | acknowledges asked permitted reaches =>
            refine Or.inr ⟨request, List.mem_append_right _ member, continues.id ▸ asked,
              permitted, ?_, named, dated⟩
            rw [continues.tenantId]
            exact reaches.imp_left (fun within =>
              JobSchedulerModel.reaches_of_visible within seen)

/-- What a call that is accounted for does to records that are. -/
theorem LedgerStep.accountedFor {model : JobSchedulerModel} {context : DataAccessPolicyContext}
    {nextDue : DateTimeOffset → Option JobRecord} {ambient : Ambient} {ledger next : Ledger}
    {call : StoreCall} {answer : StoreAnswer}
    (step
      : LedgerStep (SqliteJobStore.visible (model.filterIn context)) nextDue ambient ledger call
          answer next)
    (inOrder : ∀ job ∈ ledger.rows, job.Numbered) {requests heard : List HeardRequest}
    (asks : call.FromLoop ∨ ∃ request ∈ heard, request.Asks context call)
    (before : ∀ job ∈ ledger.rows, job.AccountedFor requests)
    : ∀ job ∈ next.rows, job.AccountedFor (requests ++ heard) := by
  have kept (job : JobRecord) (accounted : job.AccountedFor requests)
      : job.AccountedFor (requests ++ heard) :=
    accounted.more (List.subset_append_left _ _)
  rcases step.effect with rfl | ⟨added, rfl, new, rfl⟩ | ⟨job, changed, one, stored, seen, rfl⟩
  · exact fun job member => kept job (before job member)
  · intro job member
    rcases KeyedTable.mem_set.mp member with rfl | ⟨old, -⟩
    · rcases asks with fromLoop | ⟨request, made, asked⟩
      · cases fromLoop with
        | carries carried => cases carried
      · cases asked with
        | adds enqueued =>
            obtain ⟨_, _, _, -, -, unclaimed, -⟩ := new.cases
            exact ⟨⟨request, List.mem_append_right _ made, enqueued⟩, Or.inl unclaimed,
              Or.inl new.unacknowledged⟩
    · exact kept job (before job old)
  · intro other member
    have here := KeyedTable.find?_mem stored
    rcases KeyedTable.mem_set.mp member with rfl | ⟨old, -⟩
    · exact one.accountedFor (inOrder job here) seen asks (before job here)
    · exact kept other (before other old)

-----------------------------------------------------------------------------------------
-- Requests
-----------------------------------------------------------------------------------------

namespace HeardRequest

variable {heard : HeardRequest}

/-- The actor a request is handled as. -/
theorem acting (heard : HeardRequest)
    : DataAccessScopeProvider.currentActor heard.actor .unset = heard.actor :=
  rfl

/-- The record of a valid request shows who asked for it. -/
theorem enqueued_of_built {body : EnqueueJobActionRequest} {payload : JsonElement}
    {retryPolicy : JobRetryPolicy} {delaySeconds : Int} {job : JobRecord}
    (asked : heard.request = .enqueueJob body)
    (permitted : heard.actor.hasPermission JobPermissions.emailEnqueue = true)
    (built
      : EnqueueJobAction.jobFor heard.ambient body.type payload retryPolicy delaySeconds
            heard.actor
          = .ok job)
    : heard.Enqueued job := by
  obtain ⟨id, tenantId, createdByActorId, -⟩ := EnqueueJobAction.jobFor_eq built
  have type := (EnqueueJobAction.jobFor_asks built).1
  refine ⟨⟨body, asked, type.symm⟩, permitted, id, tenantId, createdByActorId, ?_⟩
  rcases EnqueueJobAction.jobFor_cases built with ⟨_, -, -, made⟩ | made
  · obtain ⟨-, rfl⟩ := JobRecord.schedule_ok made
    rfl
  · obtain ⟨-, rfl⟩ := JobRecord.enqueue_ok made
    rfl

/-- An acknowledgement is refused, or made in a context that its actor reaches. -/
theorem acknowledge_asks {id : Guid} (asked : heard.request = .acknowledgeJob id)
    (factory : DbContextFactory)
    : (acknowledgeJobAction.execute DbContextFactory.store heard.actor .unset heard.ambient id
            factory).2
          = factory
      ∨ ∃ context call,
          heard.Asks context call
          ∧ call.isAdd = false
          ∧ (acknowledgeJobAction.execute DbContextFactory.store heard.actor .unset heard.ambient
                id factory).2
            = ((DbContextFactory.store context).call heard.ambient call factory).2 := by
  have requires : JobAuthorizedAction.Requires
      (acknowledgeJobAction : JobAuthorizedAction DbContextFactory _ _)
      JobPermissions.emailManage := fun _ => rfl
  cases permitted : heard.actor.hasPermission JobPermissions.emailManage with
  | false =>
      rw [JobAuthorizedAction.execute_denied requires heard.acting permitted heard.ambient id
        factory]
      exact Or.inl rfl
  | true =>
      refine Or.inr ?_
      cases everywhere : heard.actor.hasPermission JobPermissions.globalRead with
      | false =>
          rw [JobAuthorizedAction.execute_oneTenant requires heard.acting permitted
            (globalReadScope_eq everywhere) rfl]
          exact ⟨_, _, .acknowledges asked permitted (Or.inl ⟨rfl, rfl⟩), rfl, rfl⟩
      | true =>
          have crosses : DataAccessScopeProvider.canUseCrossTenantScope heard.actor .mutate
              = true := by
            simp [DataAccessScopeProvider.canUseCrossTenantScope, everywhere]
          rw [JobAuthorizedAction.execute_allTenants requires heard.acting permitted
            (if_pos everywhere) crosses (by decide +kernel) factory]
          exact ⟨_, _, .acknowledges asked permitted (Or.inr everywhere), rfl, rfl⟩

/-- An enqueue request is refused, or adds the record of its own actor. -/
theorem enqueue_asks {definitions : IJobDefinitionRegistry} {body : EnqueueJobActionRequest}
    (asked : heard.request = .enqueueJob body) (factory : DbContextFactory)
    : ((enqueueJobAction definitions).execute DbContextFactory.store heard.actor .unset
            heard.ambient body factory).2
          = factory
      ∨ ∃ context job,
          heard.Enqueued job
          ∧ (StoreCall.add job).AddsRequested definitions heard.ambient
          ∧ ((enqueueJobAction definitions).execute DbContextFactory.store heard.actor .unset
                heard.ambient body factory).2
            = ((DbContextFactory.store context).call heard.ambient (.add job) factory).2 := by
  cases permitted : heard.actor.hasPermission JobPermissions.emailEnqueue with
  | false =>
      have requires : JobAuthorizedAction.Requires
          (enqueueJobAction definitions : JobAuthorizedAction DbContextFactory _ _)
          JobPermissions.emailEnqueue := fun _ => rfl
      rw [JobAuthorizedAction.execute_denied requires heard.acting permitted heard.ambient body
        factory]
      exact Or.inl rfl
  | true =>
      rcases EnqueueJobAction.execute_cases definitions heard.acting heard.ambient body factory
        with ⟨outcome, -, runs⟩ | ⟨payload, retryPolicy, delaySeconds, job, valid, built, runs⟩
      · exact Or.inl (congrArg Prod.snd runs)
      · refine Or.inr ⟨_, job, enqueued_of_built asked permitted built, ?_,
          congrArg Prod.snd runs⟩
        intro other same
        cases same
        exact ⟨body, payload, retryPolicy, delaySeconds, heard.actor, valid, built⟩

/-- What a client's request does to the store is one call in the name of its actor, or nothing. -/
theorem dispatch_asks {definitions : IJobDefinitionRegistry}
    (client : heard.request.fromClient = true) (factory : DbContextFactory)
    : (dispatch definitions heard.actor .unset heard.ambient heard.request factory).2 = factory
      ∨ ∃ context call,
          heard.Asks context call
          ∧ call.AddsRequested definitions heard.ambient
          ∧ (dispatch definitions heard.actor .unset heard.ambient heard.request factory).2
            = ((DbContextFactory.store context).call heard.ambient call factory).2 := by
  cases asked : heard.request with
  | listJobs =>
      simp only [dispatch, StoreMethod.map_snd]
      rcases listJobsAction.execute_cases DbContextFactory.store heard.actor .unset heard.ambient
        () factory with same | ⟨context, runs⟩
      · exact Or.inl same
      · refine Or.inr ⟨context, .list, .lists context, .ofOther rfl, ?_⟩
        rw [runs, listJobsAction_effect]
  | getJobById id =>
      simp only [dispatch, StoreMethod.map_snd]
      rcases getJobByIdAction.execute_cases DbContextFactory.store heard.actor .unset
        heard.ambient id factory with same | ⟨context, runs⟩
      · exact Or.inl same
      · refine Or.inr ⟨context, .get id, .gets context id, .ofOther rfl, ?_⟩
        rw [runs, getJobByIdAction_effect]
  | acknowledgeJob id =>
      simp only [dispatch, StoreMethod.map_snd]
      rcases acknowledge_asks asked factory with same | ⟨context, call, asks, other, runs⟩
      · exact Or.inl same
      · exact Or.inr ⟨context, call, asks, .ofOther other, runs⟩
  | enqueueJob body =>
      simp only [dispatch, StoreMethod.map_snd]
      rcases enqueue_asks asked factory with same | ⟨context, job, enqueued, adds, runs⟩
      · exact Or.inl same
      · exact Or.inr ⟨context, .add job, .adds enqueued, adds, runs⟩
  | claimNextDueJob request | renewJobLease request | completeJobExecution request =>
      rw [asked] at client
      cases client

end HeardRequest

-----------------------------------------------------------------------------------------
-- The names in a pool
-----------------------------------------------------------------------------------------

namespace WorkerPool

variable {worker : QueuedJobWorker} {pool : WorkerPool} {system : WorkerSystem Database}

/-- The lives of the program that `Lives` describes, with the requests it handled in them. -/
inductive Heard (worker : QueuedJobWorker) : WorkerPool → List HeardRequest → Prop
  | first (options : JobWorkerOptions) (clock : DateTimeOffset)
    : Heard worker (start options ⟨none, .empty⟩ clock) []
  | step {pool : WorkerPool} {requests : List HeardRequest} {input : PoolInput}
    (before : Heard worker pool requests) (allowed : pool.Allowed input)
    : Heard worker (pool.step worker input).2 (requests ++ input.heard)
  | restart {pool : WorkerPool} {requests : List HeardRequest} (options : JobWorkerOptions)
    (before : Heard worker pool requests)
    : Heard worker (start options ⟨none, pool.factory.database⟩ pool.clock) requests

variable {requests : List HeardRequest}

theorem Heard.lives (hears : Heard worker pool requests) : Lives worker pool := by
  induction hears with
  | first options clock => exact .first options clock
  | step before allowed ih => exact ih.step allowed
  | restart options before ih => exact ih.restart options

/-- A run of allowed steps handles the requests among its inputs, by induction on these. -/
theorem Heard.run {inputs : List PoolInput} (hears : Heard worker pool requests)
    (allowed : (machine worker).AlongSteps WorkerPool.Allowed pool inputs)
    : Heard worker ((machine worker).run pool inputs).2
        (requests ++ inputs.flatMap PoolInput.heard) := by
  induction inputs generalizing pool requests with
  | nil =>
      rw [List.flatMap_nil, List.append_nil]
      exact hears
  | cons input rest ih =>
      rw [List.flatMap_cons, ← List.append_assoc]
      exact ih (hears.step allowed.1) allowed.2

/-- A call leaves all jobs accounted for, if the call is. -/
theorem TrackedBy.accountedFor (tracked : pool.TrackedBy system)
    (invariant : WorkerSystem.Invariant SqliteJobStore.lawful system)
    {context : DataAccessPolicyContext} {ambient : Ambient} {call : StoreCall}
    {answer : StoreAnswer} {next : DbContextFactory} (admissible : call.Admissible)
    (answered
      : (DbContextFactory.store context).call ambient call pool.factory = (answer, next))
    {heard : List HeardRequest}
    (asks : call.FromLoop ∨ ∃ request ∈ heard, request.Asks context call)
    (before : ∀ job ∈ pool.factory.database.ledger.rows, job.AccountedFor requests)
    : ∀ job ∈ next.database.ledger.rows, job.AccountedFor (requests ++ heard) := by
  obtain ⟨model, known, -⟩ := DbContextFactory.modelFor_eq context pool.factory
  rw [DbContextFactory.call_eq context known] at answered
  cases answered
  have step := SqliteJobStore.lawful.follows (model.filterIn context) ambient call system.store
    invariant.reached.reachable.sound admissible
  change LedgerStep _ _ ambient system.store.ledger call
    ((SqliteJobStore.methods (model.filterIn context)).call ambient call system.store).1
    ((SqliteJobStore.methods (model.filterIn context)).call ambient call system.store).2.ledger
    at step
  rw [tracked.store] at step
  refine step.accountedFor ?_ asks before
  intro job member
  rw [← tracked.store] at member
  exact (invariant.reached.coherenceInvariant job member).inOrder

/-- No name in the store is made up, whatever the loops, the clients and restarts do. Every job
was enqueued by a request of the actor and the tenant it names, who was allowed to; whoever is
said to have acknowledged it did so by a request, managing emails in the tenant of the job or
reading in all of them; and who is said to have claimed it is a loop of a pool.
-/
theorem names_accounted (hears : Heard worker pool requests)
    : ∀ job ∈ pool.factory.database.ledger.rows, job.AccountedFor requests := by
  induction hears with
  | first options clock => exact fun job member => absurd member List.not_mem_nil
  | restart options before ih => exact ih
  | @step pool requests input before allowed ih =>
      obtain ⟨system, invariant, tracked⟩ := before.lives.tracked
      have same (unchanged : (pool.step worker input).2.factory = pool.factory)
          : ∀ job ∈ (pool.step worker input).2.factory.database.ledger.rows,
              job.AccountedFor (requests ++ input.heard) := by
        rw [unchanged]
        exact fun job member => (ih job member).more (List.subset_append_left _ _)
      have move := step_poolStep worker pool input
      cases input with
      | request actor ambient request client =>
          rcases @HeardRequest.dispatch_asks ⟨actor, ambient, request⟩ worker.definitions client
            pool.factory with unchanged | ⟨context, call, asks, adds, runs⟩
          · exact same unchanged
          · change ∀ job ∈ (dispatch worker.definitions actor .unset ambient request
              pool.factory).2.database.ledger.rows, _
            rw [runs]
            exact tracked.accountedFor invariant adds.admissible rfl
              (Or.inr ⟨_, List.mem_singleton.mpr rfl, asks⟩) ih
      | advance | stop | poll | claim | endDelay | renew | cancelRenewal | cancelWork | execute
      | leave | complete =>
          rcases move.call_cases with
            unchanged | ⟨_, _, _, _, _, _, silent, -⟩
              | ⟨context, ambient, call, answer, fromLoop, answered⟩
          · exact same unchanged
          · cases silent
          · exact tracked.accountedFor invariant fromLoop.admissible answered (Or.inl fromLoop) ih

end WorkerPool

/-- The email is claimed, and a manager of its tenant acknowledges it. -/
def acknowledgedEmail : List PoolInput :=
  abandonedEmail ++ [.request smallManager (smallAmbient 5) (.acknowledgeJob ⟨1000⟩) rfl]

def acknowledgedEmailProcess : WorkerPool :=
  ((WorkerPool.machine emailWorker).run (.start ⟨2, 60⟩ ⟨none, .empty⟩ (.ofTicks 0))
    acknowledgedEmail).2

/-- All names of its record are accounted for. -/
theorem names_accounted_acknowledged
    : acknowledgedEmailProcess.factory.database.ledger.rows.map
          (fun job => (job.createdByActorId, job.claimedBy, job.acknowledgedBy))
        = [("erin", some "worker-1", some "dave")]
      ∧ ∀ job ∈ acknowledgedEmailProcess.factory.database.ledger.rows,
          job.AccountedFor (acknowledgedEmail.flatMap PoolInput.heard) := by
  have hears : WorkerPool.Heard emailWorker acknowledgedEmailProcess
      (acknowledgedEmail.flatMap PoolInput.heard) :=
    (WorkerPool.Heard.first ⟨2, 60⟩ (.ofTicks 0)).run (by decide +kernel)
  exact ⟨by decide +kernel, WorkerPool.names_accounted hears⟩

end JobScheduler
