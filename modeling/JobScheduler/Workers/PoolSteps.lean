import JobScheduler.Tenancy.OwnJobs
import JobScheduler.Workers.JobWorkerPool
import JobScheduler.Workers.WorkerSystem

/-! What the steps of a worker pool can do. The worker actions run in the scope of all
tenants, if they are authorized at all; each of them makes one call of the store.
-/

namespace JobScheduler

open Library JobLifecycleService

/-- The context of the worker actions. -/
def QueuedJobWorker.context (worker : QueuedJobWorker) : DataAccessPolicyContext :=
  ⟨worker.workerActor, .allTenants, .mutate⟩

/-- The worker actor may execute jobs. -/
def QueuedJobWorker.Authorized (worker : QueuedJobWorker) : Prop :=
  worker.workerActor.hasPermission JobPermissions.execute = true

instance (worker : QueuedJobWorker) : Decidable worker.Authorized :=
  inferInstanceAs (Decidable (_ = true))

section Actions

variable {worker : QueuedJobWorker}

/-- An authorized worker action runs in the context of the workers. -/
theorem JobAuthorizedAction.execute_authorized {Request Response : Type}
    {action : JobAuthorizedAction DbContextFactory Request Response}
    (requires : action.Requires JobPermissions.execute) {request : Request}
    (built : action.buildDataAccessScope request worker.workerActor = .ok .allTenants)
    (mutates : action.dataAccessOperation = .mutate)
    (reason : isNullOrWhiteSpace (action.name ++ " requested cross-tenant scope.") = false)
    (authorized : worker.Authorized) (ambient : Ambient) (factory : DbContextFactory)
    : action.execute DbContextFactory.store worker.provided worker.scopes ambient request
          factory
      = action.executeAuthorized (DbContextFactory.store worker.context) ambient request
          worker.workerActor factory := by
  have acting : DataAccessScopeProvider.currentActor worker.provided worker.scopes
      = worker.workerActor := rfl
  have crosses : DataAccessScopeProvider.canUseCrossTenantScope worker.workerActor
      action.dataAccessOperation = true := by
    have granted : worker.workerActor.hasPermission JobPermissions.execute = true :=
      authorized
    simp [DataAccessScopeProvider.canUseCrossTenantScope, mutates, granted]
  rw [QueuedJobWorker.context, ← mutates]
  exact execute_allTenants requires acting authorized built crosses reason factory

/-- A worker action of an actor that may not execute jobs is denied. -/
theorem JobAuthorizedAction.execute_unauthorized {Request Response : Type}
    {action : JobAuthorizedAction DbContextFactory Request Response}
    (requires : action.Requires JobPermissions.execute) (denied : ¬ worker.Authorized)
    (ambient : Ambient) (request : Request) (factory : DbContextFactory)
    : action.execute DbContextFactory.store worker.provided worker.scopes ambient request
          factory
      = (.ok (action.onAuthorizationDenied (.deny none)), factory) := by
  have acting : DataAccessScopeProvider.currentActor worker.provided worker.scopes
      = worker.workerActor := rfl
  exact execute_denied requires acting (Bool.eq_false_iff.mpr denied) ambient request factory

/-- A client action leaves the state, or makes its calls through some context. -/
theorem JobAuthorizedAction.execute_cases {State Request Response : Type}
    (action : JobAuthorizedAction State Request Response)
    (storeIn : DataAccessPolicyContext → IJobStore State) (provided : JobActor)
    (scopes : DataAccessScopes) (ambient : Ambient) (request : Request) (state : State)
    : (action.execute storeIn provided scopes ambient request state).2 = state
      ∨ ∃ context,
          action.execute storeIn provided scopes ambient request state
          = action.executeAuthorized (storeIn context) ambient request
              (DataAccessScopeProvider.currentActor provided scopes) state := by
  unfold execute
  simp only
  split
  · exact Or.inl rfl
  · split
    · exact Or.inl rfl
    · split
      · exact Or.inl rfl
      · exact Or.inr ⟨_, rfl⟩

end Actions

/-- The record of a call that adds one was built by the enqueue action from a valid request. -/
def StoreCall.AddsRequested (definitions : IJobDefinitionRegistry) (ambient : Ambient)
    (call : StoreCall)
    : Prop :=
  ∀ job,
    call = .add job
    → ∃ request payload retryPolicy delaySeconds actor,
        EnqueueJobAction.validate definitions request
          = .valid payload retryPolicy delaySeconds
        ∧ EnqueueJobAction.jobFor ambient request.type payload retryPolicy delaySeconds actor
          = .ok job

def StoreCall.isAdd : StoreCall → Bool
  | .add _ => true
  | _ => false

section Adds

variable {definitions : IJobDefinitionRegistry} {ambient : Ambient} {call : StoreCall}

theorem StoreCall.AddsRequested.ofOther (other : call.isAdd = false)
    : call.AddsRequested definitions ambient := by
  intro job added
  rw [added] at other
  cases other

/-- The job a request adds is one that `Enqueue` or `Schedule` makes, under a drawn id. -/
theorem StoreCall.AddsRequested.admissible (adds : call.AddsRequested definitions ambient)
    : call.Admissible := by
  intro job added
  obtain ⟨_, _, _, _, _, -, built⟩ := adds job added
  exact EnqueueJobAction.jobFor_newlyMade built

theorem StoreCall.AddsRequested.id (adds : call.AddsRequested definitions ambient)
    {job : JobRecord} (added : call = .add job)
    : job.id = ambient.newGuid := by
  obtain ⟨_, _, _, _, _, -, built⟩ := adds job added
  exact (EnqueueJobAction.jobFor_eq built).1

end Adds

namespace DbContextFactory

/-- A call through a context is a call of the SQLite store under some query filter. -/
theorem call_database (context : DataAccessPolicyContext) (ambient : Ambient)
    (call : StoreCall) (factory : DbContextFactory)
    : ∃ filter,
        (SqliteJobStore.methods filter).call ambient call factory.database
        = (((store context).call ambient call factory).1,
            ((store context).call ambient call factory).2.database) := by
  obtain ⟨model, known, -⟩ := modelFor_eq context factory
  exact ⟨model.filterIn context, by rw [call_eq context known]⟩

/-- A model that was built stays. -/
theorem call_model {context : DataAccessPolicyContext} {ambient : Ambient} {call : StoreCall}
    {factory : DbContextFactory} {model : JobSchedulerModel}
    (built : factory.model = some model)
    : ((store context).call ambient call factory).2.model = some model := by
  have known : factory.modelFor context = .ok model := by simp only [modelFor, built]
  rw [call_eq context known, built]
  exact ite_self _

end DbContextFactory

/-- An authorized enqueue request adds the record it builds, or nothing. -/
theorem enqueueJobAction_effect {State : Type} (definitions : IJobDefinitionRegistry)
    (jobs : IJobStore State) (ambient : Ambient) (request : EnqueueJobActionRequest)
    (actor : JobActor) (state : State)
    : ((enqueueJobAction definitions).executeAuthorized jobs ambient request actor state).2
        = state
      ∨ ∃ job,
          (StoreCall.add job).AddsRequested definitions ambient
          ∧ ((enqueueJobAction definitions).executeAuthorized jobs ambient request actor
              state).2
            = (jobs.call ambient (.add job) state).2 := by
  simp only [enqueueJobAction]
  split
  · exact Or.inl rfl
  · rename_i payload retryPolicy delaySeconds valid
    split
    · exact Or.inl rfl
    · rename_i job built
      refine Or.inr ⟨job, ?_, rfl⟩
      intro other same
      cases same
      exact ⟨request, payload, retryPolicy, delaySeconds, actor, valid, built⟩

/-- Wrapping the answer of a method keeps its effect. -/
theorem StoreMethod.map_snd {State Answer Wrapped : Type} (wrap : Answer → Wrapped)
    (method : StoreMethod State Answer) (state : State)
    : (StoreMethod.map wrap method state).2 = (method state).2 :=
  rfl

theorem listJobsAction_effect {State : Type} (jobs : IJobStore State) (ambient : Ambient)
    (actor : JobActor) (state : State)
    : (listJobsAction.executeAuthorized jobs ambient () actor state).2
      = (jobs.call ambient .list state).2 :=
  rfl

theorem getJobByIdAction_effect {State : Type} (jobs : IJobStore State) (ambient : Ambient)
    (id : Guid) (actor : JobActor) (state : State)
    : (getJobByIdAction.executeAuthorized jobs ambient id actor state).2
      = (jobs.call ambient (.get id) state).2 :=
  rfl

theorem acknowledgeJobAction_effect {State : Type} (jobs : IJobStore State)
    (ambient : Ambient) (id : Guid) (actor : JobActor) (state : State)
    : (acknowledgeJobAction.executeAuthorized jobs ambient id actor state).2
      = (jobs.call ambient (.acknowledge id actor.id ambient.utcNow) state).2 :=
  rfl

/-- The effect of a client request: none, or that of one client call. -/
theorem dispatch_client {definitions : IJobDefinitionRegistry} {provided : JobActor}
    {scopes : DataAccessScopes} {ambient : Ambient} {request : JobActionRequest}
    (client : request.fromClient = true) (factory : DbContextFactory)
    : (dispatch definitions provided scopes ambient request factory).2 = factory
      ∨ ∃ context call,
          call.isClientCall = true
          ∧ call.AddsRequested definitions ambient
          ∧ (dispatch definitions provided scopes ambient request factory).2
            = ((DbContextFactory.store context).call ambient call factory).2 := by
  cases request with
  | listJobs =>
      simp only [dispatch, StoreMethod.map_snd]
      rcases listJobsAction.execute_cases DbContextFactory.store provided scopes ambient ()
        factory with same | ⟨context, runs⟩
      · exact Or.inl same
      · refine Or.inr ⟨context, .list, rfl, .ofOther rfl, ?_⟩
        rw [runs, listJobsAction_effect]
  | getJobById id =>
      simp only [dispatch, StoreMethod.map_snd]
      rcases getJobByIdAction.execute_cases DbContextFactory.store provided scopes ambient id
        factory with same | ⟨context, runs⟩
      · exact Or.inl same
      · refine Or.inr ⟨context, .get id, rfl, .ofOther rfl, ?_⟩
        rw [runs, getJobByIdAction_effect]
  | acknowledgeJob id =>
      simp only [dispatch, StoreMethod.map_snd]
      rcases acknowledgeJobAction.execute_cases DbContextFactory.store provided scopes ambient id
        factory with same | ⟨context, runs⟩
      · exact Or.inl same
      · let actor := DataAccessScopeProvider.currentActor provided scopes
        refine Or.inr ⟨context, .acknowledge id actor.id ambient.utcNow, rfl, .ofOther rfl, ?_⟩
        rw [runs, acknowledgeJobAction_effect]
  | enqueueJob request =>
      simp only [dispatch, StoreMethod.map_snd]
      rcases (enqueueJobAction definitions).execute_cases DbContextFactory.store provided scopes
        ambient request factory with same | ⟨context, runs⟩
      · exact Or.inl same
      · rw [runs]
        rcases enqueueJobAction_effect definitions (DbContextFactory.store context) ambient
          request _ factory with same | ⟨job, requested, added⟩
        · exact Or.inl same
        · exact Or.inr ⟨context, .add job, rfl, requested, added⟩
  | claimNextDueJob request => cases client
  | renewJobLease request => cases client
  | completeJobExecution request => cases client

-----------------------------------------------------------------------------------------
-- The parts of `ProcessNextJobAsync`
-----------------------------------------------------------------------------------------

/-- The entry reports neither a claim nor an outcome. -/
def LogEntry.isQuiet : LogEntry → Bool
  | .claimed .. | .completed .. | .retryScheduled .. | .failed .. => false
  | _ => true

namespace QueuedJobWorker

variable {worker : QueuedJobWorker} {ambient : Ambient} {factory : DbContextFactory}

/-- The claim action, authorized. -/
theorem claimAction_execute (authorized : worker.Authorized)
    (request : ClaimNextDueJobActionRequest)
    : claimNextDueJobAction.execute DbContextFactory.store worker.provided worker.scopes
          ambient request factory
      = StoreMethod.map .authorized
          ((DbContextFactory.store worker.context).tryClaimNextDueJob ambient request.now
            request.workerId request.leaseExpiresAt) factory :=
  JobAuthorizedAction.execute_authorized (fun _ => rfl) rfl rfl (by decide +kernel) authorized
    ambient factory

/-- A claim comes to nothing before it reaches the store, or does what the store answers. -/
theorem claim_cases (worker : QueuedJobWorker) (workerNumber : Nat) (workerId : String)
    (ambient : Ambient) (now : DateTimeOffset) (factory : DbContextFactory)
    : (∃ entries,
          entries.all LogEntry.isQuiet = true
          ∧ worker.claim workerNumber workerId ambient now factory
            = (entries, .polling, factory))
      ∨ ∃ leaseExpiresAt answer next,
          worker.Authorized
          ∧ now.add worker.leaseDuration = .ok leaseExpiresAt
          ∧ (DbContextFactory.store worker.context).call ambient
                (.tryClaimNextDueJob now workerId leaseExpiresAt) factory
            = (answer, next)
          ∧ ((∃ entries,
                (∀ job, answer ≠ .job (some job))
                ∧ entries.all LogEntry.isQuiet = true
                ∧ worker.claim workerNumber workerId ambient now factory
                  = (entries, .polling, next))
            ∨ ∃ job,
                answer = .job (some job)
                ∧ worker.claim workerNumber workerId ambient now factory
                  = ([.claimed workerId job.id job.type job.attemptCount],
                      .executing ⟨job, leaseExpiresAt, .delaying, none⟩, next)) := by
  unfold claim
  cases added : now.add worker.leaseDuration with
  | error exception => exact Or.inl ⟨[.workerFailed workerNumber], rfl, rfl⟩
  | ok leaseExpiresAt =>
      by_cases authorized : worker.Authorized
      · apply Or.inr
        rcases attempt
          : (DbContextFactory.store worker.context).tryClaimNextDueJob ambient now workerId
              leaseExpiresAt factory
          with ⟨exception | _ | job, next⟩
        · refine ⟨leaseExpiresAt, .threw exception, next, authorized, rfl, ?_,
            Or.inl ⟨[.workerFailed workerNumber], by simp, rfl, ?_⟩⟩
          · simp only [IJobStore.call, attempt]
            rfl
          · simp only [claimAction_execute authorized, StoreMethod.map, attempt]
            rfl
        · refine ⟨leaseExpiresAt, .job none, next, authorized, rfl, ?_,
            Or.inl ⟨[.noDueJob workerNumber], by simp, rfl, ?_⟩⟩
          · simp only [IJobStore.call, attempt]
            rfl
          · simp only [claimAction_execute authorized, StoreMethod.map, attempt]
            rfl
        · refine ⟨leaseExpiresAt, .job (some job), next, authorized, rfl, ?_,
            Or.inr ⟨job, rfl, ?_⟩⟩
          · simp only [IJobStore.call, attempt]
            rfl
          · simp only [claimAction_execute authorized, StoreMethod.map, attempt]
            rfl
      · refine Or.inl ⟨[.claimNotAuthorized workerId
          (some "Actor is not authorized to claim jobs."), .noDueJob workerNumber], rfl, ?_⟩
        have denied := JobAuthorizedAction.execute_unauthorized
          (fun _ => rfl : claimNextDueJobAction.Requires JobPermissions.execute) authorized
          ambient ⟨now, workerId, leaseExpiresAt⟩ factory
        simp only [denied]
        rfl

/-- The renewal action, authorized. -/
theorem renewalAction_execute (authorized : worker.Authorized)
    (request : RenewJobLeaseActionRequest)
    : renewJobLeaseAction.execute DbContextFactory.store worker.provided worker.scopes
          ambient request factory
      = StoreMethod.map .authorized
          ((DbContextFactory.store worker.context).renewLease request.job.id
            request.job.currentStateChangeId request.renewedAt request.leaseExpiresAt)
          factory :=
  JobAuthorizedAction.execute_authorized (fun _ => rfl) rfl rfl (by decide +kernel) authorized
    ambient factory

/-- A renewal comes to nothing before it reaches the store, or does what the store answers;
it goes on only if the store accepted it.
-/
theorem renew_cases (worker : QueuedJobWorker) (workerId : String) (ambient : Ambient)
    (execution : Execution) (renewedAt : DateTimeOffset) (factory : DbContextFactory)
    : (∃ entries,
          entries.all LogEntry.isQuiet = true
          ∧ worker.renew workerId ambient execution renewedAt factory
            = (entries, { execution with renewal := .ended }, factory))
      ∨ ∃ leaseExpiresAt answer next,
          worker.Authorized
          ∧ renewedAt.add worker.leaseDuration = .ok leaseExpiresAt
          ∧ (DbContextFactory.store worker.context).call ambient
                (.renewLease execution.job.id execution.job.currentStateChangeId renewedAt
                  leaseExpiresAt) factory
            = (answer, next)
          ∧ ((∃ entries,
                answer ≠ .flag true
                ∧ entries.all LogEntry.isQuiet = true
                ∧ worker.renew workerId ambient execution renewedAt factory
                  = (entries, { execution with renewal := .ended }, next))
            ∨ (answer = .flag true
                ∧ worker.renew workerId ambient execution renewedAt factory
                  = ([],
                      { execution with
                        renewal := .delaying
                        leaseExpiresAt := leaseExpiresAt },
                      next))) := by
  let job := execution.job
  unfold renew
  cases added : renewedAt.add worker.leaseDuration with
  | error exception =>
      exact Or.inl ⟨[.renewalFailed workerId job.id job.type job.attemptCount], rfl, rfl⟩
  | ok leaseExpiresAt =>
      by_cases authorized : worker.Authorized
      · apply Or.inr
        rcases attempt
          : (DbContextFactory.store worker.context).renewLease job.id
              job.currentStateChangeId renewedAt leaseExpiresAt factory
          with ⟨exception | _ | _, next⟩
        · refine ⟨leaseExpiresAt, .threw exception, next, authorized, rfl, ?_,
            Or.inl ⟨[.renewalFailed workerId job.id job.type job.attemptCount], by simp, rfl,
              ?_⟩⟩
          · simp only [IJobStore.call]
            rw [attempt]
            rfl
          · simp only [renewalAction_execute authorized, StoreMethod.map]
            rw [attempt]
            rfl
        · refine ⟨leaseExpiresAt, .flag false, next, authorized, rfl, ?_,
            Or.inl ⟨[.notRenewed workerId job.id job.type job.attemptCount], by simp, rfl,
              ?_⟩⟩
          · simp only [IJobStore.call]
            rw [attempt]
            rfl
          · simp only [renewalAction_execute authorized, StoreMethod.map]
            rw [attempt]
            rfl
        · refine ⟨leaseExpiresAt, .flag true, next, authorized, rfl, ?_, Or.inr ⟨rfl, ?_⟩⟩
          · simp only [IJobStore.call]
            rw [attempt]
            rfl
          · simp only [renewalAction_execute authorized, StoreMethod.map]
            rw [attempt]
            rfl
      · refine Or.inl ⟨[.renewNotAuthorized workerId job.id job.type job.attemptCount
          (some "Actor is not authorized to renew job leases.")], rfl, ?_⟩
        have denied := JobAuthorizedAction.execute_unauthorized
          (fun _ => rfl : renewJobLeaseAction.Requires JobPermissions.execute) authorized
          ambient ⟨execution.job, renewedAt, leaseExpiresAt⟩ factory
        simp only [denied]
        rfl

/-- The completion action, authorized. -/
theorem completionAction_execute (authorized : worker.Authorized)
    (request : CompleteJobExecutionActionRequest)
    : (completeJobExecutionAction worker.definitions).execute DbContextFactory.store
          worker.provided worker.scopes ambient request factory
      = StoreMethod.map (fun completion => .authorized (some completion))
          (completeExecution (DbContextFactory.store worker.context) worker.definitions
            ambient.utcNow { ambient with utcNow := ambient.utcNowAgain } request.job
            request.result) factory := by
  let action : JobAuthorizedAction DbContextFactory CompleteJobExecutionActionRequest
      CompleteJobExecutionActionResult :=
    completeJobExecutionAction worker.definitions
  have named : action.name = "CompleteJobExecutionAction" := rfl
  have reason : isNullOrWhiteSpace (action.name ++ " requested cross-tenant scope.") = false := by
    rw [named]
    decide +kernel
  have requires : action.Requires JobPermissions.execute := fun _ => rfl
  exact JobAuthorizedAction.execute_authorized requires rfl rfl reason authorized ambient
    factory

/-- A completion comes to nothing before it reaches the store, or logs what the answer of the
store shows.
-/
theorem complete_cases (worker : QueuedJobWorker) (workerNumber : Nat) (workerId : String)
    (ambient : Ambient) (job : JobRecord) (result : JobExecutionResult)
    (factory : DbContextFactory)
    : (∃ entries,
          entries.all LogEntry.isQuiet = true
          ∧ worker.complete workerNumber workerId ambient job result factory
            = (entries, factory))
      ∨ ∃ call completion answer next entries,
          worker.Authorized
          ∧ completionCall worker.definitions ambient.utcNow job result
            = .ok (call, completion)
          ∧ (DbContextFactory.store worker.context).call
                { ambient with utcNow := ambient.utcNowAgain } call factory
            = (answer, next)
          ∧ ((∃ reported,
                completionFrom completion answer = .ok reported
                ∧ entries = [completionEntry workerId job reported])
            ∨ ∃ exception,
                completionFrom completion answer = .error exception
                ∧ entries = [.workerFailed workerNumber])
          ∧ worker.complete workerNumber workerId ambient job result factory
            = (entries, next) := by
  unfold complete
  by_cases authorized : worker.Authorized
  · simp only [completionAction_execute authorized, StoreMethod.map, completeExecution_eq]
    cases issued : completionCall worker.definitions ambient.utcNow job result with
    | error exception => exact Or.inl ⟨[.workerFailed workerNumber], rfl, rfl⟩
    | ok issue =>
        obtain ⟨call, completion⟩ := issue
        apply Or.inr
        rcases answered
          : (DbContextFactory.store worker.context).call
              { ambient with utcNow := ambient.utcNowAgain } call factory
          with ⟨answer, next⟩
        cases shown : completionFrom completion answer with
        | error exception =>
            refine ⟨call, completion, answer, next, _, authorized, rfl, answered,
              Or.inr ⟨exception, shown, rfl⟩, ?_⟩
            simp only [answered, shown]
            rfl
        | ok reported =>
            refine ⟨call, completion, answer, next, _, authorized, rfl, answered,
              Or.inl ⟨reported, shown, rfl⟩, ?_⟩
            simp only [answered, shown]
            rfl
  · refine Or.inl ⟨[.completeNotAuthorized workerId job.id
      (some "Actor is not authorized to complete job executions.")], rfl, ?_⟩
    have denied := JobAuthorizedAction.execute_unauthorized
      (fun _ => rfl
        : (completeJobExecutionAction worker.definitions).Requires JobPermissions.execute)
      authorized ambient ⟨job, result⟩ factory
    simp only [denied]
    rfl

end QueuedJobWorker

-----------------------------------------------------------------------------------------
-- Steps of the pool
-----------------------------------------------------------------------------------------

/-- The claim a phase holds, with the expiry of the lease granted last, and whether the
completion is under way.
-/
def WorkerPhase.claim : WorkerPhase → Option WorkerClaim
  | .executing execution => some ⟨execution.job, execution.leaseExpiresAt, false⟩
  | .completing job leaseExpiresAt _ => some ⟨job, leaseExpiresAt, true⟩
  | .polling | .claiming _ | .stopped => none

/-- The clock reading a phase has taken and not used yet. -/
def WorkerPhase.reading : WorkerPhase → Option DateTimeOffset
  | .claiming now => some now
  | .executing execution =>
      match execution.renewal with
      | .renewing renewedAt => some renewedAt
      | .delaying | .ended => none
  | .polling | .completing _ _ _ | .stopped => none

/-- The result a phase brings to the completion, with the job it is the result of. -/
def WorkerPhase.result : WorkerPhase → Option (JobRecord × JobExecutionResult)
  | .executing execution =>
      match execution.ended with
      | some (.finished result) => some (execution.job, result)
      | some .threw | some .cancelled | none => none
  | .completing job _ result => some (job, result)
  | .polling | .claiming _ | .stopped => none

/-- The loop is inside a claim. -/
def WorkerPhase.isClaiming : WorkerPhase → Bool
  | .claiming _ => true
  | .polling | .executing _ | .completing _ _ _ | .stopped => false

/-- The job a phase has still to execute. -/
def WorkerPhase.waiting : WorkerPhase → Option JobRecord
  | .executing execution => if execution.ended = none then some execution.job else none
  | .polling | .claiming _ | .completing _ _ _ | .stopped => none

namespace WorkerPool

/-- The job that a step executes. -/
def executedBy (pool : WorkerPool) : PoolInput → Option JobRecord
  | .execute index _ => pool.phases[index]?.bind WorkerPhase.waiting
  | _ => none

/-- What a step of the pool can do. The steps of the workers come with the call they make
through the context of the workers, and with how this call was answered.
-/
inductive PoolStep (worker : QueuedJobWorker) (pool : WorkerPool)
    : PoolInput → List LogEntry → WorkerPool → Prop
  | advanced (clock : DateTimeOffset)
    : PoolStep worker pool (.advance clock) [] { pool with clock := clock }
  | stopping : PoolStep worker pool .stop [] { pool with stopping := true }
  | requested {actor : JobActor} {ambient : Ambient} {request : JobActionRequest}
    {client : request.fromClient = true} {context : DataAccessPolicyContext}
    {call : StoreCall} (reading : call.isClientCall = true)
    (adds : call.AddsRequested worker.definitions ambient)
    : PoolStep worker pool (.request actor ambient request client) []
        { pool with
          factory := ((DbContextFactory.store context).call ambient call pool.factory).2 }
  | idle {input : PoolInput} {entries : List LogEntry}
    (executes : pool.executedBy input = none) (quiet : entries.all LogEntry.isQuiet = true)
    : PoolStep worker pool input entries pool
  | moved {input : PoolInput} {entries : List LogEntry} {index : Nat}
    {before after : WorkerPhase} (there : pool.phases[index]? = some before)
    (kept : after.claim = none ∨ after.claim = before.claim)
    (past
      : after.reading = none
        ∨ after.reading = before.reading
        ∨ after.reading = some pool.clock)
    (waiting : after.waiting = none ∨ after.waiting = before.waiting)
    (result : after.result = none ∨ after.result = before.result)
    (begins : after.isClaiming = true → pool.stopping = false)
    (executes : pool.executedBy input = none) (quiet : entries.all LogEntry.isQuiet = true)
    : PoolStep worker pool input entries (pool.enter index after)
  | executed {index : Nat} {handlers : IJobHandlerRegistry} {execution : Execution}
    {entries : List LogEntry} {ended : ExecutionEnd}
    (there : pool.phases[index]? = some (.executing execution))
    (waiting : execution.ended = none)
    (outcome : worker.executeInScope handlers pool.stopping execution.job = (entries, ended))
    (quiet : entries.all LogEntry.isQuiet = true)
    : PoolStep worker pool (.execute index handlers) entries
        (pool.enter index (.executing { execution with ended := some ended }))
  | claimMissed {index : Nat} {ambient : Ambient} {now leaseExpiresAt : DateTimeOffset}
    {entries : List LogEntry} {answer : StoreAnswer} {next : DbContextFactory}
    (there : pool.phases[index]? = some (.claiming now)) (authorized : worker.Authorized)
    (added : now.add worker.leaseDuration = .ok leaseExpiresAt)
    (answered
      : (DbContextFactory.store worker.context).call ambient
          (.tryClaimNextDueJob now (workerId index) leaseExpiresAt) pool.factory
        = (answer, next))
    (nothing : ∀ job, answer ≠ .job (some job))
    (quiet : entries.all LogEntry.isQuiet = true)
    : PoolStep worker pool (.claim index ambient) entries
        ({ pool with factory := next }.enter index .polling)
  | claimed {index : Nat} {ambient : Ambient} {now leaseExpiresAt : DateTimeOffset}
    {job : JobRecord} {next : DbContextFactory}
    (there : pool.phases[index]? = some (.claiming now)) (authorized : worker.Authorized)
    (added : now.add worker.leaseDuration = .ok leaseExpiresAt)
    (answered
      : (DbContextFactory.store worker.context).call ambient
          (.tryClaimNextDueJob now (workerId index) leaseExpiresAt) pool.factory
        = (.job (some job), next))
    : PoolStep worker pool (.claim index ambient)
        [.claimed (workerId index) job.id job.type job.attemptCount]
        ({ pool with factory := next }.enter index
          (.executing ⟨job, leaseExpiresAt, .delaying, none⟩))
  | renewalMissed {index : Nat} {ambient : Ambient} {execution : Execution}
    {renewedAt leaseExpiresAt : DateTimeOffset} {entries : List LogEntry}
    {answer : StoreAnswer} {next : DbContextFactory}
    (there : pool.phases[index]? = some (.executing execution))
    (reading : execution.renewal = .renewing renewedAt) (authorized : worker.Authorized)
    (added : renewedAt.add worker.leaseDuration = .ok leaseExpiresAt)
    (answered
      : (DbContextFactory.store worker.context).call ambient
          (.renewLease execution.job.id execution.job.currentStateChangeId renewedAt
            leaseExpiresAt) pool.factory
        = (answer, next))
    (refused : answer ≠ .flag true) (quiet : entries.all LogEntry.isQuiet = true)
    : PoolStep worker pool (.renew index ambient) entries
        ({ pool with factory := next }.enter index
          (.executing { execution with renewal := .ended }))
  | renewed {index : Nat} {ambient : Ambient} {execution : Execution}
    {renewedAt leaseExpiresAt : DateTimeOffset} {next : DbContextFactory}
    (there : pool.phases[index]? = some (.executing execution))
    (reading : execution.renewal = .renewing renewedAt) (authorized : worker.Authorized)
    (added : renewedAt.add worker.leaseDuration = .ok leaseExpiresAt)
    (answered
      : (DbContextFactory.store worker.context).call ambient
          (.renewLease execution.job.id execution.job.currentStateChangeId renewedAt
            leaseExpiresAt) pool.factory
        = (.flag true, next))
    : PoolStep worker pool (.renew index ambient) []
        ({ pool with factory := next }.enter index
          (.executing
            { execution with renewal := .delaying, leaseExpiresAt := leaseExpiresAt }))
  | issued {index : Nat} {execution : Execution} {result : JobExecutionResult}
    (there : pool.phases[index]? = some (.executing execution))
    (ended : execution.ended = some (.finished result))
    : PoolStep worker pool (.leave index) []
        (pool.enter index (.completing execution.job execution.leaseExpiresAt result))
  | completed {index : Nat} {ambient : Ambient} {job : JobRecord}
    {leaseExpiresAt : DateTimeOffset} {result : JobExecutionResult} {call : StoreCall}
    {completion : JobExecutionCompletion} {entries : List LogEntry} {answer : StoreAnswer}
    {next : DbContextFactory}
    (there : pool.phases[index]? = some (.completing job leaseExpiresAt result))
    (authorized : worker.Authorized)
    (issued
      : completionCall worker.definitions ambient.utcNow job result = .ok (call, completion))
    (answered
      : (DbContextFactory.store worker.context).call
          { ambient with utcNow := ambient.utcNowAgain } call pool.factory
        = (answer, next))
    (reports
      : (∃ reported,
          completionFrom completion answer = .ok reported
          ∧ entries = [QueuedJobWorker.completionEntry (workerId index) job reported])
        ∨ ∃ exception,
            completionFrom completion answer = .error exception
            ∧ entries = [.workerFailed (workerNumber index)])
    : PoolStep worker pool (.complete index ambient) entries
        ({ pool with factory := next }.enter index .polling)

section Cases

variable {worker : QueuedJobWorker} {pool : WorkerPool} {index : Nat} {ambient : Ambient}

theorem poll_poolStep : PoolStep worker pool (.poll index) [] (pool.poll index) := by
  unfold poll
  split
  · rename_i there
    by_cases stopping : pool.stopping
    · rw [if_pos stopping]
      exact .moved there (Or.inl rfl) (Or.inl rfl) (Or.inl rfl) (Or.inl rfl)
        (fun claims => by cases claims) rfl rfl
    · rw [if_neg stopping]
      exact .moved there (Or.inl rfl) (Or.inr (Or.inr rfl)) (Or.inl rfl) (Or.inl rfl)
        (fun _ => Bool.eq_false_iff.mpr stopping) rfl rfl
  · exact .idle rfl rfl

theorem endDelay_poolStep
    : PoolStep worker pool (.endDelay index) [] (pool.endDelay index) := by
  unfold endDelay
  split
  · rename_i execution there
    split
    · exact .moved there (Or.inr rfl) (Or.inr (Or.inr rfl)) (Or.inr rfl) (Or.inr rfl)
        (fun claims => by cases claims) rfl rfl
    · exact .idle rfl rfl
  · exact .idle rfl rfl

theorem cancelRenewal_poolStep
    : PoolStep worker pool (.cancelRenewal index) [] (pool.cancelRenewal index) := by
  unfold cancelRenewal
  split
  · rename_i execution there
    split
    · exact .moved there (Or.inr rfl) (Or.inl rfl) (Or.inr rfl) (Or.inr rfl)
        (fun claims => by cases claims) rfl rfl
    · exact .idle rfl rfl
  · exact .idle rfl rfl

theorem cancelWork_poolStep
    : PoolStep worker pool (.cancelWork index) [] (pool.cancelWork index) := by
  unfold cancelWork
  split
  · rename_i execution there
    split
    · exact .moved there (Or.inr rfl) (Or.inr (Or.inl rfl)) (Or.inl rfl) (Or.inl rfl)
        (fun claims => by cases claims) rfl rfl
    · exact .idle rfl rfl
  · exact .idle rfl rfl

/-- Nothing that is logged of an execution reports an outcome. -/
theorem executeInScope_quiet (worker : QueuedJobWorker) (handlers : IJobHandlerRegistry)
    (stopping : Bool) (job : JobRecord)
    : (worker.executeInScope handlers stopping job).1.all LogEntry.isQuiet = true := by
  unfold QueuedJobWorker.executeInScope
  dsimp only
  split
  · rfl
  · unfold QueuedJobWorker.executeJob
    split
    · rfl
    · rfl
    · split <;> rfl

theorem execute_poolStep (handlers : IJobHandlerRegistry)
    : PoolStep worker pool (.execute index handlers) (pool.execute worker index handlers).1
        (pool.execute worker index handlers).2 := by
  unfold execute
  split
  · rename_i execution there
    split
    · rename_i waiting
      exact .executed there waiting rfl (executeInScope_quiet worker handlers _ _)
    · rename_i ended
      refine .idle ?_ rfl
      simp only [executedBy, there, Option.bind_some, WorkerPhase.waiting, if_neg ended]
  · rename_i elsewhere
    refine .idle ?_ rfl
    rw [executedBy, Option.bind_eq_none_iff]
    intro phase there
    cases phase with
    | executing execution => exact absurd there (elsewhere execution)
    | polling | claiming | completing | stopped => rfl

theorem leave_poolStep
    : PoolStep worker pool (.leave index) (pool.leave index).1 (pool.leave index).2 := by
  unfold leave
  split
  · rename_i execution there
    split
    · rename_i result renewed finished
      exact .issued there finished
    · exact .moved there (Or.inl rfl) (Or.inl rfl) (Or.inl rfl) (Or.inl rfl)
        (fun claims => by cases claims) rfl rfl
    · exact .moved there (Or.inl rfl) (Or.inl rfl) (Or.inl rfl) (Or.inl rfl)
        (fun claims => by cases claims) rfl rfl
    · exact .idle rfl rfl
  · exact .idle rfl rfl

/-- The claim of a loop, by how the store answers it. -/
theorem claim_poolStep
    : PoolStep worker pool (.claim index ambient) (pool.claim worker index ambient).1
        (pool.claim worker index ambient).2 := by
  unfold claim
  split
  · rename_i now there
    rcases worker.claim_cases (workerNumber index) (workerId index) ambient now pool.factory
      with ⟨entries, quiet, result⟩
        | ⟨leaseExpiresAt, answer, next, authorized, added, answered, ⟨entries, nothing, quiet,
            result⟩ | ⟨job, found, result⟩⟩
    · rw [result]
      exact .moved there (Or.inl rfl) (Or.inl rfl) (Or.inl rfl) (Or.inl rfl)
        (fun claims => by cases claims) rfl quiet
    · rw [result]
      exact .claimMissed there authorized added answered nothing quiet
    · rw [result]
      exact .claimed there authorized added (found ▸ answered)
  · exact .idle rfl rfl

/-- The renewal of a loop, by how the store answers it. -/
theorem renew_poolStep
    : PoolStep worker pool (.renew index ambient) (pool.renew worker index ambient).1
        (pool.renew worker index ambient).2 := by
  unfold renew
  split
  · rename_i execution there
    split
    · rename_i renewedAt reading
      rcases worker.renew_cases (workerId index) ambient execution renewedAt pool.factory with
        ⟨entries, quiet, result⟩
        | ⟨leaseExpiresAt, answer, next, authorized, added, answered, ⟨entries, refused, quiet,
            result⟩ | ⟨accepted, result⟩⟩
      · rw [result]
        exact .moved there (Or.inr rfl) (Or.inl rfl) (Or.inr rfl) (Or.inr rfl)
          (fun claims => by cases claims) rfl quiet
      · rw [result]
        exact .renewalMissed there reading authorized added answered refused quiet
      · rw [result]
        exact .renewed there reading authorized added (accepted ▸ answered)
    · exact .idle rfl rfl
  · exact .idle rfl rfl

/-- The completion of a loop, by how the store answers it. -/
theorem complete_poolStep
    : PoolStep worker pool (.complete index ambient) (pool.complete worker index ambient).1
        (pool.complete worker index ambient).2 := by
  unfold complete
  split
  · rename_i job leaseExpiresAt result there
    rcases worker.complete_cases (workerNumber index) (workerId index) ambient job result
      pool.factory with ⟨entries, quiet, completed⟩
        | ⟨call, completion, answer, next, entries, authorized, issued, answered, reports,
            completed⟩
    · rw [completed]
      exact .moved there (Or.inl rfl) (Or.inl rfl) (Or.inl rfl) (Or.inl rfl)
        (fun claims => by cases claims) rfl quiet
    · rw [completed]
      exact .completed there authorized issued answered reports
  · exact .idle rfl rfl

/-- Every step of the pool is one of these, whatever loop or client takes it. -/
theorem step_poolStep (worker : QueuedJobWorker) (pool : WorkerPool) (input : PoolInput)
    : PoolStep worker pool input (pool.step worker input).1 (pool.step worker input).2 := by
  cases input with
  | advance clock => exact .advanced clock
  | stop => exact .stopping
  | request actor ambient request client =>
      rcases @dispatch_client worker.definitions actor .unset ambient request client
        pool.factory with same | ⟨context, call, reading, adds, effect⟩
      · have unchanged : (pool.step worker (.request actor ambient request client)).2 = pool := by
          simp only [step, same]
        rw [unchanged]
        exact .idle rfl rfl
      · simp only [step, effect]
        exact .requested reading adds
  | poll index => exact poll_poolStep
  | claim index ambient => exact claim_poolStep
  | endDelay index => exact endDelay_poolStep
  | renew index ambient => exact renew_poolStep
  | cancelRenewal index => exact cancelRenewal_poolStep
  | cancelWork index => exact cancelWork_poolStep
  | execute index handlers => exact execute_poolStep handlers
  | leave index => exact leave_poolStep
  | complete index ambient => exact complete_poolStep

end Cases

end WorkerPool

end JobScheduler
