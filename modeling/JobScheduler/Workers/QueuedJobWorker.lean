import JobScheduler.Actions.JobActions
import JobScheduler.Dispatching.JobDispatcher

/-! `QueuedJobWorker`, from one `await` to the next. An execution runs next to a renewal of
its lease, and its completion is dispatched when both have ended. Delays are not timed: a
worker that is due to go on does so at some later step.
-/

namespace JobScheduler

/-- The fields of `QueuedJobWorker` that decide what it does, the definitions that the
lifecycle service completes executions with, and the actor that the actor provider gives
outside of requests. The fields left out are delays.
-/
structure QueuedJobWorker where
  workerActor : JobActor
  leaseDuration : TimeSpan
  definitions : IJobDefinitionRegistry
  provided : JobActor

-----------------------------------------------------------------------------------------
-- Where a worker stands
-----------------------------------------------------------------------------------------

/-- Where `RenewLeaseUntilExecutionStops` stands: in its delay, with a clock reading taken for
a renewal, or returned.
-/
inductive LeaseRenewal
  | delaying
  | renewing (renewedAt : DateTimeOffset)
  | ended
  deriving DecidableEq, Repr

/-- How the `try` block of an execution is left. -/
inductive ExecutionEnd
  | finished (result : JobExecutionResult)
  | threw
  | cancelled
  deriving DecidableEq, Repr

/-- A claimed job, the expiry of the lease granted last, the renewal of this lease, and how
the `try` block ended once it has, which is when the renewal is being stopped.
-/
structure Execution where
  job : JobRecord
  leaseExpiresAt : DateTimeOffset
  renewal : LeaseRenewal
  ended : Option ExecutionEnd
  deriving DecidableEq, Repr

/-- Where a worker loop stands: between two calls of `ProcessNextJobAsync`, or inside one. -/
inductive WorkerPhase
  | polling
  | claiming (now : DateTimeOffset)
  | executing (execution : Execution)
  | completing (job : JobRecord) (leaseExpiresAt : DateTimeOffset)
      (result : JobExecutionResult)
  | stopped
  deriving DecidableEq, Repr

/-- The log entries of the workers and of their pool. -/
inductive LogEntry
  | claimNotAuthorized (workerId : String) (errorMessage : Option String)
  | claimed (workerId : String) (jobId : Guid) (type : String) (attemptNumber : Nat)
  | completeNotAuthorized (workerId : String) (jobId : Guid) (errorMessage : Option String)
  | completed (workerId : String) (jobId : Guid) (type : String) (attemptNumber : Nat)
  | retryScheduled (workerId : String) (jobId : Guid) (type : String) (attemptNumber : Nat)
      (failureReason : Option String) (nextAttemptNumber : Nat)
      (scheduledAt : Option DateTimeOffset)
  | leaseLost (workerId : String) (jobId : Guid) (type : String) (attemptNumber : Nat)
  | failed (workerId : String) (jobId : Guid) (type : String) (finalAttempt : Nat)
      (failureReason : Option String)
  | executionThrew (jobId : Guid) (type : String) (attemptNumber : Nat)
  | renewNotAuthorized (workerId : String) (jobId : Guid) (type : String)
      (attemptNumber : Nat) (errorMessage : Option String)
  | notRenewed (workerId : String) (jobId : Guid) (type : String) (attemptNumber : Nat)
  | renewalFailed (workerId : String) (jobId : Guid) (type : String) (attemptNumber : Nat)
  | noDueJob (workerNumber : Nat)
  | workerFailed (workerNumber : Nat)
  deriving DecidableEq, Repr

namespace QueuedJobWorker

variable (worker : QueuedJobWorker)

/-- The ambient values inside the actor scope that `ProcessNextJobAsync` opens. -/
def scopes : DataAccessScopes :=
  DataAccessScopeProvider.beginActorScope worker.workerActor .unset

-----------------------------------------------------------------------------------------
-- The parts of `ProcessNextJobAsync`
-----------------------------------------------------------------------------------------

/-- The claim, with the clock reading taken before. A claim without a job returns `false` to
the pool, an exception is logged by the pool.
-/
def claim (workerNumber : Nat) (workerId : String) (ambient : Ambient) (now : DateTimeOffset)
    (factory : DbContextFactory)
    : List LogEntry × WorkerPhase × DbContextFactory :=
  match now.add worker.leaseDuration with
  | .error _ => ([.workerFailed workerNumber], .polling, factory)
  | .ok leaseExpiresAt =>
      match claimNextDueJobAction.execute DbContextFactory.store worker.provided worker.scopes
          ambient ⟨now, workerId, leaseExpiresAt⟩ factory with
      | (.error _, next) => ([.workerFailed workerNumber], .polling, next)
      | (.ok claimResult, next) =>
          if !claimResult.isAuthorized then
            ([.claimNotAuthorized workerId claimResult.errorMessage, .noDueJob workerNumber],
              .polling, next)
          else
            match claimResult.answer with
            | none => ([.noDueJob workerNumber], .polling, next)
            | some job =>
                ([.claimed workerId job.id job.type job.attemptCount],
                  .executing ⟨job, leaseExpiresAt, .delaying, none⟩, next)

/-- `ExecuteJob`: an exception of the handler is a failure of the job, a cancellation is one
only as long as the host is not stopping.
-/
def executeJob (handlers : IJobHandlerRegistry) (stopping : Bool) (job : JobRecord)
    : List LogEntry × ExecutionEnd :=
  let unhandled : List LogEntry × ExecutionEnd :=
    ([.executionThrew job.id job.type job.attemptCount],
      .finished (.failure "Job execution threw an unhandled exception."))
  match JobDispatcher.executeAsync handlers job with
  | .returned result => ([], .finished result)
  | .threw => unhandled
  | .cancelled => if stopping then ([], .cancelled) else unhandled

/-- The handler runs in the scope of the job's tenant. -/
def executeInScope (handlers : IJobHandlerRegistry) (stopping : Bool) (job : JobRecord)
    : List LogEntry × ExecutionEnd :=
  let entered : Except SchedulerException DataAccessScopes := do
    let scope ← DataAccessScope.tenant job.tenantId
    DataAccessScopeProvider.beginScope scope .read worker.scopes
  match entered with
  | .error _ => ([], .threw)
  | .ok _ => executeJob handlers stopping job

/-- A renewal, with the clock reading taken before; only an accepted one is followed by
another delay.
-/
def renew (workerId : String) (ambient : Ambient) (execution : Execution)
    (renewedAt : DateTimeOffset) (factory : DbContextFactory)
    : List LogEntry × Execution × DbContextFactory :=
  let job := execution.job
  let failed (next : DbContextFactory) : List LogEntry × Execution × DbContextFactory :=
    ([.renewalFailed workerId job.id job.type job.attemptCount],
      { execution with renewal := .ended }, next)
  match renewedAt.add worker.leaseDuration with
  | .error _ => failed factory
  | .ok leaseExpiresAt =>
      match renewJobLeaseAction.execute DbContextFactory.store worker.provided worker.scopes
          ambient ⟨job, renewedAt, leaseExpiresAt⟩ factory with
      | (.error _, next) => failed next
      | (.ok renewalResult, next) =>
          if !renewalResult.isAuthorized then
            ([.renewNotAuthorized workerId job.id job.type job.attemptCount
                renewalResult.errorMessage],
              { execution with renewal := .ended }, next)
          else if !renewalResult.answer then
            ([.notRenewed workerId job.id job.type job.attemptCount],
              { execution with renewal := .ended }, next)
          else
            ([], { execution with renewal := .delaying, leaseExpiresAt := leaseExpiresAt },
              next)

/-- What is logged of a completion. -/
def completionEntry (workerId : String) (job : JobRecord)
    (completion : JobExecutionCompletion)
    : LogEntry :=
  match completion.status with
  | .completed => .completed workerId job.id job.type job.attemptCount
  | .retryScheduled =>
      .retryScheduled workerId job.id job.type job.attemptCount completion.failureReason
        (job.attemptCount + 1) completion.retryScheduledAt
  | .leaseLost => .leaseLost workerId job.id job.type job.attemptCount
  | .failed => .failed workerId job.id job.type job.attemptCount completion.failureReason

/-- The completion; a missing completion result throws. -/
def complete (workerNumber : Nat) (workerId : String) (ambient : Ambient) (job : JobRecord)
    (result : JobExecutionResult) (factory : DbContextFactory)
    : List LogEntry × DbContextFactory :=
  match (completeJobExecutionAction worker.definitions).execute DbContextFactory.store
      worker.provided worker.scopes ambient ⟨job, result⟩ factory with
  | (.error _, next) => ([.workerFailed workerNumber], next)
  | (.ok completionResult, next) =>
      if !completionResult.isAuthorized then
        ([.completeNotAuthorized workerId job.id completionResult.errorMessage], next)
      else
        match completionResult.answer with
        | none => ([.workerFailed workerNumber], next)
        | some completion => ([completionEntry workerId job completion], next)

end QueuedJobWorker

end JobScheduler
