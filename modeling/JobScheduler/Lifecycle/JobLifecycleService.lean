import JobScheduler.Storage.StoreInterface

/-! The lifecycle service: claims, renewals and completions of job executions over any store.
The clock reading the service takes itself is an argument, next to those of the store call.
-/

namespace JobScheduler

/-- A policy `JobRetryPolicy.Create` accepts. -/
structure JobRetryPolicy where
  maxAttempts : Int
  delay : TimeSpan
  atLeastOne : 1 ≤ maxAttempts
  notNegative : 0 ≤ delay.ticks
  deriving DecidableEq, Repr

def JobRetryPolicy.create (maxAttempts : Int) (delay : TimeSpan)
    : Except SchedulerException JobRetryPolicy :=
  if few : maxAttempts < 1 then
    .error (.argumentOutOfRange "Max attempts must be at least 1." "maxAttempts")
  else if negative : delay.ticks < 0 then
    .error (.argumentOutOfRange "Retry delay cannot be negative." "delay")
  else
    .ok ⟨maxAttempts, delay, not_lt.mp few, not_lt.mp negative⟩

structure JobPayloadValidationResult where
  isValid : Bool
  payload : JsonElement
  errorMessage : Option String
  deriving DecidableEq, Repr

/-- `IJobDefinition`; how a payload is validated is up to the definition. -/
structure IJobDefinition where
  type : String
  retryPolicy : JobRetryPolicy
  maxScheduleDelaySeconds : Int
  validatePayload : JsonElement → JobPayloadValidationResult

/-- `IJobDefinitionRegistry.Find`. -/
abbrev IJobDefinitionRegistry : Type := String → Option IJobDefinition

-----------------------------------------------------------------------------------------
-- Results of an execution
-----------------------------------------------------------------------------------------

structure JobExecutionResult where
  succeeded : Bool
  failureReason : Option String
  deriving DecidableEq, Repr

namespace JobExecutionResult

def success : JobExecutionResult := ⟨true, none⟩

def failure (reason : String) : JobExecutionResult := ⟨false, some reason⟩

end JobExecutionResult

inductive JobExecutionCompletionStatus
  | completed
  | retryScheduled
  | failed
  | leaseLost
  deriving DecidableEq, Repr

structure JobExecutionCompletion where
  status : JobExecutionCompletionStatus
  failureReason : Option String
  retryScheduledAt : Option DateTimeOffset
  deriving DecidableEq, Repr

namespace JobExecutionCompletion

def completed : JobExecutionCompletion := ⟨.completed, none, none⟩

def retryScheduled (failureReason : String) (scheduledAt : DateTimeOffset)
    : JobExecutionCompletion :=
  ⟨.retryScheduled, some failureReason, some scheduledAt⟩

def failed (failureReason : String) : JobExecutionCompletion :=
  ⟨.failed, some failureReason, none⟩

def leaseLost : JobExecutionCompletion := ⟨.leaseLost, none, none⟩

end JobExecutionCompletion

-----------------------------------------------------------------------------------------
-- The service
-----------------------------------------------------------------------------------------

namespace JobLifecycleService

variable {State : Type} (jobs : IJobStore State)

def claimNextDueJob (ambient : Ambient) (now : DateTimeOffset) (workerId : String)
    (leaseExpiresAt : DateTimeOffset)
    : StoreMethod State (Option JobRecord) :=
  jobs.tryClaimNextDueJob ambient now workerId leaseExpiresAt

def renewLease (job : JobRecord) (renewedAt leaseExpiresAt : DateTimeOffset)
    : StoreMethod State Bool :=
  jobs.renewLease job.id job.currentStateChangeId renewedAt leaseExpiresAt

/-- `result.FailureReason ?? "Job execution failed."`. -/
def failureReasonOf (result : JobExecutionResult) : String :=
  result.failureReason.getD "Job execution failed."

/-- `accepted ? completion : JobExecutionCompletion.LeaseLost()`. -/
def completionOf (completion : JobExecutionCompletion)
    (accepted : StoreMethod State Bool)
    : StoreMethod State JobExecutionCompletion := fun state =>
  (accepted state).map
    (Except.map (fun done => if done then completion else .leaseLost)) id

/-- The definition a failed execution is retried under: there is one, and the snapshot
shows attempts left.
-/
def retryDefinition (definitions : IJobDefinitionRegistry) (job : JobRecord)
    : Option IJobDefinition :=
  if job.attemptCount < job.maxAttempts then definitions job.type else none

def completeExecution (definitions : IJobDefinitionRegistry) (utcNow : DateTimeOffset)
    (ambient : Ambient) (job : JobRecord) (result : JobExecutionResult)
    : StoreMethod State JobExecutionCompletion := fun state =>
  let failureReason := failureReasonOf result
  if result.succeeded then
    completionOf .completed (jobs.markCompleted ambient job.id job.currentStateChangeId) state
  else
    match retryDefinition definitions job with
    | some definition =>
        match utcNow.add definition.retryPolicy.delay with
        | .error exception => (.error exception, state)
        | .ok scheduledAt =>
            completionOf (.retryScheduled failureReason scheduledAt)
              (jobs.scheduleRetry ambient job.id job.currentStateChangeId failureReason
                scheduledAt)
              state
    | none =>
        completionOf (.failed failureReason)
          (jobs.markFailed ambient job.id job.currentStateChangeId failureReason) state

-----------------------------------------------------------------------------------------
-- The store call behind each service call
-----------------------------------------------------------------------------------------

/-- The store call a completion issues, with what it reports if the call is accepted; the
retry time may not be representable.
-/
def completionCall (definitions : IJobDefinitionRegistry) (utcNow : DateTimeOffset)
    (job : JobRecord) (result : JobExecutionResult)
    : Except SchedulerException (StoreCall × JobExecutionCompletion) :=
  if result.succeeded then
    .ok (.markCompleted job.id job.currentStateChangeId, .completed)
  else
    match retryDefinition definitions job with
    | some definition =>
        (utcNow.add definition.retryPolicy.delay).map (fun scheduledAt =>
          (.scheduleRetry job.id job.currentStateChangeId (failureReasonOf result) scheduledAt,
            .retryScheduled (failureReasonOf result) scheduledAt))
    | none =>
        .ok (.markFailed job.id job.currentStateChangeId (failureReasonOf result),
          .failed (failureReasonOf result))

/-- A completion as the answer of its store call shows it. -/
def completionFrom (completion : JobExecutionCompletion)
    : StoreAnswer → Except SchedulerException JobExecutionCompletion
  | .flag true => .ok completion
  | .threw exception => .error exception
  | _ => .ok .leaseLost

/-- A completion method answers as its store call does. -/
theorem completionOf_eq {completion : JobExecutionCompletion}
    {accepted : StoreMethod State Bool} (state : State)
    : completionOf completion accepted state
      = (completionFrom completion (.of .flag (accepted state).1), (accepted state).2) := by
  unfold completionOf
  rcases accepted state with ⟨answer, next⟩
  cases answer with
  | error exception => rfl
  | ok done => cases done <;> rfl

/-- A completion is the store call it issues, seen through `completionFrom`; without a
representable retry time it throws and calls nothing.
-/
theorem completeExecution_eq (definitions : IJobDefinitionRegistry)
    (utcNow : DateTimeOffset) (ambient : Ambient) (job : JobRecord)
    (result : JobExecutionResult) (state : State)
    : completeExecution jobs definitions utcNow ambient job result state
      = match completionCall definitions utcNow job result with
        | .ok (call, completion) =>
            (completionFrom completion (jobs.call ambient call state).1,
              (jobs.call ambient call state).2)
        | .error exception => (.error exception, state) := by
  by_cases succeeded : result.succeeded
  · simp only [completeExecution, completionCall, succeeded, if_true, completionOf_eq]
    rfl
  · cases retry : retryDefinition definitions job with
    | none =>
        simp only [completeExecution, completionCall, succeeded, retry, completionOf_eq,
          Bool.false_eq_true, if_false]
        rfl
    | some definition =>
        cases added : utcNow.add definition.retryPolicy.delay with
        | error exception =>
            simp only [completeExecution, completionCall, succeeded, retry, added,
              Bool.false_eq_true, if_false]
            rfl
        | ok scheduledAt =>
            simp only [completeExecution, completionCall, succeeded, retry, added,
              completionOf_eq, Bool.false_eq_true, if_false]
            rfl

/-- The call carries the id and the claim token of a job snapshot. -/
inductive Carries (job : JobRecord) : StoreCall → Prop
  | renewLease (renewedAt leaseExpiresAt : DateTimeOffset)
    : Carries job (.renewLease job.id job.currentStateChangeId renewedAt leaseExpiresAt)
  | markCompleted : Carries job (.markCompleted job.id job.currentStateChangeId)
  | markFailed (reason : String)
    : Carries job (.markFailed job.id job.currentStateChangeId reason)
  | scheduleRetry (reason : String) (scheduledAt : DateTimeOffset)
    : Carries job (.scheduleRetry job.id job.currentStateChangeId reason scheduledAt)

/-- What a completion issues: by the result, by whether it may be retried, and by whether the
retry time is representable.
-/
theorem completionCall_cases (definitions : IJobDefinitionRegistry)
    (utcNow : DateTimeOffset) (job : JobRecord) (result : JobExecutionResult)
    : (result.succeeded = true
        ∧ completionCall definitions utcNow job result
          = .ok (.markCompleted job.id job.currentStateChangeId, .completed))
      ∨ (result.succeeded = false
        ∧ retryDefinition definitions job = none
        ∧ completionCall definitions utcNow job result
          = .ok (.markFailed job.id job.currentStateChangeId (failureReasonOf result),
              .failed (failureReasonOf result)))
      ∨ ∃ definition,
          result.succeeded = false
          ∧ retryDefinition definitions job = some definition
          ∧ ((∃ scheduledAt,
                utcNow.add definition.retryPolicy.delay = .ok scheduledAt
                ∧ completionCall definitions utcNow job result
                  = .ok (.scheduleRetry job.id job.currentStateChangeId
                        (failureReasonOf result) scheduledAt,
                      .retryScheduled (failureReasonOf result) scheduledAt))
            ∨ ∃ exception,
                utcNow.add definition.retryPolicy.delay = .error exception
                ∧ completionCall definitions utcNow job result = .error exception) := by
  cases succeeded : result.succeeded with
  | true => exact Or.inl ⟨rfl, by simp only [completionCall, succeeded, if_true]⟩
  | false =>
      apply Or.inr
      cases retry : retryDefinition definitions job with
      | none =>
          refine Or.inl ⟨rfl, rfl, ?_⟩
          simp only [completionCall, succeeded, retry, Bool.false_eq_true, if_false]
      | some definition =>
          refine Or.inr ⟨definition, rfl, rfl, ?_⟩
          cases added : utcNow.add definition.retryPolicy.delay with
          | ok scheduledAt =>
              refine Or.inl ⟨scheduledAt, rfl, ?_⟩
              simp only [completionCall, succeeded, retry, added, Bool.false_eq_true, if_false]
              rfl
          | error exception =>
              refine Or.inr ⟨exception, rfl, ?_⟩
              simp only [completionCall, succeeded, retry, added, Bool.false_eq_true, if_false]
              rfl

/-- A completion issues a call with its snapshot's token, whichever branch it takes. -/
theorem completionCall_carries {definitions : IJobDefinitionRegistry}
    {utcNow : DateTimeOffset} {job : JobRecord} {result : JobExecutionResult}
    {call : StoreCall} {completion : JobExecutionCompletion}
    (issued : completionCall definitions utcNow job result = .ok (call, completion))
    : Carries job call := by
  rcases completionCall_cases definitions utcNow job result with ⟨-, other⟩ | ⟨-, -, other⟩
    | ⟨_, -, -, ⟨scheduledAt, -, other⟩ | ⟨_, -, other⟩⟩
  · cases issued.symm.trans other
    exact .markCompleted
  · cases issued.symm.trans other
    exact .markFailed _
  · cases issued.symm.trans other
    exact .scheduleRetry _ scheduledAt
  · cases issued.symm.trans other

/-- The reason that reaches the store is blank only if the handler gave a blank one. -/
theorem isNullOrWhiteSpace_failureReasonOf {result : JobExecutionResult}
    : isNullOrWhiteSpace (failureReasonOf result) = true
      ↔ ∃ reason, result.failureReason = some reason ∧ isNullOrWhiteSpace reason = true := by
  cases reason : result.failureReason with
  | none =>
      have shown : isNullOrWhiteSpace (failureReasonOf result) = false := by
        rw [failureReasonOf, reason]
        decide
      simp [shown]
  | some text => simp [failureReasonOf, reason]

end JobLifecycleService

end JobScheduler
