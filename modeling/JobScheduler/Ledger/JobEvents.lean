import JobScheduler.Ledger.AttemptBound
import JobScheduler.Ledger.Claims
import JobScheduler.Ledger.Transitions

/-! The runs and outcomes that a history shows, in order. Calls that start no run and record no
outcome do not show in it; the others show as the events they stand for.
-/

namespace JobScheduler

open Library JobLifecycleService

/-- What happened to a job: a run started, or ended. A retry follows a failure. -/
inductive JobEvent
  | started (attemptNumber : Nat)
  | completed (attemptNumber : Nat)
  | failed (attemptNumber : Nat) (failureReason : Option String)
  | retryScheduled (scheduledAt : Option DateTimeOffset)
  deriving DecidableEq, Repr

/-- The events behind an entry that follows `attempts` runs. Only a retry schedules a job that
has run.
-/
def JobStateChange.events (attempts : Nat) (change : JobStateChange) : List JobEvent :=
  match change.status with
  | .queued => []
  | .running => [.started (attempts + 1)]
  | .completed => [.completed attempts]
  | .failed => [.failed attempts (some change.reason)]
  | .scheduled => if attempts = 0 then [] else [.retryScheduled change.scheduledAt]

/-- The events of a history that follows `attempts` runs. -/
def eventsFrom (attempts : Nat) : List JobStateChange → List JobEvent
  | [] => []
  | change :: rest =>
      change.events attempts
      ++ eventsFrom (if change.status = .running then attempts + 1 else attempts) rest

def JobRecord.events (job : JobRecord) : List JobEvent := eventsFrom 0 job.history

/-- The events of the job stored under an id; a job that is not stored has none. -/
def Ledger.events (ledger : Ledger) (id : Guid) : List JobEvent :=
  (ledger.find? id).elim [] JobRecord.events

/-- The events of an extended history, by induction on the first part. -/
theorem eventsFrom_append (attempts : Nat) (history added : List JobStateChange)
    : eventsFrom attempts (history ++ added)
      = eventsFrom attempts history
        ++ eventsFrom (attempts + history.countP (fun change => change.status = .running))
            added := by
  induction history generalizing attempts with
  | nil => rfl
  | cons change rest ih =>
      rw [List.cons_append, eventsFrom, eventsFrom, ih, List.append_assoc]
      by_cases running : change.status = .running
      · rw [List.countP_cons_of_pos (by simpa using running), if_pos running]
        congr 3
        omega
      · rw [List.countP_cons_of_neg (by simpa using running), if_neg running]

/-- Sequence numbers do not show in the events, by induction on the history. -/
theorem eventsFrom_numbered (attempts : Nat) (history : List JobStateChange)
    : eventsFrom attempts (numbered history) = eventsFrom attempts history := by
  have general (number : Nat → Nat)
      : eventsFrom attempts
          (history.mapIdx (fun index change => change.withSequence (number index)))
        = eventsFrom attempts history := by
    induction history generalizing attempts number with
    | nil => rfl
    | cons change rest ih =>
        rw [List.mapIdx_cons, eventsFrom, eventsFrom]
        exact congrArg _ (ih _ (fun index => number (index + 1)))
  exact general (fun index => index + 1)

/-- A record step appends the events of the entries it appends. -/
theorem RecordStep.events {nextDue : DateTimeOffset → Option JobRecord} {ambient : Ambient}
    {call : StoreCall} {job changed : JobRecord}
    (step : RecordStep nextDue ambient call job changed)
    : changed.events
      = job.events ++ eventsFrom job.attemptCount (call.appended ambient job) := by
  unfold JobRecord.events
  rw [step.history_eq, eventsFrom_numbered, eventsFrom_append, Nat.zero_add]
  rfl

/-- A job that was just made has not run. -/
theorem JobRecord.NewlyMade.events {job : JobRecord} (new : job.NewlyMade)
    : job.events = [] := by
  obtain ⟨newGuid, changedAt, reason, made, -⟩ := new.cases
  unfold JobRecord.events
  rcases made with ⟨history, -⟩ | ⟨scheduledAt, history, -⟩
  · rw [history]
    rfl
  · rw [history]
    rfl

-----------------------------------------------------------------------------------------
-- The order of events
-----------------------------------------------------------------------------------------

/-- Where the run of an attempt and its end stand among the runs and ends of a job. A retry
stands with the failure before it.
-/
def JobEvent.position : JobEvent → Option Nat
  | .started attemptNumber => some (2 * attemptNumber)
  | .completed attemptNumber | .failed attemptNumber _ => some (2 * attemptNumber + 1)
  | .retryScheduled _ => none

/-- Runs and ends come in the order of their attempts, after the position that the last status
stands for. The induction is on the history, and the legal steps say what may come next.
-/
theorem eventsFrom_positions {status : JobStatus} {attempts : Nat}
    {history : List JobStateChange}
    (chain : (status :: history.map JobStateChange.status).IsChain JobStatus.Precedes)
    : ((if status = .running then 2 * attempts else 2 * attempts + 1)
        :: (eventsFrom attempts history).filterMap JobEvent.position).IsChain (· < ·) := by
  induction history generalizing status attempts with
  | nil => exact .singleton _
  | cons change rest ih =>
      obtain ⟨step, after⟩ := List.isChain_cons_cons.mp chain
      have later := fun attempts => @ih change.status attempts after
      rw [eventsFrom, List.filterMap_append]
      cases next : change.status with
      | queued =>
          rw [next] at step later
          cases step
          simpa [JobStateChange.events, next] using later attempts
      | running =>
          rw [next] at step later
          have shown : change.events attempts = [.started (attempts + 1)] := by
            simp only [JobStateChange.events, next]
          have before
              : (if status = .running then 2 * attempts else 2 * attempts + 1)
                < 2 * (attempts + 1) := by
            split <;> omega
          simp only [shown, if_true]
          exact .cons_cons before (by simpa using later (attempts + 1))
      | completed =>
          rw [next] at step later
          cases step
          have shown : change.events attempts = [.completed attempts] := by
            simp only [JobStateChange.events, next]
          simp only [shown, if_true]
          exact .cons_cons (Nat.lt_succ_self _) (by simpa using later attempts)
      | failed =>
          rw [next] at step later
          cases step
          have shown : change.events attempts = [.failed attempts (some change.reason)] := by
            simp only [JobStateChange.events, next]
          simp only [shown, if_true]
          exact .cons_cons (Nat.lt_succ_self _) (by simpa using later attempts)
      | scheduled =>
          rw [next] at step later
          cases step
          have shown : (change.events attempts).filterMap JobEvent.position = [] := by
            simp only [JobStateChange.events, next]
            split <;> rfl
          rw [shown]
          simpa using later attempts

/-- No position is taken twice in the history of a job. -/
theorem JobRecord.LegalHistory.positions {job : JobRecord} (legal : job.LegalHistory)
    : (job.events.filterMap JobEvent.position).Pairwise (· < ·) := by
  have chain := legal.chain
  have starts := legal.starts
  unfold JobRecord.events
  unfold JobRecord.statuses at chain starts
  cases history : job.history with
  | nil => exact .nil
  | cons change rest =>
      rw [history, List.map_cons] at chain starts
      have positions := List.isChain_iff_pairwise.mp (@eventsFrom_positions _ 0 _ chain)
      rcases starts with status | status
      · have waits : change.status = .queued := Option.some.inj status
        simpa [eventsFrom, JobStateChange.events, waits] using (List.pairwise_cons.mp positions).2
      · have waits : change.status = .scheduled := Option.some.inj status
        simpa [eventsFrom, JobStateChange.events, waits] using (List.pairwise_cons.mp positions).2

-----------------------------------------------------------------------------------------
-- Calls and their events
-----------------------------------------------------------------------------------------

/-- The calls that append nothing to a history. -/
def StoreCall.isSilent : StoreCall → Bool
  | .add _ | .get _ | .list | .renewLease _ _ _ _ | .acknowledge _ _ _ => true
  | .tryClaimNextDueJob _ _ _ | .markCompleted _ _ | .markFailed _ _ _
  | .scheduleRetry _ _ _ _ => false

theorem StoreCall.appended_of_isSilent {ambient : Ambient} {job : JobRecord}
    {call : StoreCall} (silent : call.isSilent = true)
    : call.appended ambient job = [] := by
  cases call with
  | add | get | list | renewLease | acknowledge => rfl
  | tryClaimNextDueJob | markCompleted | markFailed | scheduleRetry => cases silent

/-- The events of the entries a claim appends: one more run. -/
theorem eventsFrom_claim (attempts : Nat) (ambient : Ambient) (job : JobRecord)
    (now : DateTimeOffset) (workerId : String) (leaseExpiresAt : DateTimeOffset)
    : eventsFrom attempts
        ((StoreCall.tryClaimNextDueJob now workerId leaseExpiresAt).appended ambient job)
      = [.started (attempts + 1)] := by
  cases status : job.status with
  | scheduled => simp only [StoreCall.appended, status]; rfl
  | queued | running | completed | failed => simp only [StoreCall.appended, status]; rfl

section Steps

variable {visible : JobRecord → Bool} {nextDue : DateTimeOffset → Option JobRecord}
  {ambient : Ambient} {ledger next : Ledger} {call : StoreCall} {answer : StoreAnswer}

/-- The events of a changed job are its own, those of the others stay. -/
theorem Ledger.events_set (ledger : Ledger) (job : JobRecord) (id : Guid)
    : Ledger.events (ledger.set job) id
      = if job.id = id then job.events else ledger.events id := by
  unfold Ledger.events
  rw [KeyedTable.find?_set]
  split <;> rfl

/-- A silent call adds no event, if it adds no job under a stored id. -/
theorem LedgerStep.events_of_silent
    (step : LedgerStep visible nextDue ambient ledger call answer next)
    (silent : call.isSilent = true)
    (newId : ∀ job : JobRecord, call = .add job → ledger.find? job.id = none) (id : Guid)
    : next.events id = ledger.events id := by
  rcases step.effect with rfl | ⟨job, added, new, rfl⟩ | ⟨job, changed, one, stored, -, rfl⟩
  · rfl
  · rw [Ledger.events_set]
    split
    · rename_i same
      rw [new.events, Ledger.events, ← same, newId job added]
      rfl
    · rfl
  · rw [Ledger.events_set, one.id_eq]
    split
    · rename_i same
      rw [one.events, StoreCall.appended_of_isSilent silent, Ledger.events, ← same, stored]
      exact List.append_nil _
    · rfl

/-- A claim that is granted starts the next run of its job. -/
theorem LedgerStep.events_of_claim {now : DateTimeOffset} {workerId : String}
    {leaseExpiresAt : DateTimeOffset} {job : JobRecord}
    (step
      : LedgerStep visible nextDue ambient ledger
          (.tryClaimNextDueJob now workerId leaseExpiresAt) (.job (some job)) next)
    (id : Guid)
    : next.events id
      = ledger.events id ++ (if job.id = id then [.started job.attemptCount] else []) := by
  generalize answered : StoreAnswer.job (some job) = answer at step
  cases step with
  | @claimed _ _ _ picked due stored seen ready valid =>
      cases answered
      have one : RecordStep nextDue ambient (.tryClaimNextDueJob now workerId leaseExpiresAt)
          picked _ :=
        .claimed due ready valid
      rw [Ledger.events_set, one.id_eq]
      split
      · rename_i same
        rw [one.events, eventsFrom_claim, one.attemptCount_eq, picked.countP_claim,
          Ledger.events, ← same, stored]
        rfl
      · exact (List.append_nil _).symm
  | revised => cases answered
  | nothingClaimed | refused | conflicted | threw => cases answered

/-- A claim that is not granted leaves the ledger. -/
theorem LedgerStep.eq_of_noJob {now : DateTimeOffset} {workerId : String}
    {leaseExpiresAt : DateTimeOffset}
    (step
      : LedgerStep visible nextDue ambient ledger
          (.tryClaimNextDueJob now workerId leaseExpiresAt) answer next)
    (nothing : ∀ job, answer ≠ .job (some job))
    : next = ledger := by
  cases step with
  | claimed => exact absurd rfl (nothing _)
  | revised revises => cases revises
  | nothingClaimed | refused | conflicted | threw => rfl

/-- The events a completion reports for the attempt of a snapshot. -/
def JobLifecycleService.completionEvents (snapshot : JobRecord)
    (completion : JobExecutionCompletion)
    : List JobEvent :=
  match completion.status with
  | .completed => [.completed snapshot.attemptCount]
  | .retryScheduled =>
      [.failed snapshot.attemptCount completion.failureReason,
        .retryScheduled completion.retryScheduledAt]
  | .failed => [.failed snapshot.attemptCount completion.failureReason]
  | .leaseLost => []

/-- The entries a completion call appends show as the events of its completion, once the job
has run.
-/
theorem JobLifecycleService.eventsFrom_completion {definitions : IJobDefinitionRegistry}
    {utcNow : DateTimeOffset} {snapshot : JobRecord} {result : JobExecutionResult}
    {completion : JobExecutionCompletion} (ambient : Ambient) (job : JobRecord)
    (issued : completionCall definitions utcNow snapshot result = .ok (call, completion))
    (ran : snapshot.attemptCount ≠ 0)
    : eventsFrom snapshot.attemptCount (call.appended ambient job)
      = completionEvents snapshot completion := by
  have retries (scheduledAt : DateTimeOffset)
      : (JobStateChange.scheduled ambient.newGuidAgain ambient.utcNow "Retry scheduled."
          scheduledAt).events snapshot.attemptCount
        = [.retryScheduled (some scheduledAt)] :=
    if_neg ran
  rcases completionCall_cases definitions utcNow snapshot result with ⟨-, same⟩ | ⟨-, -, same⟩
    | ⟨_, -, -, ⟨scheduledAt, -, same⟩ | ⟨_, -, same⟩⟩
  · cases issued.symm.trans same
    rfl
  · cases issued.symm.trans same
    rfl
  · cases issued.symm.trans same
    exact congrArg (fun events => JobEvent.failed _ _ :: (events ++ [])) (retries scheduledAt)
  · cases issued.symm.trans same

/-- A completion call appends the events of its completion if it is accepted, else nothing; an
accepted one finds the job as the snapshot shows it.
-/
theorem LedgerStep.events_of_completion {definitions : IJobDefinitionRegistry}
    {utcNow : DateTimeOffset} {snapshot : JobRecord} {result : JobExecutionResult}
    {completion : JobExecutionCompletion}
    (step : LedgerStep visible nextDue ambient ledger call answer next)
    (issued : completionCall definitions utcNow snapshot result = .ok (call, completion))
    (ran : snapshot.attemptCount ≠ 0)
    (owned
      : ∀ job,
          ledger.find? snapshot.id = some job
          → job.isRunningUnder snapshot.currentStateChangeId = true
          → job.history = snapshot.history)
    (id : Guid)
    : next.events id
      = ledger.events id
        ++ if answer = .flag true ∧ snapshot.id = id then
            completionEvents snapshot completion
          else
            [] := by
  obtain ⟨revision, revises, sameId, tests⟩ := (completionCall_carries issued).revision ambient
  cases step with
  | @revised _ found job again stored seen enabled =>
      cases revises.symm.trans again
      have one : RecordStep nextDue ambient call job _ :=
        .ofRevision revises (KeyedTable.find?_key stored) enabled
      have history := owned job (sameId ▸ stored) (tests job enabled)
      have attempts : job.attemptCount = snapshot.attemptCount := by
        rw [JobRecord.attemptCount, history]
        rfl
      rw [Ledger.events_set, one.id_eq, KeyedTable.find?_key stored, sameId]
      by_cases same : snapshot.id = id
      · rw [if_pos same, if_pos ⟨rfl, same⟩, one.events, attempts,
          eventsFrom_completion ambient job issued ran, Ledger.events, ← same, ← sameId, stored]
        rfl
      · rw [if_neg same, if_neg (fun both => same both.2), List.append_nil]
  | refused | conflicted | threw => simp
  | added | got | listed | claimed | nothingClaimed => cases revises

end Steps

end JobScheduler
