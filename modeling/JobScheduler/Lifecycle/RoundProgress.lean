import JobScheduler.Ledger.Lifecycle

/-! How one job progresses through rounds, each a claim and a completion with the next result
of its handler: what the record shows while it waits, while it runs, and after the end, and
which round is the last one.
-/

namespace JobScheduler

open JobLifecycleService

/-- One round: the arguments and readings of a claim, and those of its completion. -/
structure Round (Caller : Type) where
  caller : Caller
  claimAmbient : Ambient
  now : DateTimeOffset
  workerId : String
  leaseExpiresAt : DateTimeOffset
  completionAmbient : Ambient
  utcNow : DateTimeOffset
  result : JobExecutionResult

-----------------------------------------------------------------------------------------
-- The statuses rounds record
-----------------------------------------------------------------------------------------

/-- What a claim records ahead of its `Running` entry. -/
def queuedBefore : JobStatus → List JobStatus
  | .scheduled => [.queued]
  | _ => []

theorem count_queuedBefore (status : JobStatus) : (queuedBefore status).count .running = 0 := by
  cases status <;> rfl

/-- What a number of retried rounds records, up to the requeueing of the job. -/
def retriedStatuses (count : Nat) : List JobStatus :=
  (List.replicate count [.running, .failed, .scheduled, .queued]).flatten

/-- One more retried round, at the end. -/
theorem retriedStatuses_succ (count : Nat)
    : retriedStatuses (count + 1)
      = retriedStatuses count ++ [.running, .failed, .scheduled, .queued] := by
  simp [retriedStatuses, List.replicate_succ']

/-- Every retried round counts as one attempt, by induction on their number. -/
theorem count_retriedStatuses (count : Nat)
    : (retriedStatuses count).count .running = count := by
  induction count with
  | zero => rfl
  | succ count ih =>
      rw [retriedStatuses_succ, List.count_append, ih]
      rfl

namespace JobRecord

/-- A claim records that a scheduled job is queued, and that the job runs. -/
theorem statuses_claimedUnder (job : JobRecord) (ambient : Ambient) (now : DateTimeOffset)
    (workerId : String) (leaseExpiresAt : DateTimeOffset)
    : (job.claimedUnder ambient now workerId leaseExpiresAt).statuses
      = job.statuses ++ queuedBefore job.status ++ [.running] := by
  obtain ⟨last, -, -, record⟩ := job.claimedUnder_eq ambient now workerId leaseExpiresAt
  rw [record, statuses, statuses_numbered, List.map_append, List.append_assoc, statuses]
  congr 1
  cases status : job.status <;> simp only [StoreCall.appended, status] <;> rfl

end JobRecord

-----------------------------------------------------------------------------------------
-- One run of a job
-----------------------------------------------------------------------------------------

namespace JobRecord

/-- The records are of one job in the same run: a lease or an acknowledgement may differ. -/
structure SameRun (job later : JobRecord) : Prop extends SameTerms job later where
  type : later.type = job.type
  status : later.status = job.status
  runAt : later.runAt = job.runAt
  failureReason : later.failureReason = job.failureReason
  currentStateChangeId : later.currentStateChangeId = job.currentStateChangeId
  history : later.history = job.history

theorem SameRun.refl (job : JobRecord) : job.SameRun job :=
  ⟨.refl job, rfl, rfl, rfl, rfl, rfl, rfl⟩

theorem SameRun.trans {first second third : JobRecord} (head : first.SameRun second)
    (tail : second.SameRun third)
    : first.SameRun third where
  toSameTerms := head.toSameTerms.trans tail.toSameTerms
  type := tail.type.trans head.type
  status := tail.status.trans head.status
  runAt := tail.runAt.trans head.runAt
  failureReason := tail.failureReason.trans head.failureReason
  currentStateChangeId := tail.currentStateChangeId.trans head.currentStateChangeId
  history := tail.history.trans head.history

end JobRecord

-----------------------------------------------------------------------------------------
-- Progress through the rounds
-----------------------------------------------------------------------------------------

section Progress

variable {Caller : Type} (definition : IJobDefinition) (job : JobRecord)
  (rounds : List (Round Caller)) (stored : JobRecord)

/-- The job waits for its next round; every round so far failed and was retried. -/
structure AwaitsRound : Prop where
  left : (rounds.length : Int) < job.maxAttempts
  failed : ∀ round ∈ rounds, round.result.succeeded = false
  pending : stored.isPending = true
  statuses
    : stored.statuses ++ queuedBefore stored.status
      = job.statuses ++ queuedBefore job.status ++ retriedStatuses rounds.length
  runAt
    : ∀ round,
        rounds.getLast? = some round
        → ∃ runAt,
            round.utcNow.add definition.retryPolicy.delay = .ok runAt
            ∧ stored.runAt = some runAt

/-- The last round ended the job: it succeeded, or it failed for the last time allowed. -/
inductive EndedRounds : Prop
  | ended {earlier : List (Round Caller)} {last : Round Caller}
    (split : rounds = earlier ++ [last]) (left : (earlier.length : Int) < job.maxAttempts)
    (failed : ∀ round ∈ earlier, round.result.succeeded = false)
    (statuses
      : stored.statuses
        = job.statuses ++ queuedBefore job.status ++ retriedStatuses earlier.length
          ++ [.running, stored.status])
    (outcome
      : last.result.succeeded = true ∧ stored.status = .completed
        ∨ last.result.succeeded = false
          ∧ job.maxAttempts = rounds.length
          ∧ stored.status = .failed
          ∧ stored.failureReason = some (failureReasonOf last.result))

/-- The job runs in its next round; every round before failed and was retried. -/
structure RunsRound : Prop where
  terms : job.SameTerms stored
  type : stored.type = job.type
  left : (rounds.length : Int) < job.maxAttempts
  failed : ∀ round ∈ rounds, round.result.succeeded = false
  running : stored.status = .running
  statuses
    : stored.statuses
      = job.statuses ++ queuedBefore job.status ++ retriedStatuses rounds.length ++ [.running]

/-- What is stored of the job after some rounds. -/
structure RoundProgress : Prop where
  terms : job.SameTerms stored
  type : stored.type = job.type
  phase : AwaitsRound definition job rounds stored ∨ EndedRounds job rounds stored

variable {definition job rounds stored}

/-- Progress shows in nothing that a renewal or an acknowledgement changes. -/
theorem RoundProgress.sameRun {later : JobRecord}
    (progress : RoundProgress definition job rounds stored) (same : stored.SameRun later)
    : RoundProgress definition job rounds later := by
  have statuses : later.statuses = stored.statuses := by
    rw [JobRecord.statuses, JobRecord.statuses, same.history]
  obtain ⟨terms, type, phase⟩ := progress
  refine ⟨terms.trans same.toSameTerms, same.type.trans type, ?_⟩
  rcases phase with ⟨left, failed, pending, shown, runAt⟩ | ⟨split, left, failed, shown, outcome⟩
  · refine Or.inl ⟨left, failed, ?_, ?_, ?_⟩
    · rw [JobRecord.isPending, same.status]
      exact pending
    · rw [statuses, same.status]
      exact shown
    · rw [same.runAt]
      exact runAt
  · refine Or.inr (.ended split left failed ?_ ?_)
    · rw [statuses, same.status]
      exact shown
    · rw [same.status, same.failureReason]
      exact outcome

theorem RunsRound.sameRun {later : JobRecord} (runs : RunsRound job rounds stored)
    (same : stored.SameRun later)
    : RunsRound job rounds later where
  terms := runs.terms.trans same.toSameTerms
  type := same.type.trans runs.type
  left := runs.left
  failed := runs.failed
  running := same.status.trans runs.running
  statuses := by
    rw [JobRecord.statuses, same.history]
    exact runs.statuses

/-- The job is settled once its rounds have ended. -/
theorem EndedRounds.isSettled (ended : EndedRounds job rounds stored)
    : stored.isSettled = true := by
  obtain ⟨-, -, -, -, ⟨-, completed⟩ | ⟨-, -, failed, -⟩⟩ := ended
  · simp [JobRecord.isSettled, completed]
  · simp [JobRecord.isSettled, failed]

/-- A new job awaits its first round. -/
theorem RoundProgress.newlyMade (new : job.NewlyMade)
    : RoundProgress definition job ([] : List (Round Caller)) job where
  terms := .refl job
  type := rfl
  phase := by
    obtain ⟨pending, -⟩ := new.waits
    obtain ⟨-, -, -, -, -, -, -, -, -, atLeastOne⟩ := new.cases
    refine Or.inl ⟨?_, ?_, pending, ?_, ?_⟩
    · simp only [List.length_nil]
      omega
    · intro round member
      cases member
    · simp [retriedStatuses]
    · intro round last
      cases last

/-- A claim of the job starts its next round; a job whose rounds ended cannot be claimed. -/
theorem RoundProgress.claimed (progress : RoundProgress definition job rounds stored)
    {ambient : Ambient} {now : DateTimeOffset} {workerId : String}
    {leaseExpiresAt : DateTimeOffset}
    (ready : stored.isPending = true ∨ stored.LeaseExpired now)
    : RunsRound job rounds (stored.claimedUnder ambient now workerId leaseExpiresAt) := by
  obtain ⟨terms, type, awaits | ended⟩ := progress
  · obtain ⟨last, -, -, record⟩ := stored.claimedUnder_eq ambient now workerId leaseExpiresAt
    constructor
    · rw [record]
      exact ⟨terms.id, terms.tenantId, terms.createdByActorId, terms.maxAttempts⟩
    · rw [record]
      exact type
    · exact awaits.left
    · exact awaits.failed
    · exact stored.claimedUnder_status ambient now workerId leaseExpiresAt
    · rw [JobRecord.statuses_claimedUnder, awaits.statuses]
  · have settled := ended.isSettled
    rcases ready with pending | ⟨running, -⟩
    · cases (JobRecord.isSettled_of_pending pending).symm.trans settled
    · cases (JobRecord.isSettled_of_running running).symm.trans settled

/-- No run is recorded ahead of the first round. -/
theorem JobRecord.NewlyMade.count_opening (new : job.NewlyMade)
    : (job.statuses ++ queuedBefore job.status).count .running = 0 := by
  obtain ⟨pending, first⟩ := new.waits
  rw [first]
  cases status : job.status <;> first | rfl | simp [JobRecord.isPending, status] at pending

/-- The attempts a run shows are the rounds before it and its own. -/
theorem RunsRound.attemptCount (runs : RunsRound job rounds stored) (new : job.NewlyMade)
    : stored.attemptCount = rounds.length + 1 := by
  rw [JobRecord.attemptCount_eq_count, runs.statuses, List.count_append, List.count_append,
    new.count_opening, count_retriedStatuses, Nat.zero_add]
  rfl

section Outcomes

variable {nextDue : DateTimeOffset → Option JobRecord} {ambient : Ambient} {id token : Guid}
  {round : Round Caller}

/-- A success ends the rounds. -/
theorem RunsRound.succeeded (runs : RunsRound job rounds stored)
    (step
      : RecordStep nextDue ambient (.markCompleted id token) stored
          (stored.markedCompleted ambient.newGuid ambient.utcNow))
    (succeeded : round.result.succeeded = true)
    : RoundProgress definition job (rounds ++ [round])
        (stored.markedCompleted ambient.newGuid ambient.utcNow) where
  terms := runs.terms.trans step.sameTerms
  type := step.type_eq.trans runs.type
  phase := by
    refine Or.inr (.ended rfl runs.left runs.failed ?_ (Or.inl ⟨succeeded, rfl⟩))
    rw [step.statuses_eq, runs.statuses, List.append_assoc]
    rfl

/-- A failure with no attempt left ends the rounds. -/
theorem RunsRound.exhausted (runs : RunsRound job rounds stored) {reason : String}
    (step
      : RecordStep nextDue ambient (.markFailed id token reason) stored
          (stored.transitionToFailed ambient.newGuid reason ambient.utcNow))
    (failed : round.result.succeeded = false) (given : failureReasonOf round.result = reason)
    (last : job.maxAttempts = (rounds ++ [round]).length)
    : RoundProgress definition job (rounds ++ [round])
        (stored.transitionToFailed ambient.newGuid reason ambient.utcNow) where
  terms := runs.terms.trans step.sameTerms
  type := step.type_eq.trans runs.type
  phase := by
    refine Or.inr (.ended rfl runs.left runs.failed ?_ (Or.inr ⟨failed, last, rfl, ?_⟩))
    · rw [step.statuses_eq, runs.statuses, List.append_assoc]
      rfl
    · rw [given]
      rfl

/-- A failure with attempts left leaves the job waiting for its next round. -/
theorem RunsRound.retried (runs : RunsRound job rounds stored) {reason : String}
    {scheduledAt : DateTimeOffset}
    (step
      : RecordStep nextDue ambient (.scheduleRetry id token reason scheduledAt) stored
          (stored.scheduleRetry ambient.newGuid ambient.newGuidAgain reason ambient.utcNow
            scheduledAt))
    (failed : round.result.succeeded = false)
    (added : round.utcNow.add definition.retryPolicy.delay = .ok scheduledAt)
    (left : ((rounds ++ [round]).length : Int) < job.maxAttempts)
    : RoundProgress definition job (rounds ++ [round])
        (stored.scheduleRetry ambient.newGuid ambient.newGuidAgain reason ambient.utcNow
          scheduledAt) where
  terms := runs.terms.trans step.sameTerms
  type := step.type_eq.trans runs.type
  phase := by
    refine Or.inl ⟨left, ?_, rfl, ?_, ?_⟩
    · intro other member
      rcases List.mem_append.mp member with earlier | this
      · exact runs.failed other earlier
      · rw [List.mem_singleton.mp this]
        exact failed
    · rw [step.statuses_eq, runs.statuses, List.length_append, List.length_singleton,
        retriedStatuses_succ]
      simp only [List.append_assoc]
      rfl
    · intro last final
      rw [List.getLast?_concat] at final
      cases final
      exact ⟨scheduledAt, added, rfl⟩

end Outcomes

end Progress

-----------------------------------------------------------------------------------------
-- The round that decides
-----------------------------------------------------------------------------------------

/-- The `k`-th result, counted from one, is the first success. -/
def FirstSuccess (results : Nat → JobExecutionResult) (k : Nat) : Prop :=
  1 ≤ k
  ∧ (results k).succeeded = true
  ∧ ∀ index, 1 ≤ index → index < k → (results index).succeeded = false

/-- Of at most `n` rounds, the one with the given number is the first to succeed, or it is
the last one allowed.
-/
structure Decides (results : Nat → JobExecutionResult) (n last : Nat) : Prop where
  positive : 1 ≤ last
  allowed : last ≤ n
  failed : ∀ index, 1 ≤ index → index < last → (results index).succeeded = false
  ends : (results last).succeeded = true ∨ last = n

theorem FirstSuccess.decides {results : Nat → JobExecutionResult} {n k : Nat}
    (first : FirstSuccess results k) (allowed : k ≤ n)
    : Decides results n k :=
  ⟨first.1, allowed, first.2.2, Or.inl first.2.1⟩

section Decided

variable {Caller : Type}

/-- The rounds take the results in turn. -/
def InTurn (results : Nat → JobExecutionResult) (rounds : List (Round Caller)) : Prop :=
  ∀ index round, rounds[index]? = some round → round.result = results (index + 1)

variable {definition : IJobDefinition} {job stored : JobRecord}
  {results : Nat → JobExecutionResult} {rounds : List (Round Caller)} {n last : Nat}

theorem InTurn.failed (inTurn : InTurn results rounds)
    (failed : ∀ round ∈ rounds, round.result.succeeded = false) {index : Nat}
    (positive : 1 ≤ index) (within : index ≤ rounds.length)
    : (results index).succeeded = false := by
  have inside : index - 1 < rounds.length := by omega
  have shown := inTurn (index - 1) _ (List.getElem?_eq_getElem inside)
  rw [Nat.sub_add_cancel positive] at shown
  rw [← shown]
  exact failed _ (List.getElem_mem inside)

/-- A job that awaits a round has not come to the deciding one. -/
theorem AwaitsRound.before (awaits : AwaitsRound definition job rounds stored)
    (inTurn : InTurn results rounds) (bound : job.maxAttempts = n)
    (decides : Decides results n last)
    : rounds.length < last := by
  have left := awaits.left
  by_contra beyond
  have failed := inTurn.failed awaits.failed decides.positive (not_lt.mp beyond)
  rcases decides.ends with succeeded | final
  · cases failed.symm.trans succeeded
  · omega

/-- Every round so far is an attempt of the stored job. -/
theorem RoundProgress.attemptCount (progress : RoundProgress definition job rounds stored)
    (new : job.NewlyMade)
    : stored.attemptCount = rounds.length := by
  have opening := new.count_opening
  rw [JobRecord.attemptCount_eq_count]
  rcases progress.phase with awaits | ended
  · have counted := congrArg (List.count .running) awaits.statuses
    rw [List.count_append, List.count_append, opening, count_queuedBefore,
      count_retriedStatuses] at counted
    omega
  · cases ended with
    | ended split _ _ statuses outcome =>
        have idle : [JobStatus.running, stored.status].count .running = 1 := by
          rcases outcome with ⟨-, completed⟩ | ⟨-, -, failed, -⟩
          · rw [completed]
            rfl
          · rw [failed]
            rfl
        rw [statuses, List.count_append, List.count_append, opening, count_retriedStatuses,
          idle, split, List.length_append, List.length_singleton, Nat.zero_add]

end Decided

end JobScheduler
