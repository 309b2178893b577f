import JobScheduler.Persistence.RowWrites

/-! The calls that load a job, compute a transition of it and write the result back under a
guard. They are taken apart at the point where the write begins, so that a write can meet
another database than the one its load has seen.
-/

namespace JobScheduler

open Library SqliteJobStore

/-- The call reports that it changed a job. -/
def StoreAnswer.accepted : StoreAnswer → Bool
  | .flag accepted => accepted
  | .job found => found.isSome
  | .done | .jobs _ | .threw _ => false

/-- A call of the store with a load and a conditional write. -/
inductive GuardedCall
  | tryClaimNextDueJob (now : DateTimeOffset) (workerId : String)
      (leaseExpiresAt : DateTimeOffset)
  | markCompleted (id expectedCurrentStateChangeId : Guid)
  | markFailed (id expectedCurrentStateChangeId : Guid) (reason : String)
  | scheduleRetry (id expectedCurrentStateChangeId : Guid) (reason : String)
      (scheduledAt : DateTimeOffset)
  deriving DecidableEq, Repr

namespace GuardedCall

def toCall : GuardedCall → StoreCall
  | tryClaimNextDueJob now workerId leaseExpiresAt =>
      .tryClaimNextDueJob now workerId leaseExpiresAt
  | markCompleted id token => .markCompleted id token
  | markFailed id token reason => .markFailed id token reason
  | scheduleRetry id token reason scheduledAt => .scheduleRetry id token reason scheduledAt

section Load

variable (filter : QueryFilter) (db : Database)

/-- The running job that a completion, a failure or a retry goes on with. -/
def loadRunning (id : Guid) (mayWrite : JobRecord → Bool) : Except StoreAnswer JobRecord :=
  match loadJob filter id db with
  | none => .error (.flag false)
  | some job =>
      if job.status ≠ .running ∨ mayWrite job = false then .error (.flag false) else .ok job

/-- Up to the transition: the call has its answer already, or goes on with the loaded job. -/
def load : GuardedCall → Except StoreAnswer JobRecord
  | tryClaimNextDueJob now _ _ =>
      match nextDueJobId filter now db with
      | none => .error (.job none)
      | some jobId =>
          match loadJob filter jobId db with
          | none =>
              .error (.threw (.invalidOperation
                ("Due job query returned missing job '" ++ toString jobId ++ "'.")))
          | some job => .ok job
  | markCompleted id _ => loadRunning filter db id (fun _ => true)
  | markFailed id _ reason =>
      if isNullOrWhiteSpace reason then
        .error (.flag false)
      else
        loadRunning filter db id (fun _ => true)
  | scheduleRetry id _ reason _ =>
      if isNullOrWhiteSpace reason then
        .error (.flag false)
      else
        loadRunning filter db id (fun job => job.attemptCount < job.maxAttempts)

end Load

-----------------------------------------------------------------------------------------
-- The write
-----------------------------------------------------------------------------------------

/-- The transition of the loaded job. A scheduled job is queued before it is claimed. -/
def transition (ambient : Ambient) (job : JobRecord)
    : GuardedCall → Except SchedulerException JobRecord
  | tryClaimNextDueJob now workerId leaseExpiresAt =>
      if job.status = .running then
        job.reclaimExpiredLease ambient.newGuid workerId now leaseExpiresAt
      else
        let queued :=
          if job.status = .scheduled then
            job.transitionTo ambient.newGuid .queued now
          else
            .ok job
        let claimGuid :=
          if job.status = .scheduled then ambient.newGuidAgain else ambient.newGuid
        match queued with
        | .error exception => .error exception
        | .ok queuedJob =>
            if queuedJob.status ≠ .queued then
              .error (.invalidOperation
                ("Pending job query returned non-runnable job '" ++ toString queuedJob.id
                  ++ "' with status '" ++ toString queuedJob.status ++ "'."))
            else
              queuedJob.claim claimGuid workerId now leaseExpiresAt
  | markCompleted _ _ => job.transitionTo ambient.newGuid .completed ambient.utcNow
  | markFailed _ _ reason =>
      .ok (job.transitionToFailed ambient.newGuid reason ambient.utcNow)
  | scheduleRetry _ _ reason scheduledAt =>
      .ok (job.scheduleRetry ambient.newGuid ambient.newGuidAgain reason ambient.utcNow
        scheduledAt)

/-- What the guard compares with `Id`. -/
def jobId (job : JobRecord) : GuardedCall → Guid
  | tryClaimNextDueJob _ _ _ => job.id
  | markCompleted id _ | markFailed id _ _ | scheduleRetry id _ _ _ => id

/-- What the guard compares with `Status`. -/
def expectedStatus (job : JobRecord) : GuardedCall → JobStatus
  | tryClaimNextDueJob _ _ _ => job.status
  | markCompleted _ _ | markFailed _ _ _ | scheduleRetry _ _ _ _ => .running

/-- What the guard compares with `CurrentStateChangeId`. -/
def expectedToken (job : JobRecord) : GuardedCall → Guid
  | tryClaimNextDueJob _ _ _ => job.currentStateChangeId
  | markCompleted _ token | markFailed _ token _ | scheduleRetry _ token _ _ => token

/-- The columns set by the conditional write. -/
def setProperties (job updatedJob : JobRecord) : GuardedCall → JobRow → JobRow
  | tryClaimNextDueJob _ _ _ =>
      if job.status = .running then
        setReclaimed updatedJob
      else
        setTransition .running updatedJob
  | markCompleted _ _ => setTransition .completed updatedJob
  | markFailed _ _ _ => setFailure .failed updatedJob
  | scheduleRetry _ _ _ _ => setFailure .scheduled updatedJob

theorem setProperties_id (job updatedJob : JobRecord) (call : GuardedCall) (row : JobRow)
    : (call.setProperties job updatedJob row).id = row.id := by
  cases call with
  | tryClaimNextDueJob =>
      unfold setProperties
      split_ifs <;> rfl
  | markCompleted | markFailed | scheduleRetry => rfl

/-- The answer when the guard selects no row. -/
def missed : GuardedCall → StoreAnswer
  | tryClaimNextDueJob _ _ _ => .job none
  | markCompleted _ _ | markFailed _ _ _ | scheduleRetry _ _ _ _ => .flag false

/-- The answer after the commit. -/
def committed (filter : QueryFilter) (job : JobRecord) (db : Database)
    : GuardedCall → StoreAnswer
  | tryClaimNextDueJob _ _ _ => .job (loadJob filter job.id db)
  | markCompleted _ _ | markFailed _ _ _ | scheduleRetry _ _ _ _ => .flag true

/-- From the transition on: what the call does with the loaded job in the database that its
write meets.
-/
def write (filter : QueryFilter) (ambient : Ambient) (call : GuardedCall) (job : JobRecord)
    (db : Database)
    : StoreAnswer × Database :=
  match call.transition ambient job with
  | .error exception => (.threw exception, db)
  | .ok updatedJob =>
      match tryPersistTransition filter (call.jobId job) (call.expectedStatus job)
          (call.expectedToken job) updatedJob job.history.length
          (call.setProperties job updatedJob) (call.setProperties_id job updatedJob) db with
      | .error exception => (.threw exception, db)
      | .ok none => (call.missed, db)
      | .ok (some next) => (call.committed filter updatedJob next, next)

-----------------------------------------------------------------------------------------
-- Load and write make the call
-----------------------------------------------------------------------------------------

section Calls

variable {filter : QueryFilter} {ambient : Ambient} {db : Database} {job : JobRecord}

/-- A transition that throws leaves the database. -/
theorem write_of_error {call : GuardedCall} {exception : SchedulerException}
    (threw : call.transition ambient job = .error exception)
    : call.write filter ambient job db = (.threw exception, db) := by
  simp only [write, threw]

/-- The commit of a claim is a write with the claim's guard. -/
theorem write_claim {call : GuardedCall} {updatedJob : JobRecord}
    {setColumns : JobRow → JobRow} {keepsKey : ∀ row, (setColumns row).id = row.id}
    (computed : call.transition ambient job = .ok updatedJob)
    (columns : call.setProperties job updatedJob = setColumns)
    (claims : ∃ now workerId leaseExpiresAt,
      call = tryClaimNextDueJob now workerId leaseExpiresAt)
    (sameId : updatedJob.id = job.id)
    : call.write filter ambient job db
      = (commitClaim filter job updatedJob setColumns keepsKey db).map (.of .job) id := by
  obtain ⟨now, workerId, leaseExpiresAt, rfl⟩ := claims
  subst columns
  simp only [write, computed, commitClaim, jobId, expectedStatus, expectedToken, sameId]
  rcases tryPersistTransition filter job.id job.status job.currentStateChangeId updatedJob
    job.history.length _ _ db with _ | _ | next
  · rfl
  · rfl
  · simp only [committed, sameId]
    rfl

/-- The commit of another transition is a write under the caller's token. -/
theorem write_transition {call : GuardedCall} {updatedJob : JobRecord}
    {setColumns : JobRow → JobRow} {keepsKey : ∀ row, (setColumns row).id = row.id}
    (computed : call.transition ambient job = .ok updatedJob)
    (columns : call.setProperties job updatedJob = setColumns)
    (running : call.expectedStatus job = .running)
    (flags
      : call.missed = .flag false ∧ ∀ next, call.committed filter updatedJob next = .flag true)
    : call.write filter ambient job db
      = (commitTransition filter (call.jobId job) (call.expectedToken job) job updatedJob
          setColumns keepsKey db).map (.of .flag) id := by
  subst columns
  simp only [write, computed, commitTransition, running, flags.1]
  rcases tryPersistTransition filter (call.jobId job) .running (call.expectedToken job)
    updatedJob job.history.length _ _ db with _ | _ | next
  · rfl
  · rfl
  · simp only [flags.2]
    rfl

/-- The claim of a job that is not running writes its transition, by cases on its status. -/
theorem claimPendingJob_eq {now : DateTimeOffset} {workerId : String}
    {leaseExpiresAt : DateTimeOffset} (idle : job.status ≠ .running)
    : (claimPendingJob filter ambient now workerId leaseExpiresAt job db).map (.of .job) id
      = (tryClaimNextDueJob now workerId leaseExpiresAt).write filter ambient job db := by
  have columns (updatedJob : JobRecord)
      : (tryClaimNextDueJob now workerId leaseExpiresAt).setProperties job updatedJob
        = setTransition .running updatedJob :=
    if_neg idle
  cases status : job.status with
  | queued =>
      have computed : (tryClaimNextDueJob now workerId leaseExpiresAt).transition ambient job
          = job.claim ambient.newGuid workerId now leaseExpiresAt := by
        simp only [transition, status, reduceCtorEq, if_false, ne_eq, not_true_eq_false]
      simp only [claimPendingJob, status, reduceCtorEq, if_false, ne_eq, not_true_eq_false]
      cases claimed : job.claim ambient.newGuid workerId now leaseExpiresAt with
      | error exception => exact (write_of_error (computed.trans claimed)).symm
      | ok runningJob =>
          refine (write_claim (computed.trans claimed) (columns runningJob) ⟨_, _, _, rfl⟩
            ?_).symm
          rw [(JobRecord.claim_ok claimed).2]
          rfl
  | scheduled =>
      have queued : (job.requeued ambient.newGuid now).status = .queued := rfl
      have computed : (tryClaimNextDueJob now workerId leaseExpiresAt).transition ambient job
          = (job.requeued ambient.newGuid now).claim ambient.newGuidAgain workerId now
              leaseExpiresAt := by
        simp only [transition, status, reduceCtorEq, if_false, if_true,
          JobRecord.transitionTo_queued, queued, ne_eq, not_true_eq_false]
      simp only [claimPendingJob, status, if_true, JobRecord.transitionTo_queued, queued,
        ne_eq, not_true_eq_false, if_false]
      cases claimed : (job.requeued ambient.newGuid now).claim ambient.newGuidAgain workerId
          now leaseExpiresAt with
      | error exception => exact (write_of_error (computed.trans claimed)).symm
      | ok runningJob =>
          refine (write_claim (computed.trans claimed) (columns runningJob) ⟨_, _, _, rfl⟩
            ?_).symm
          rw [(JobRecord.claim_ok claimed).2]
          rfl
  | running => exact absurd status idle
  | completed | failed =>
      simp [claimPendingJob, write, transition, status]

/-- A call is its load followed by its write in the same database, one kind of call at a
time.
-/
theorem call_eq (call : GuardedCall)
    : (methods filter).call ambient call.toCall db
      = match call.load filter db with
        | .error answer => (answer, db)
        | .ok job => call.write filter ambient job db := by
  cases call with
  | tryClaimNextDueJob now workerId leaseExpiresAt =>
      simp only [toCall, IJobStore.call, methods, SqliteJobStore.tryClaimNextDueJob, load]
      cases picked : nextDueJobId filter now db with
      | none => rfl
      | some jobId =>
          cases loaded : loadJob filter jobId db with
          | none =>
              simp only [loaded]
              rfl
          | some job =>
              simp only [loaded]
              by_cases running : job.status = .running
              · rw [if_pos running]
                have computed
                    : (tryClaimNextDueJob now workerId leaseExpiresAt).transition ambient job
                      = job.reclaimExpiredLease ambient.newGuid workerId now leaseExpiresAt :=
                  if_pos running
                cases reclaimed : job.reclaimExpiredLease ambient.newGuid workerId now
                    leaseExpiresAt with
                | error exception => exact (write_of_error (computed.trans reclaimed)).symm
                | ok reclaimedJob =>
                    refine (write_claim (computed.trans reclaimed) (if_pos running)
                      ⟨_, _, _, rfl⟩ ?_).symm
                    rw [(JobRecord.reclaim_ok reclaimed).2.2]
                    rfl
              · rw [if_neg running]
                exact claimPendingJob_eq running
  | markCompleted id token =>
      simp only [toCall, IJobStore.call, methods, SqliteJobStore.markCompleted, load,
        loadRunning]
      cases loadJob filter id db with
      | none => rfl
      | some job =>
          by_cases running : job.status = .running
          · simp only [running, ne_eq, not_true_eq_false, if_false, or_self,
              Bool.true_eq_false, JobRecord.transitionTo_completed]
            exact (@write_transition _ ambient _ _ (markCompleted id token) _ _ _ rfl rfl rfl
              ⟨rfl, fun _ => rfl⟩).symm
          · simp [running]
  | markFailed id token reason =>
      by_cases blank : isNullOrWhiteSpace reason
      · simp [toCall, IJobStore.call, methods, SqliteJobStore.markFailed, load, blank]
      · simp only [toCall, IJobStore.call, methods, SqliteJobStore.markFailed, load,
          loadRunning, blank]
        cases loadJob filter id db with
        | none => rfl
        | some job =>
            by_cases running : job.status = .running
            · simp only [running, ne_eq, not_true_eq_false, if_false, or_self,
                Bool.false_eq_true, Bool.true_eq_false]
              exact (@write_transition _ ambient _ _ (markFailed id token reason) _ _ _ rfl rfl
                rfl ⟨rfl, fun _ => rfl⟩).symm
            · simp [running]
  | scheduleRetry id token reason scheduledAt =>
      by_cases blank : isNullOrWhiteSpace reason
      · simp [toCall, IJobStore.call, methods, SqliteJobStore.scheduleRetry, load, blank]
      · simp only [toCall, IJobStore.call, methods, SqliteJobStore.scheduleRetry, load,
          loadRunning, blank]
        cases loadJob filter id db with
        | none => rfl
        | some job =>
            by_cases running : job.status = .running
            · by_cases usedUp : job.maxAttempts ≤ job.attemptCount
              · simp [running, usedUp]
              · simp only [running, usedUp, ne_eq, not_true_eq_false, or_self, if_false,
                  Bool.false_eq_true, not_le.mp usedUp, decide_true, Bool.true_eq_false]
                exact (@write_transition _ ambient _ _
                  (scheduleRetry id token reason scheduledAt) _ _ _ rfl rfl rfl
                  ⟨rfl, fun _ => rfl⟩).symm
            · simp [running]

end Calls

-----------------------------------------------------------------------------------------
-- Transitions and their columns
-----------------------------------------------------------------------------------------

section Transitions

variable {ambient : Ambient} {job updatedJob : JobRecord}

/-- A claim that computes a record met a job that is pending or expired, one status at a
time.
-/
theorem transition_claim_ok {now : DateTimeOffset} {workerId : String}
    {leaseExpiresAt : DateTimeOffset}
    (computed
      : (tryClaimNextDueJob now workerId leaseExpiresAt).transition ambient job
        = .ok updatedJob)
    : updatedJob = job.claimedUnder ambient now workerId leaseExpiresAt
      ∧ (job.isPending = true ∨ job.LeaseExpired now)
      ∧ JobRecord.ValidClaim workerId now leaseExpiresAt := by
  cases status : job.status with
  | running =>
      rw [transition, if_pos status] at computed
      obtain ⟨expired, valid, rfl⟩ := JobRecord.reclaim_ok computed
      exact ⟨by simp only [JobRecord.claimedUnder, status], Or.inr expired, valid⟩
  | queued =>
      simp only [transition, status, reduceCtorEq, if_false, ne_eq, not_true_eq_false]
        at computed
      obtain ⟨valid, rfl⟩ := JobRecord.claim_ok computed
      exact ⟨by simp only [JobRecord.claimedUnder, status],
        Or.inl (by simp [JobRecord.isPending, status]), valid⟩
  | scheduled =>
      have queued : (job.requeued ambient.newGuid now).status = .queued := rfl
      simp only [transition, status, reduceCtorEq, if_false, if_true,
        JobRecord.transitionTo_queued, queued, ne_eq, not_true_eq_false] at computed
      obtain ⟨valid, rfl⟩ := JobRecord.claim_ok computed
      exact ⟨by simp only [JobRecord.claimedUnder, status],
        Or.inl (by simp [JobRecord.isPending, status]), valid⟩
  | completed | failed => simp [transition, status] at computed

/-- A transition extends the history and takes its last entry as the current one, one kind of
call at a time.
-/
theorem transition_history {call : GuardedCall}
    (computed : call.transition ambient job = .ok updatedJob)
    : updatedJob.history = numbered (job.history ++ call.toCall.appended ambient job)
      ∧ ∃ last,
          (call.toCall.appended ambient job).getLast? = some last
          ∧ updatedJob.currentStateChangeId = last.id := by
  cases call with
  | tryClaimNextDueJob now workerId leaseExpiresAt =>
      obtain ⟨rfl, -⟩ := transition_claim_ok computed
      obtain ⟨last, final, -, record⟩ :=
        job.claimedUnder_eq ambient now workerId leaseExpiresAt
      rw [record]
      exact ⟨rfl, last, final, rfl⟩
  | markCompleted | markFailed | scheduleRetry =>
      cases computed
      exact ⟨rfl, _, rfl, rfl⟩

/-- The entries a transition adds to a numbered history have the call's identifiers, and the
last of them is the current one.
-/
theorem transition_entries {call : GuardedCall} (inOrder : job.Numbered)
    (computed : call.transition ambient job = .ok updatedJob)
    : updatedJob.history
        = job.history ++ updatedJob.history.drop job.history.length
      ∧ updatedJob.Numbered
      ∧ ((updatedJob.history.drop job.history.length).map JobStateChange.id).Sublist
          [ambient.newGuid, ambient.newGuidAgain]
      ∧ ((updatedJob.history.drop job.history.length).getLast?).map JobStateChange.id
        = some updatedJob.currentStateChangeId := by
  obtain ⟨history, last, final, current⟩ := transition_history computed
  obtain ⟨entries, extended, ids⟩ := inOrder.append (call.toCall.appended ambient job)
  have added : updatedJob.history.drop job.history.length = entries := by
    rw [history, extended, List.drop_left]
  have lastId : entries.getLast?.map JobStateChange.id = some last.id := by
    rw [← List.getLast?_map, ids, List.getLast?_map, final, Option.map_some]
  rw [added]
  refine ⟨history.trans extended, JobRecord.numbered_of_construct history, ?_, ?_⟩
  · rw [ids]
    exact call.toCall.appended_drawn ambient job
  · rw [lastId, current]

/-- A record a transition computed is not to be run at any time if it runs already. -/
theorem transition_idle {call : GuardedCall}
    (computed : call.transition ambient job = .ok updatedJob)
    : updatedJob.status = .running → updatedJob.runAt = none := by
  cases call with
  | tryClaimNextDueJob now workerId leaseExpiresAt =>
      obtain ⟨rfl, -⟩ := transition_claim_ok computed
      obtain ⟨last, -, -, record⟩ := job.claimedUnder_eq ambient now workerId leaseExpiresAt
      intro _
      rw [record]
  | markCompleted | markFailed | scheduleRetry =>
      cases computed
      exact nofun

/-- The columns written are those of the record, for a row that the guard selects. -/
theorem setProperties_columns {call : GuardedCall} {row : JobRow}
    (computed : call.transition ambient job = .ok updatedJob)
    (selected : row.status = call.expectedStatus job)
    (idle : row.status = .running → row.runAt = none)
    : (call.setProperties job updatedJob row).currentStateChangeId
        = updatedJob.currentStateChangeId
      ∧ (call.setProperties job updatedJob row).status = updatedJob.status
      ∧ (call.setProperties job updatedJob row).runAt = updatedJob.runAt
      ∧ (call.setProperties job updatedJob row).claimedBy = updatedJob.claimedBy
      ∧ (call.setProperties job updatedJob row).claimedAt = updatedJob.claimedAt
      ∧ (call.setProperties job updatedJob row).leaseExpiresAt
        = updatedJob.leaseExpiresAt := by
  cases call with
  | tryClaimNextDueJob now workerId leaseExpiresAt =>
      obtain ⟨rfl, -⟩ := transition_claim_ok computed
      obtain ⟨last, -, -, record⟩ := job.claimedUnder_eq ambient now workerId leaseExpiresAt
      by_cases running : job.status = .running
      · have held : row.status = .running := selected.trans running
        simp only [setProperties, running, if_true, setReclaimed, held, idle held, record,
          and_self]
      · simp only [setProperties, running, if_false, setTransition, record, and_self]
  | markCompleted | markFailed | scheduleRetry =>
      cases computed
      exact ⟨rfl, rfl, rfl, rfl, rfl, rfl⟩

/-- Written over the row of the job itself, the columns are all columns of the record. -/
theorem setProperties_ofRecord {call : GuardedCall}
    (computed : call.transition ambient job = .ok updatedJob)
    (idle : job.status = .running → job.runAt = none)
    : call.setProperties job updatedJob (.ofRecord job) = .ofRecord updatedJob := by
  cases call with
  | tryClaimNextDueJob now workerId leaseExpiresAt =>
      obtain ⟨rfl, -⟩ := transition_claim_ok computed
      obtain ⟨last, -, -, record⟩ := job.claimedUnder_eq ambient now workerId leaseExpiresAt
      by_cases running : job.status = .running
      · simp only [setProperties, running, if_true, setReclaimed, JobRow.ofRecord, record,
          idle running]
      · simp only [setProperties, running, if_false, setTransition, JobRow.ofRecord, record]
  | markCompleted | markFailed | scheduleRetry =>
      cases computed
      rfl

end Transitions

-----------------------------------------------------------------------------------------
-- What a load can do
-----------------------------------------------------------------------------------------

section Loads

variable {filter : QueryFilter} {db : Database} {job : JobRecord}

theorem loadRunning_ok {id : Guid} {mayWrite : JobRecord → Bool}
    (loaded : loadRunning filter db id mayWrite = .ok job)
    : loadJob filter id db = some job ∧ job.status = .running ∧ mayWrite job = true := by
  unfold loadRunning at loaded
  cases found : loadJob filter id db with
  | none =>
      rw [found] at loaded
      cases loaded
  | some other =>
      rw [found] at loaded
      by_cases refused : other.status ≠ .running ∨ mayWrite other = false
      · simp only [refused, if_true] at loaded
        cases loaded
      · simp only [refused, if_false] at loaded
        cases loaded
        rw [not_or, not_not, Bool.not_eq_false] at refused
        exact ⟨rfl, refused⟩

/-- A call goes on with a stored job that it can see and that may be written. -/
theorem load_ok {call : GuardedCall} (loaded : call.load filter db = .ok job)
    : db.ledger.find? job.id = some job
      ∧ visible filter job = true
      ∧ call.jobId job = job.id
      ∧ call.expectedStatus job = job.status := by
  have found (id : Guid) (shows : loadJob filter id db = some job)
      : db.ledger.find? job.id = some job ∧ visible filter job = true ∧ id = job.id := by
    obtain ⟨stored, seen⟩ := loadJob_eq_some.mp shows
    cases KeyedTable.find?_key stored
    exact ⟨stored, seen, rfl⟩
  cases call with
  | tryClaimNextDueJob now workerId leaseExpiresAt =>
      unfold load at loaded
      cases picked : nextDueJobId filter now db with
      | none =>
          simp only [picked] at loaded
          cases loaded
      | some jobId =>
          cases shows : loadJob filter jobId db with
          | none =>
              simp only [picked, shows] at loaded
              cases loaded
          | some other =>
              simp only [picked, shows] at loaded
              cases loaded
              obtain ⟨stored, seen, -⟩ := found jobId shows
              exact ⟨stored, seen, rfl, rfl⟩
  | markCompleted id token =>
      obtain ⟨shows, running, -⟩ := loadRunning_ok loaded
      obtain ⟨stored, seen, named⟩ := found id shows
      exact ⟨stored, seen, named, running.symm⟩
  | markFailed id token reason =>
      rw [load] at loaded
      split_ifs at loaded
      obtain ⟨shows, running, -⟩ := loadRunning_ok loaded
      obtain ⟨stored, seen, named⟩ := found id shows
      exact ⟨stored, seen, named, running.symm⟩
  | scheduleRetry id token reason scheduledAt =>
      rw [load] at loaded
      split_ifs at loaded
      obtain ⟨shows, running, -⟩ := loadRunning_ok loaded
      obtain ⟨stored, seen, named⟩ := found id shows
      exact ⟨stored, seen, named, running.symm⟩

/-- A call that has its answer without a write changed nothing. -/
theorem load_error {call : GuardedCall} {answer : StoreAnswer}
    (answered : call.load filter db = .error answer)
    : answer.accepted = false := by
  have refuses (id : Guid) (mayWrite : JobRecord → Bool)
      (refused : loadRunning filter db id mayWrite = .error answer)
      : answer.accepted = false := by
    unfold loadRunning at refused
    cases found : loadJob filter id db with
    | none =>
        rw [found] at refused
        cases refused
        rfl
    | some other =>
        rw [found] at refused
        dsimp only at refused
        split_ifs at refused
        cases refused
        rfl
  cases call with
  | tryClaimNextDueJob now workerId leaseExpiresAt =>
      unfold load at answered
      cases picked : nextDueJobId filter now db with
      | none =>
          simp only [picked] at answered
          cases answered
          rfl
      | some jobId =>
          cases shows : loadJob filter jobId db with
          | none =>
              simp only [picked, shows] at answered
              cases answered
              rfl
          | some other =>
              simp only [picked, shows] at answered
              cases answered
  | markCompleted id token => exact refuses id _ answered
  | markFailed id token reason =>
      rw [load] at answered
      split_ifs at answered
      · cases answered
        rfl
      · exact refuses id _ answered
  | scheduleRetry id token reason scheduledAt =>
      rw [load] at answered
      split_ifs at answered
      · cases answered
        rfl
      · exact refuses id _ answered

end Loads

-----------------------------------------------------------------------------------------
-- What a write can do
-----------------------------------------------------------------------------------------

/-- The guard of the call selects the row. -/
def Selects (filter : QueryFilter) (job : JobRecord) (row : JobRow) (call : GuardedCall)
    : Prop :=
  filter.admits row = true
  ∧ isCurrent (call.jobId job) (call.expectedStatus job) (call.expectedToken job) row = true

/-- What is committed can be loaded again, since no write changes who owns a job. -/
theorem committed_accepted {filter : QueryFilter} {ambient : Ambient} {call : GuardedCall}
    {job updatedJob : JobRecord} {db next : Database} {row : JobRow}
    {entries : List JobStateChange} (computed : call.transition ambient job = .ok updatedJob)
    (key : row.id = call.jobId job) (shown : filter.admits row = true)
    (rewrites
      : db.RewritesRow next row (call.setProperties job updatedJob row) entries)
    : (call.committed filter updatedJob next).accepted = true := by
  cases call with
  | tryClaimNextDueJob now workerId leaseExpiresAt =>
      obtain ⟨rfl, -⟩ := transition_claim_ok computed
      obtain ⟨last, -, -, record⟩ := job.claimedUnder_eq ambient now workerId leaseExpiresAt
      have sameId : (job.claimedUnder ambient now workerId leaseExpiresAt).id = row.id := by
        rw [record, key]
        rfl
      have there := rewrites.find?_self
      generalize written : setProperties _ _ _ _ = changed at there
      have admitted : filter.admits changed = true := by
        rw [← shown, ← written]
        apply filter.ownership
        · unfold setProperties
          split_ifs <;> rfl
        · unfold setProperties
          split_ifs <;> rfl
      have loaded : loadJob filter row.id next = some (next.loadRow changed) := by
        rw [loadJob_eq_some, Database.find?_ledger, there]
        exact ⟨rfl, admitted⟩
      simp only [committed, sameId, loaded]
      rfl
  | markCompleted | markFailed | scheduleRetry => rfl

/-- A write commits the transition to the row its guard selects, unless an identifier is used
already; otherwise it leaves the database.
-/
theorem write_cases (filter : QueryFilter) (ambient : Ambient) (call : GuardedCall)
    (job : JobRecord) (db : Database)
    : (∃ answer,
          call.write filter ambient job db = (answer, db)
          ∧ answer.accepted = false
          ∧ ∀ updatedJob,
              call.transition ambient job = .ok updatedJob
              → ∀ row ∈ db.jobs.rows,
                  call.Selects filter job row
                  → ¬ db.AcceptsIds (updatedJob.history.drop job.history.length))
      ∨ ∃ updatedJob row next answer,
          call.transition ambient job = .ok updatedJob
          ∧ call.Selects filter job row
          ∧ call.write filter ambient job db = (answer, next)
          ∧ answer.accepted = true
          ∧ db.RewritesRow next row (call.setProperties job updatedJob row)
              (updatedJob.history.drop job.history.length) := by
  cases computed : call.transition ambient job with
  | error exception =>
      refine Or.inl ⟨.threw exception, write_of_error computed, rfl, ?_⟩
      intro _ same
      cases same
  | ok updatedJob =>
      rcases @tryPersistTransition_cases db filter (call.jobId job) (call.expectedToken job)
          (call.expectedStatus job) updatedJob job.history.length
          (call.setProperties job updatedJob) (call.setProperties_id job updatedJob) with
        ⟨persisted, none⟩ | ⟨row, key, -, shown, current, ⟨persisted, used⟩ | ⟨next, persisted,
          rewrites⟩⟩
      · refine Or.inl ⟨call.missed, by simp only [write, computed, persisted], ?_, ?_⟩
        · cases call <;> rfl
        · intro _ _ row member selected
          cases (none row member selected.1).symm.trans selected.2
      · refine Or.inl ⟨.threw .dbUpdate, by simp only [write, computed, persisted], rfl, ?_⟩
        intro _ same _ _ _
        cases same
        exact used
      · refine Or.inr ⟨updatedJob, row, next, call.committed filter updatedJob next, rfl,
          ⟨shown, current⟩, by simp only [write, computed, persisted], ?_, rewrites⟩
        exact committed_accepted computed key shown rewrites

end GuardedCall

end JobScheduler
