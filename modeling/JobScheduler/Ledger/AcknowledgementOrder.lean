import JobScheduler.Ledger.Acknowledgement
import JobScheduler.Persistence.GuardedCalls
import JobScheduler.Storage.InMemoryLedger

/-! Both stores acknowledge beside processing. The claim loop of the in-memory store and the
queries, guards and column lists of the SQLite store are followed one by one through a state
in which one job is marked.
-/

namespace JobScheduler

open Library

namespace InMemoryJobStore

/-- The mark on a stored record; the pending index stays. -/
def marked (acknowledgement : Acknowledgement) (store : InMemoryJobStore)
    : InMemoryJobStore :=
  { store with jobsById := acknowledgement.markLedger store.jobsById }

variable (acknowledgement : Acknowledgement) (store : InMemoryJobStore)

theorem nextExpiredRunningJob_marked (now : DateTimeOffset)
    : nextExpiredRunningJob now (marked acknowledgement store)
      = nextExpiredRunningJob now store := by
  let shown (entry : DateTimeOffset × JobRecord) := (entry.1, acknowledgement.mark entry.2)
  let pick (job : JobRecord) :=
    (expiredLease now job).map (fun leaseExpiresAt => (leaseExpiresAt, job))
  have expired (job : JobRecord)
      : pick (acknowledgement.mark job) = (pick job).map shown := by
    simp only [pick, Option.map_map]
    rfl
  have rows : (store.jobsById.rows.map acknowledgement.mark).filterMap pick
      = (store.jobsById.rows.filterMap pick).map shown := by
    rw [List.map_filterMap, List.filterMap_map]
    exact congrArg (fun test => store.jobsById.rows.filterMap test) (funext expired)
  have picks : ((store.jobsById.rows.map acknowledgement.mark).filterMap pick).argmin
        (fun entry => toLex (entry.1, entry.2.id))
      = ((store.jobsById.rows.filterMap pick).argmin
          (fun entry => toLex (entry.1, entry.2.id))).map shown := by
    rw [rows]
    exact argmin_map shown (fun entry => toLex (entry.1, entry.2.id)) _
  simp only [nextExpiredRunningJob, marked, Acknowledgement.markLedger, KeyedTable.mapRows]
  rw [picks]
  cases (store.jobsById.rows.filterMap pick).argmin
      (fun entry => toLex (entry.1, entry.2.id)) with
  | none => rfl
  | some entry => rfl

theorem nextDuePendingOrExpiredRunningJob_marked (now : DateTimeOffset)
    : nextDuePendingOrExpiredRunningJob now (marked acknowledgement store)
      = nextDuePendingOrExpiredRunningJob now store := by
  have pending : nextPendingJob now (marked acknowledgement store) = nextPendingJob now store :=
    rfl
  simp only [nextDuePendingOrExpiredRunningJob, nextExpiredRunningJob_marked, pending]

/-- The loop body for a job that is not running, by cases on its status. -/
theorem claimPendingJob_marked {ambient : Ambient} {now : DateTimeOffset} {workerId : String}
    {leaseExpiresAt : DateTimeOffset} (nextJob : JobQueueEntry) (job : JobRecord)
    : claimPendingJob ambient now workerId leaseExpiresAt nextJob (acknowledgement.mark job)
        (marked acknowledgement store)
      = (claimPendingJob ambient now workerId leaseExpiresAt nextJob job store).map
          (Except.map (Option.map acknowledgement.mark)) (marked acknowledgement) := by
  have status : (acknowledgement.mark job).status = job.status := rfl
  cases before : job.status with
  | queued =>
      simp only [claimPendingJob, status, before, reduceCtorEq, if_false, ne_eq,
        not_true_eq_false, acknowledgement.mark_claim]
      cases job.claim ambient.newGuid workerId now leaseExpiresAt with
      | error exception => rfl
      | ok runningJob =>
          simp only [Except.map, marked, Prod.map, acknowledgement.markLedger_set,
            Option.map_some]
  | scheduled =>
      have queued : (job.requeued ambient.newGuid now).status = .queued := rfl
      have requeued : (acknowledgement.mark (job.requeued ambient.newGuid now)).status
          = .queued :=
        rfl
      simp only [claimPendingJob, status, before, if_true, acknowledgement.mark_transitionTo,
        JobRecord.transitionTo_queued, Except.map, queued, requeued, ne_eq, not_true_eq_false,
        if_false, acknowledgement.mark_claim]
      cases (job.requeued ambient.newGuid now).claim ambient.newGuidAgain workerId now
          leaseExpiresAt with
      | error exception => rfl
      | ok runningJob =>
          simp only [Except.map, marked, Prod.map, acknowledgement.markLedger_set,
            Option.map_some]
  | running | completed | failed =>
      simp only [claimPendingJob, status, before, reduceCtorEq, if_false, ne_eq,
        not_false_eq_true, if_true]
      rfl

theorem tryClaimNextDueJob_marked (ambient : Ambient) (now : DateTimeOffset)
    (workerId : String) (leaseExpiresAt : DateTimeOffset)
    : tryClaimNextDueJob ambient now workerId leaseExpiresAt (marked acknowledgement store)
      = (tryClaimNextDueJob ambient now workerId leaseExpiresAt store).map
          (Except.map (Option.map acknowledgement.mark)) (marked acknowledgement) := by
  have looks (id : Guid)
      : (marked acknowledgement store).jobsById.find? id
        = (store.jobsById.find? id).map acknowledgement.mark :=
    acknowledgement.find?_markLedger store.jobsById id
  simp only [tryClaimNextDueJob, nextDuePendingOrExpiredRunningJob_marked]
  cases nextDuePendingOrExpiredRunningJob now store with
  | error exception => rfl
  | ok next =>
      cases next with
      | none => rfl
      | some nextJob =>
          simp only [looks]
          cases store.jobsById.find? nextJob.jobId with
          | none => rfl
          | some job =>
              have status : (acknowledgement.mark job).status = job.status := rfl
              simp only [Option.map_some, status]
              by_cases running : job.status = .running
              · simp only [running, if_true, acknowledgement.mark_reclaimExpiredLease]
                cases job.reclaimExpiredLease ambient.newGuid workerId now leaseExpiresAt with
                | error exception => rfl
                | ok reclaimedJob =>
                    simp only [Except.map, marked, Prod.map, acknowledgement.markLedger_set,
                      Option.map_some]
              · simp only [running, if_false]
                exact claimPendingJob_marked acknowledgement store nextJob job

/-- A call beside the acknowledgement does the same to the marked store, whether it revises
a job or claims one.
-/
theorem call_marked {ambient : Ambient} {call : StoreCall}
    (beside : call.BesideAcknowledging acknowledgement.jobId)
    : methods.call ambient call (marked acknowledgement store)
      = (methods.call ambient call store).map acknowledgement.markAnswer
          (marked acknowledgement) := by
  cases revises : call.revision ambient with
  | some revision =>
      have looks : (marked acknowledgement store).jobsById.find? revision.jobId
          = (store.jobsById.find? revision.jobId).map acknowledgement.mark :=
        acknowledgement.find?_markLedger store.jobsById revision.jobId
      rw [call_revision revises, call_revision revises, looks]
      cases found : store.jobsById.find? revision.jobId with
      | none => rfl
      | some job =>
          obtain ⟨sameGuard, sameChange⟩ :=
            acknowledgement.mark_revision beside revises job
          cases enabled : revision.enabled job with
          | false =>
              simp only [Option.map_some, Option.filter_some, sameGuard, enabled,
                Bool.false_eq_true, if_false]
              rfl
          | true =>
              simp only [Option.map_some, Option.filter_some, sameGuard, enabled, if_true,
                sameChange (KeyedTable.find?_key found), marked, Prod.map,
                acknowledgement.markLedger_set]
              rfl
  | none =>
      cases call with
      | add | get | list => exact beside.elim
      | tryClaimNextDueJob now workerId leaseExpiresAt =>
          simp only [IJobStore.call, methods,
            tryClaimNextDueJob_marked acknowledgement store ambient now workerId leaseExpiresAt]
          rcases tryClaimNextDueJob ambient now workerId leaseExpiresAt store with
            ⟨answer, next⟩
          cases answer with
          | error exception => rfl
          | ok claimed => rfl
      | renewLease | markCompleted | markFailed | scheduleRetry | acknowledge => cases revises

/-- An acknowledgement sets the mark if it is accepted, as the histories are numbered. -/
theorem call_acknowledge {store : InMemoryJobStore} (reached : lawful.Reachable store)
    (ambient : Ambient)
    : methods.call ambient acknowledgement.toCall store
      = if lawful.accepts () acknowledgement store then
          (.flag true, marked acknowledgement store)
        else
          (.flag false, store) := by
  have revision := @call_revision ambient acknowledgement.toCall _ rfl store
  rw [revision]
  cases found : store.jobsById.find? acknowledgement.jobId with
  | none =>
      have refused : lawful.accepts () acknowledgement store = false := by
        simp [LawfulStore.accepts, lawful, found]
      rw [refused]
      rfl
  | some job =>
      have inOrder : job.Numbered :=
        (LawfulStore.jobs_legalHistory reached job (KeyedTable.find?_mem found)).inOrder
      have accepts : lawful.accepts () acknowledgement store
          = !isNullOrWhiteSpace acknowledgement.acknowledgedBy := by
        simp [LawfulStore.accepts, lawful, found]
      rw [accepts]
      cases named : isNullOrWhiteSpace acknowledgement.acknowledgedBy with
      | true => rfl
      | false =>
          simp only [Option.filter_some, Bool.not_false, if_true, requeuedEntry,
            acknowledgement.mark_of_numbered (KeyedTable.find?_key found) inOrder, marked,
            acknowledgement.markLedger_of_stored found, Acknowledgement.toCall,
            Finset.empty_union]

theorem acknowledgementLaw : AcknowledgementLaw lawful marked :=
  LawfulStore.acknowledgementLaw (fun _ _ => rfl)
    (fun _ _ ambient acknowledgement reached => call_acknowledge acknowledgement reached ambient)
    (fun store acknowledgement _ _ _ beside => call_marked acknowledgement store beside)

end InMemoryJobStore

-----------------------------------------------------------------------------------------
-- The SQLite store
-----------------------------------------------------------------------------------------

/-- The row of a marked record. -/
def Acknowledgement.markRow (acknowledgement : Acknowledgement) (row : JobRow) : JobRow :=
  { row with
    acknowledgedBy :=
      if row.id = acknowledgement.jobId then
        some (trim acknowledgement.acknowledgedBy)
      else
        row.acknowledgedBy
    acknowledgedAt :=
      if row.id = acknowledgement.jobId then
        some acknowledgement.acknowledgedAt
      else
        row.acknowledgedAt }

namespace Database

/-- The mark on a stored row; the history rows stay. -/
def marked (acknowledgement : Acknowledgement) (db : Database) : Database :=
  { db with jobs := db.jobs.mapRows acknowledgement.markRow (fun _ => rfl) }

variable (acknowledgement : Acknowledgement) (db : Database)

theorem filteredJobs_marked (filter : QueryFilter)
    : (db.marked acknowledgement).filteredJobs filter
      = (db.filteredJobs filter).map acknowledgement.markRow := by
  have blind : filter.admits ∘ acknowledgement.markRow = filter.admits :=
    funext (fun row => filter.ownership _ row rfl rfl)
  simp only [filteredJobs, marked, KeyedTable.mapRows, List.filter_map, blind]

theorem ledger_marked
    : (db.marked acknowledgement).ledger = acknowledgement.markLedger db.ledger := by
  refine KeyedTable.ext ?_
  simp only [ledger, marked, Acknowledgement.markLedger, KeyedTable.mapRows, List.map_map]
  rfl

/-- A bulk update of rows the mark does not hide hits the same rows, and sets its columns
beside those of the mark.
-/
theorem executeUpdate_marked {filter : QueryFilter} {condition : JobRow → Bool}
    {setProperties : JobRow → JobRow} {keepsKey : ∀ row, (setProperties row).id = row.id}
    (blind : ∀ row, condition (acknowledgement.markRow row) = condition row)
    (beside
      : ∀ row,
          condition row = true
          → setProperties (acknowledgement.markRow row)
            = acknowledgement.markRow (setProperties row))
    : (db.marked acknowledgement).executeUpdate filter condition setProperties keepsKey
      = (db.executeUpdate filter condition setProperties keepsKey).map id
          (marked acknowledgement) := by
  have admits (row : JobRow) : filter.admits (acknowledgement.markRow row) = filter.admits row :=
    filter.ownership _ row rfl rfl
  have count : (db.jobs.rows.map acknowledgement.markRow).countP
        (fun row => filter.admits row && condition row)
      = db.jobs.rows.countP (fun row => filter.admits row && condition row) := by
    rw [List.countP_map]
    exact congrArg (fun test => db.jobs.rows.countP test)
      (funext (fun row => by simp [admits, blind]))
  have jobs : ((db.jobs.mapRows acknowledgement.markRow (fun _ => rfl)).updateWhere
        (fun row => filter.admits row && condition row) setProperties keepsKey)
      = (db.jobs.updateWhere (fun row => filter.admits row && condition row) setProperties
          keepsKey).mapRows acknowledgement.markRow (fun _ => rfl) := by
    refine KeyedTable.ext ?_
    simp only [KeyedTable.mapRows, KeyedTable.updateWhere, List.map_map]
    refine List.map_congr_left ?_
    intro row _
    simp only [Function.comp_apply, admits, blind]
    by_cases selected : (filter.admits row && condition row) = true
    · rw [if_pos selected, if_pos selected]
      exact beside row (Bool.and_eq_true_iff.mp selected).2
    · rw [if_neg selected, if_neg selected]
  simp only [executeUpdate, Prod.map, id_eq]
  exact Prod.ext count (congrArg (fun table => Database.mk table db.jobStateChanges) jobs)

theorem appendStateChanges_marked (jobId : Guid) (changes : List JobStateChange)
    : (db.marked acknowledgement).appendStateChanges jobId changes
      = (db.appendStateChanges jobId changes).map (marked acknowledgement) := by
  simp only [appendStateChanges, marked]
  cases db.jobStateChanges.insertAll? (changes.map (JobStateChangeRow.mk jobId)) with
  | none => rfl
  | some table => rfl

end Database

namespace SqliteJobStore

section Queries

variable (acknowledgement : Acknowledgement) (filter : QueryFilter) (db : Database)

theorem loadJob_marked (id : Guid)
    : loadJob filter id (db.marked acknowledgement)
      = (loadJob filter id db).map acknowledgement.mark := by
  simp only [loadJob, Database.filteredJobs_marked, List.find?_map, Option.map_map]
  rfl

/-- Neither the `Where` nor the sort keys of the due query look at the mark. -/
theorem nextDueJobId_marked (now : DateTimeOffset)
    : nextDueJobId filter now (db.marked acknowledgement) = nextDueJobId filter now db := by
  have blind : isDue now ∘ acknowledgement.markRow = isDue now := rfl
  simp only [nextDueJobId, Database.filteredJobs_marked, List.filter_map, blind, argmin_map,
    Option.map_map]
  rfl

variable {setProperties : JobRow → JobRow} {keepsKey : ∀ row, (setProperties row).id = row.id}

/-- A conditional write of columns other than the mark's, by the two updates it makes. -/
theorem tryPersistTransition_marked {jobId token : Guid} {status : JobStatus}
    {updatedJob : JobRecord} {count : Nat}
    (beside
      : ∀ row,
          setProperties (acknowledgement.markRow row)
          = acknowledgement.markRow (setProperties row))
    : tryPersistTransition filter jobId status token (acknowledgement.mark updatedJob) count
        setProperties keepsKey (db.marked acknowledgement)
      = (tryPersistTransition filter jobId status token updatedJob count setProperties keepsKey
          db).map (Option.map (Database.marked acknowledgement)) := by
  have history : (acknowledgement.mark updatedJob).history = updatedJob.history := rfl
  have updates
      : (db.marked acknowledgement).executeUpdate filter (isCurrent jobId status token)
          setProperties keepsKey
        = (db.executeUpdate filter (isCurrent jobId status token) setProperties keepsKey).map id
            (Database.marked acknowledgement) :=
    db.executeUpdate_marked acknowledgement (fun _ => rfl) (fun row _ => beside row)
  simp only [tryPersistTransition, history, updates]
  rcases db.executeUpdate filter (isCurrent jobId status token) setProperties keepsKey with
    ⟨rowsUpdated, updated⟩
  cases rowsUpdated with
  | zero => rfl
  | succ =>
      simp only [Prod.map, id_eq, Nat.add_one_ne_zero, if_false,
        Database.appendStateChanges_marked]
      cases updated.appendStateChanges jobId (updatedJob.history.drop count) with
      | error exception => rfl
      | ok next => rfl

end Queries

end SqliteJobStore

namespace GuardedCall

open SqliteJobStore

variable (acknowledgement : Acknowledgement) (filter : QueryFilter) (db : Database)

/-- The transition of a marked record, one kind of call at a time. -/
theorem transition_mark (ambient : Ambient) (job : JobRecord) (call : GuardedCall)
    : call.transition ambient (acknowledgement.mark job)
      = (call.transition ambient job).map acknowledgement.mark := by
  have status : (acknowledgement.mark job).status = job.status := rfl
  cases call with
  | tryClaimNextDueJob now workerId leaseExpiresAt =>
      cases before : job.status with
      | running =>
          simp only [transition, status, before, if_true,
            acknowledgement.mark_reclaimExpiredLease]
      | scheduled =>
          have queued : (job.requeued ambient.newGuid now).status = .queued := rfl
          have requeued : (acknowledgement.mark (job.requeued ambient.newGuid now)).status
              = .queued :=
            rfl
          simp only [transition, status, before, reduceCtorEq, if_false, if_true,
            acknowledgement.mark_transitionTo, JobRecord.transitionTo_queued, Except.map,
            queued, requeued, ne_eq, not_true_eq_false, acknowledgement.mark_claim]
      | queued =>
          simp only [transition, status, before, reduceCtorEq, if_false, ne_eq,
            not_true_eq_false, acknowledgement.mark_claim]
      | completed | failed =>
          simp only [transition, status, before, reduceCtorEq, if_false, ne_eq,
            not_false_eq_true, if_true]
          rfl
  | markCompleted | markFailed | scheduleRetry => rfl

/-- The columns written are those of the mark's record, and none of them is the mark's. -/
theorem setProperties_mark (job updatedJob : JobRecord) (call : GuardedCall)
    : call.setProperties (acknowledgement.mark job) (acknowledgement.mark updatedJob)
        = call.setProperties job updatedJob
      ∧ ∀ row,
          call.setProperties job updatedJob (acknowledgement.markRow row)
          = acknowledgement.markRow (call.setProperties job updatedJob row) := by
  cases call with
  | tryClaimNextDueJob =>
      by_cases running : job.status = .running
      · have same : (acknowledgement.mark job).status = .running := running
        simp only [setProperties, running, same, if_true]
        exact ⟨rfl, fun _ => rfl⟩
      · have same : (acknowledgement.mark job).status ≠ .running := running
        simp only [setProperties, running, same, if_false]
        exact ⟨rfl, fun _ => rfl⟩
  | markCompleted | markFailed | scheduleRetry => exact ⟨rfl, fun _ => rfl⟩

theorem loadRunning_marked (id : Guid) (mayWrite : JobRecord → Bool)
    (blind : ∀ job, mayWrite (acknowledgement.mark job) = mayWrite job)
    : loadRunning filter (db.marked acknowledgement) id mayWrite
      = ((loadRunning filter db id mayWrite).mapError acknowledgement.markAnswer).map
          acknowledgement.mark := by
  simp only [loadRunning, loadJob_marked]
  cases loadJob filter id db with
  | none => rfl
  | some job =>
      have status : (acknowledgement.mark job).status = job.status := rfl
      simp only [Option.map_some, status, blind]
      split_ifs
      · rfl
      · rfl

/-- A load in the marked database finds the marked record. -/
theorem load_marked (call : GuardedCall)
    : call.load filter (db.marked acknowledgement)
      = ((call.load filter db).mapError acknowledgement.markAnswer).map
          acknowledgement.mark := by
  cases call with
  | tryClaimNextDueJob now workerId leaseExpiresAt =>
      simp only [load, nextDueJobId_marked, loadJob_marked]
      cases nextDueJobId filter now db with
      | none => rfl
      | some jobId =>
          simp only
          cases loadJob filter jobId db with
          | none => rfl
          | some job => rfl
  | markCompleted id token =>
      exact loadRunning_marked acknowledgement filter db id _ (fun _ => rfl)
  | markFailed id token reason =>
      simp only [load]
      split_ifs
      · rfl
      · exact loadRunning_marked acknowledgement filter db id _ (fun _ => rfl)
  | scheduleRetry id token reason scheduledAt =>
      simp only [load]
      split_ifs
      · rfl
      · exact loadRunning_marked acknowledgement filter db id _ (fun _ => rfl)

/-- A write that meets the marked database does the same there. -/
theorem write_marked (ambient : Ambient) (call : GuardedCall) (job : JobRecord)
    : call.write filter ambient (acknowledgement.mark job) (db.marked acknowledgement)
      = (call.write filter ambient job db).map acknowledgement.markAnswer
          (Database.marked acknowledgement) := by
  have guard : call.jobId (acknowledgement.mark job) = call.jobId job
      ∧ call.expectedStatus (acknowledgement.mark job) = call.expectedStatus job
      ∧ call.expectedToken (acknowledgement.mark job) = call.expectedToken job := by
    cases call with
    | tryClaimNextDueJob | markCompleted | markFailed | scheduleRetry => exact ⟨rfl, rfl, rfl⟩
  have history : (acknowledgement.mark job).history = job.history := rfl
  simp only [write, transition_mark]
  cases call.transition ambient job with
  | error exception => rfl
  | ok updatedJob =>
      obtain ⟨columns, beside⟩ := setProperties_mark acknowledgement job updatedJob call
      simp only [Except.map, guard, history, columns,
        tryPersistTransition_marked acknowledgement filter db beside]
      rcases tryPersistTransition filter (call.jobId job) (call.expectedStatus job)
          (call.expectedToken job) updatedJob job.history.length
          (call.setProperties job updatedJob) (call.setProperties_id job updatedJob) db with
        exception | _ | next
      · rfl
      · cases call with
        | tryClaimNextDueJob | markCompleted | markFailed | scheduleRetry => rfl
      · cases call with
        | tryClaimNextDueJob now workerId leaseExpiresAt =>
            exact Prod.ext (congrArg StoreAnswer.job
              (loadJob_marked acknowledgement filter next updatedJob.id)) rfl
        | markCompleted | markFailed | scheduleRetry => rfl

/-- A guarded call does the same to the marked database, by its load and its write. -/
theorem call_marked (ambient : Ambient) (call : GuardedCall)
    : (methods filter).call ambient call.toCall (db.marked acknowledgement)
      = ((methods filter).call ambient call.toCall db).map acknowledgement.markAnswer
          (Database.marked acknowledgement) := by
  rw [call_eq, call_eq, load_marked]
  cases call.load filter db with
  | error answer => rfl
  | ok job => exact write_marked acknowledgement filter db ambient call job

end GuardedCall

namespace SqliteJobStore

variable (acknowledgement : Acknowledgement) (filter : QueryFilter) (db : Database)

/-- A bulk update and its count, as the flag of the call and the database. -/
theorem bulkUpdate_marked {condition : JobRow → Bool} {setProperties : JobRow → JobRow}
    {keepsKey : ∀ row, (setProperties row).id = row.id}
    (blind : ∀ row, condition (acknowledgement.markRow row) = condition row)
    (beside
      : ∀ row,
          condition row = true
          → setProperties (acknowledgement.markRow row)
            = acknowledgement.markRow (setProperties row))
    : ((.flag (decide (0 < ((db.marked acknowledgement).executeUpdate filter condition
            setProperties keepsKey).1)),
          ((db.marked acknowledgement).executeUpdate filter condition setProperties keepsKey).2)
        : StoreAnswer × Database)
      = ((.flag (decide (0 < (db.executeUpdate filter condition setProperties keepsKey).1)),
          (db.executeUpdate filter condition setProperties keepsKey).2)
          : StoreAnswer × Database).map
          acknowledgement.markAnswer (Database.marked acknowledgement) := by
  rw [db.executeUpdate_marked acknowledgement blind beside]
  rfl

/-- A call beside the acknowledgement does the same to the marked database. -/
theorem call_marked {ambient : Ambient} {call : StoreCall}
    (beside : call.BesideAcknowledging acknowledgement.jobId)
    : (methods filter).call ambient call (db.marked acknowledgement)
      = ((methods filter).call ambient call db).map acknowledgement.markAnswer
          (Database.marked acknowledgement) := by
  cases call with
  | add | get | list => exact beside.elim
  | tryClaimNextDueJob now workerId leaseExpiresAt =>
      exact GuardedCall.call_marked acknowledgement filter db ambient
        (.tryClaimNextDueJob now workerId leaseExpiresAt)
  | markCompleted id token =>
      exact GuardedCall.call_marked acknowledgement filter db ambient (.markCompleted id token)
  | markFailed id token reason =>
      exact GuardedCall.call_marked acknowledgement filter db ambient
        (.markFailed id token reason)
  | scheduleRetry id token reason scheduledAt =>
      exact GuardedCall.call_marked acknowledgement filter db ambient
        (.scheduleRetry id token reason scheduledAt)
  | renewLease id token renewedAt leaseExpiresAt =>
      by_cases early : leaseExpiresAt ≤ renewedAt
      · simp only [IJobStore.call, methods, renewLease, early, if_true]
        rfl
      · simp only [IJobStore.call, methods, renewLease, early, if_false]
        exact bulkUpdate_marked acknowledgement filter db (fun _ => rfl) (fun _ _ => rfl)
  | acknowledge other acknowledgedBy acknowledgedAt =>
      cases blank : isNullOrWhiteSpace acknowledgedBy with
      | true =>
          simp only [IJobStore.call, methods, acknowledge, blank, if_true]
          rfl
      | false =>
          simp only [IJobStore.call, methods, acknowledge, blank, Bool.false_eq_true, if_false]
          refine bulkUpdate_marked acknowledgement filter db (fun _ => rfl) ?_
          intro row named
          have elsewhere : row.id ≠ acknowledgement.jobId :=
            fun same => beside ((of_decide_eq_true named).symm.trans same)
          simp only [Acknowledgement.markRow, setAcknowledged, elsewhere, if_false]

/-- An acknowledgement sets the mark if it is accepted. -/
theorem call_acknowledge (ambient : Ambient)
    : (methods filter).call ambient acknowledgement.toCall db
      = if lawful.accepts filter acknowledgement db then
          (.flag true, db.marked acknowledgement)
        else
          (.flag false, db) := by
  have accepts : lawful.accepts filter acknowledgement db
      = (!isNullOrWhiteSpace acknowledgement.acknowledgedBy
        && (db.jobs.find? acknowledgement.jobId).any filter.admits) := by
    simp only [LawfulStore.accepts, lawful, Database.find?_ledger, Option.any_map]
    rfl
  rw [accepts]
  simp only [Acknowledgement.toCall, IJobStore.call, methods, acknowledge]
  cases blank : isNullOrWhiteSpace acknowledgement.acknowledgedBy with
  | true => rfl
  | false =>
      simp only [Bool.false_eq_true, if_false, Bool.not_false, Bool.true_and,
        @Database.executeUpdate_of_key db filter (fun row => row.id = acknowledgement.jobId)
          (setAcknowledged acknowledgement.acknowledgedBy acknowledgement.acknowledgedAt)
          (setAcknowledged_id _ _) _ (fun _ => of_decide_eq_true)]
      cases found : db.jobs.find? acknowledgement.jobId with
      | none => rfl
      | some row =>
          have named := KeyedTable.find?_key found
          cases shown : filter.admits row with
          | false => simp [Option.filter_some, shown, Prod.map]
          | true =>
              have written : acknowledgement.markRow row
                  = setAcknowledged acknowledgement.acknowledgedBy
                      acknowledgement.acknowledgedAt row := by
                simp only [Acknowledgement.markRow, setAcknowledged, named, if_true]
              have jobs : db.jobs.mapRows acknowledgement.markRow (fun _ => rfl)
                  = db.jobs.set (acknowledgement.markRow row) :=
                KeyedTable.mapRows_eq_set found (fun other elsewhere => by
                  simp only [Acknowledgement.markRow, elsewhere, if_false])
              simp [Option.filter_some, shown, named, Prod.map, Database.marked, jobs, written]

theorem acknowledgementLaw : AcknowledgementLaw lawful Database.marked :=
  LawfulStore.acknowledgementLaw (fun acknowledgement db => db.ledger_marked acknowledgement)
    (fun db filter ambient acknowledgement _ =>
      call_acknowledge acknowledgement filter db ambient)
    (fun db acknowledgement filter _ _ beside => call_marked acknowledgement filter db beside)

end SqliteJobStore

/-- Acknowledging a job and processing it are independent in both stores. -/
theorem acknowledgement_independent
    : AcknowledgementLaw InMemoryJobStore.lawful InMemoryJobStore.marked
      ∧ AcknowledgementLaw SqliteJobStore.lawful Database.marked :=
  ⟨InMemoryJobStore.acknowledgementLaw, SqliteJobStore.acknowledgementLaw⟩

/-- A reader acknowledges the small job while a worker claims it. -/
theorem acknowledgement_independent_claimed
    : let acknowledgement : Acknowledgement := ⟨⟨1⟩, " bob ", .ofTicks 3⟩
      let db := (SqliteJobStore.lawful.machine.run Database.empty
        [⟨.everyRow, smallAmbient 0, .add smallJob⟩]).2
      let acknowledge :=
        (SqliteJobStore.methods .everyRow).call (smallAmbient 3) acknowledgement.toCall
      let claim := (SqliteJobStore.methods .everyRow).call (smallAmbient 1)
        (.tryClaimNextDueJob (.ofTicks 1) "worker-1" (.ofTicks 5))
      (acknowledge db).1 = .flag true
      ∧ (claim db).1 = .job (some firstSnapshot)
      ∧ (acknowledge (claim db).2).1 = (acknowledge db).1
      ∧ (claim (acknowledge db).2).1.unacknowledged = (claim db).1.unacknowledged
      ∧ (claim (acknowledge db).2).2 = (acknowledge (claim db).2).2 := by
  intro acknowledgement db acknowledge claim
  have reached : SqliteJobStore.lawful.Reachable db :=
    Machine.reaches_run ⟨smallJob_admissible, trivial⟩
  exact ⟨by decide +kernel, by decide +kernel,
    acknowledgement_independent.2.commutes db .everyRow (smallAmbient 3) acknowledgement
      .everyRow (smallAmbient 1) (.tryClaimNextDueJob (.ofTicks 1) "worker-1" (.ofTicks 5))
      reached trivial⟩

end JobScheduler
