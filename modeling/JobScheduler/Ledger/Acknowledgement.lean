import JobScheduler.Ledger.RecordSteps
import JobScheduler.Ledger.Transitions

/-! Acknowledging a job beside the calls that move it. What an acknowledgement does to a
record touches two fields that no transition reads and that every transition hands on, so
the transitions, their guards and the order of claims are the same before and after it.
-/

namespace JobScheduler

open Library

/-- The arguments of an acknowledgement. -/
structure Acknowledgement where
  jobId : Guid
  acknowledgedBy : String
  acknowledgedAt : DateTimeOffset
  deriving DecidableEq, Repr

namespace Acknowledgement

def toCall (acknowledgement : Acknowledgement) : StoreCall :=
  .acknowledge acknowledgement.jobId acknowledgement.acknowledgedBy
    acknowledgement.acknowledgedAt

/-- The two fields of the acknowledged job; all other jobs and fields stay. -/
def mark (acknowledgement : Acknowledgement) (job : JobRecord) : JobRecord :=
  { job with
    acknowledgedBy :=
      if job.id = acknowledgement.jobId then
        some (trim acknowledgement.acknowledgedBy)
      else
        job.acknowledgedBy
    acknowledgedAt :=
      if job.id = acknowledgement.jobId then
        some acknowledgement.acknowledgedAt
      else
        job.acknowledgedAt }

/-- The stored jobs with the mark on the acknowledged one. -/
def markLedger (acknowledgement : Acknowledgement) (ledger : Ledger) : Ledger :=
  ledger.mapRows acknowledgement.mark (fun _ => rfl)

/-- An answer with the mark on the jobs it shows. -/
def markAnswer (acknowledgement : Acknowledgement) : StoreAnswer → StoreAnswer
  | .job found => .job (found.map acknowledgement.mark)
  | .jobs found => .jobs (found.map acknowledgement.mark)
  | .done => .done
  | .flag accepted => .flag accepted
  | .threw exception => .threw exception

variable (acknowledgement : Acknowledgement)

theorem mark_of_other {job : JobRecord} (other : job.id ≠ acknowledgement.jobId)
    : acknowledgement.mark job = job := by
  simp only [mark, other, if_false]

/-- `Acknowledge` on a numbered record sets the mark. -/
theorem mark_of_numbered {job : JobRecord} (same : job.id = acknowledgement.jobId)
    (inOrder : job.Numbered)
    : job.acknowledgedAs acknowledgement.acknowledgedBy acknowledgement.acknowledgedAt
      = acknowledgement.mark job := by
  simp only [JobRecord.acknowledgedAs, JobRecord.construct, mark, same, if_true,
    show numbered job.history = job.history from inOrder]

theorem find?_markLedger (ledger : Ledger) (id : Guid)
    : (acknowledgement.markLedger ledger).find? id
      = (ledger.find? id).map acknowledgement.mark :=
  KeyedTable.find?_mapRows ledger id

/-- A written record shows the mark where it is written. -/
theorem markLedger_set (ledger : Ledger) (job : JobRecord)
    : acknowledgement.markLedger (ledger.set job)
      = (acknowledgement.markLedger ledger).set (acknowledgement.mark job) :=
  KeyedTable.mapRows_set (fun _ _ => rfl)

/-- Marking the jobs is writing the marked record over the acknowledged one. -/
theorem markLedger_of_stored {ledger : Ledger} {job : JobRecord}
    (stored : ledger.find? acknowledgement.jobId = some job)
    : acknowledgement.markLedger ledger = ledger.set (acknowledgement.mark job) :=
  KeyedTable.mapRows_eq_set stored (fun _ other => acknowledgement.mark_of_other other)

-----------------------------------------------------------------------------------------
-- Transitions are blind to the mark
-----------------------------------------------------------------------------------------

theorem mark_transitionTo (job : JobRecord) (newGuid : Guid) (nextStatus : JobStatus)
    (changedAt : DateTimeOffset)
    : (acknowledgement.mark job).transitionTo newGuid nextStatus changedAt
      = (job.transitionTo newGuid nextStatus changedAt).map acknowledgement.mark := by
  cases nextStatus with
  | scheduled | queued | running | completed | failed => rfl

theorem mark_claim (job : JobRecord) (newGuid : Guid) (workerId : String)
    (claimedAt leaseExpiresAt : DateTimeOffset)
    : (acknowledgement.mark job).claim newGuid workerId claimedAt leaseExpiresAt
      = (job.claim newGuid workerId claimedAt leaseExpiresAt).map acknowledgement.mark := by
  unfold JobRecord.claim
  cases JobRecord.validateClaim workerId claimedAt leaseExpiresAt with
  | error exception => rfl
  | ok => rfl

/-- The checks of a reclaim are the same ones, in the same order. -/
theorem mark_reclaimExpiredLease (job : JobRecord) (newGuid : Guid) (workerId : String)
    (claimedAt leaseExpiresAt : DateTimeOffset)
    : (acknowledgement.mark job).reclaimExpiredLease newGuid workerId claimedAt leaseExpiresAt
      = (job.reclaimExpiredLease newGuid workerId claimedAt leaseExpiresAt).map
          acknowledgement.mark := by
  have lease : (acknowledgement.mark job).leaseExpiresAt = job.leaseExpiresAt := rfl
  have status : (acknowledgement.mark job).status = job.status := rfl
  by_cases running : job.status = .running
  · cases expiry : job.leaseExpiresAt with
    | none => simp only [JobRecord.reclaimExpiredLease, status, running, lease, expiry]; rfl
    | some expiresAt =>
        by_cases held : claimedAt < expiresAt
        · simp only [JobRecord.reclaimExpiredLease, status, running, lease, expiry, held]
          rfl
        · simp only [JobRecord.reclaimExpiredLease, status, running, lease, expiry, held]
          cases JobRecord.validateClaim workerId claimedAt leaseExpiresAt with
          | error exception => rfl
          | ok => rfl
  · simp only [JobRecord.reclaimExpiredLease, status, ne_eq, running, not_false_eq_true,
      if_true]
    rfl

end Acknowledgement

/-- The calls that move a job, and acknowledgements of other jobs than the given one. -/
def StoreCall.BesideAcknowledging (id : Guid) : StoreCall → Prop
  | .tryClaimNextDueJob _ _ _ => True
  | .renewLease _ _ _ _ => True
  | .markCompleted _ _ => True
  | .markFailed _ _ _ => True
  | .scheduleRetry _ _ _ _ => True
  | .acknowledge other _ _ => other ≠ id
  | .add _ | .get _ | .list => False

/-- Such calls add no job. -/
theorem StoreCall.BesideAcknowledging.admissible {id : Guid} {call : StoreCall}
    (beside : call.BesideAcknowledging id)
    : call.Admissible := by
  rintro job rfl
  exact beside.elim

/-- The guard of such a call does not see the mark, and its change hands the mark on, one
kind of call at a time.
-/
theorem Acknowledgement.mark_revision (acknowledgement : Acknowledgement) {ambient : Ambient}
    {call : StoreCall} {revision : Revision}
    (beside : call.BesideAcknowledging acknowledgement.jobId)
    (revises : call.revision ambient = some revision) (job : JobRecord)
    : revision.enabled (acknowledgement.mark job) = revision.enabled job
      ∧ (job.id = revision.jobId
        → revision.change (acknowledgement.mark job)
          = acknowledgement.mark (revision.change job)) := by
  cases call with
  | add | get | list | tryClaimNextDueJob => cases revises
  | renewLease | markCompleted | markFailed | scheduleRetry =>
      cases revises
      exact ⟨rfl, fun _ => rfl⟩
  | acknowledge other acknowledgedBy acknowledgedAt =>
      cases revises
      refine ⟨rfl, ?_⟩
      rintro rfl
      have same (changed : JobRecord) (key : changed.id = job.id)
          : acknowledgement.mark changed = changed :=
        acknowledgement.mark_of_other (key.symm ▸ beside)
      rw [same job rfl]
      exact (same (job.acknowledgedAs acknowledgedBy acknowledgedAt) rfl).symm

-----------------------------------------------------------------------------------------
-- Two answers that differ in the mark only
-----------------------------------------------------------------------------------------

/-- A record without the two fields of its acknowledgement. -/
def JobRecord.unacknowledged (job : JobRecord) : JobRecord :=
  { job with acknowledgedBy := none, acknowledgedAt := none }

/-- What an answer says besides who acknowledged the jobs it shows: the flag, the claimed
job, or the exception.
-/
def StoreAnswer.unacknowledged : StoreAnswer → StoreAnswer
  | .job found => .job (found.map JobRecord.unacknowledged)
  | .jobs found => .jobs (found.map JobRecord.unacknowledged)
  | .done => .done
  | .flag accepted => .flag accepted
  | .threw exception => .threw exception

theorem Acknowledgement.unacknowledged_mark (acknowledgement : Acknowledgement)
    (answer : StoreAnswer)
    : (acknowledgement.markAnswer answer).unacknowledged = answer.unacknowledged := by
  have same : JobRecord.unacknowledged ∘ acknowledgement.mark = JobRecord.unacknowledged :=
    rfl
  cases answer with
  | job found => simp only [markAnswer, StoreAnswer.unacknowledged, Option.map_map, same]
  | jobs found => simp only [markAnswer, StoreAnswer.unacknowledged, List.map_map, same]
  | done | flag | threw => rfl

/-- Only an acknowledgement changes the two fields of a job, one kind of step at a time. -/
theorem RecordStep.keepsAcknowledgement {nextDue : DateTimeOffset → Option JobRecord}
    {ambient : Ambient} {call : StoreCall} {job changed : JobRecord}
    (step : RecordStep nextDue ambient call job changed)
    (other
      : ∀ id acknowledgedBy acknowledgedAt,
          call ≠ .acknowledge id acknowledgedBy acknowledgedAt)
    : changed.acknowledgedBy = job.acknowledgedBy
      ∧ changed.acknowledgedAt = job.acknowledgedAt := by
  cases step with
  | @claimed now workerId leaseExpiresAt =>
      obtain ⟨last, -, -, record⟩ := job.claimedUnder_eq ambient now workerId leaseExpiresAt
      rw [record]
      exact ⟨rfl, rfl⟩
  | renewed | completed | failed | retried => exact ⟨rfl, rfl⟩
  | acknowledged => exact absurd rfl (other _ _ _)

section Law

variable {State Caller : Type} (store : LawfulStore State Caller)
  (marked : Acknowledgement → State → State)

/-- Acknowledging and processing do not get in each other's way. `marked` is the state with
the mark on the acknowledged job.
-/
structure AcknowledgementLaw : Prop where
  /-- The mark is on one job, and on two of its fields. -/
  marksLedger
    : ∀ acknowledgement state,
        store.ledger (marked acknowledgement state)
        = acknowledgement.markLedger (store.ledger state)
  /-- An acknowledgement sets the mark and changes nothing else, or changes nothing. -/
  effect
    : ∀ state acknowledger ambient (acknowledgement : Acknowledgement),
        store.Reachable state
        → let outcome := (store.methods acknowledger).call ambient acknowledgement.toCall state
          outcome = (.flag true, marked acknowledgement state)
          ∨ outcome = (.flag false, state)
  /-- In either order the two calls answer the same and leave the same state behind. -/
  commutes
    : ∀ state acknowledger readings (acknowledgement : Acknowledgement) caller ambient call,
        store.Reachable state
        → call.BesideAcknowledging acknowledgement.jobId
        → let acknowledge :=
            (store.methods acknowledger).call readings acknowledgement.toCall
          let operate := (store.methods caller).call ambient call
          (acknowledge (operate state).2).1 = (acknowledge state).1
          ∧ (operate (acknowledge state).2).1.unacknowledged
            = (operate state).1.unacknowledged
          ∧ (operate (acknowledge state).2).2 = (acknowledge (operate state).2).2
  /-- No other call changes the two fields of a stored job. -/
  keeps
    : ∀ state caller ambient (call : StoreCall),
        store.Reachable state
        → call.Admissible
        → (∀ id acknowledgedBy acknowledgedAt,
            call ≠ .acknowledge id acknowledgedBy acknowledgedAt)
        → ∀ id job,
            (store.ledger state).find? id = some job
            → ∃ later,
                (store.ledger ((store.methods caller).call ambient call state).2).find? id
                  = some later
                ∧ (call = .add later
                  ∨ later.acknowledgedBy = job.acknowledgedBy
                    ∧ later.acknowledgedAt = job.acknowledgedAt)

variable {store} {marked}

/-- The acknowledgement names an actor and a job that the caller sees. -/
def LawfulStore.accepts (store : LawfulStore State Caller) (caller : Caller)
    (acknowledgement : Acknowledgement) (state : State)
    : Bool :=
  !isNullOrWhiteSpace acknowledgement.acknowledgedBy
  && ((store.ledger state).find? acknowledgement.jobId).any (store.visible caller)

/-- Moving jobs does not change who may acknowledge them, since no step changes the owner of
a job.
-/
theorem LawfulStore.accepts_later {state : State} {acknowledger caller : Caller}
    {acknowledgement : Acknowledgement} {ambient : Ambient} {call : StoreCall}
    (sound : store.Sound state) (beside : call.BesideAcknowledging acknowledgement.jobId)
    : store.accepts acknowledger acknowledgement
        ((store.methods caller).call ambient call state).2
      = store.accepts acknowledger acknowledgement state := by
  have step := store.follows caller ambient call state sound beside.admissible
  unfold accepts
  rcases step.effect with same | ⟨job, rfl, -⟩ | ⟨job, changed, one, stored, -, next⟩
  · rw [same]
  · exact beside.elim
  · rw [next, KeyedTable.find?_set]
    by_cases same : changed.id = acknowledgement.jobId
    · have there : (store.ledger state).find? acknowledgement.jobId = some job :=
        same ▸ one.id_eq.symm ▸ stored
      have owner := store.ownership acknowledger changed job one.sameTerms.tenantId
        one.sameTerms.createdByActorId
      rw [if_pos same, there, Option.any_some, Option.any_some, owner]
    · rw [if_neg same]

/-- A store keeps the law if its acknowledgements set the mark and its other calls do not
see it.
-/
theorem LawfulStore.acknowledgementLaw
    (marksLedger
      : ∀ acknowledgement state,
          store.ledger (marked acknowledgement state)
          = acknowledgement.markLedger (store.ledger state))
    (acknowledges
      : ∀ state acknowledger ambient (acknowledgement : Acknowledgement),
          store.Reachable state
          → (store.methods acknowledger).call ambient acknowledgement.toCall state
            = if store.accepts acknowledger acknowledgement state then
                (.flag true, marked acknowledgement state)
              else
                (.flag false, state))
    (blind
      : ∀ state (acknowledgement : Acknowledgement) caller ambient call,
          call.BesideAcknowledging acknowledgement.jobId
          → (store.methods caller).call ambient call (marked acknowledgement state)
            = ((store.methods caller).call ambient call state).map acknowledgement.markAnswer
                (marked acknowledgement))
    : AcknowledgementLaw store marked where
  marksLedger := marksLedger
  effect state acknowledger ambient acknowledgement reached := by
    rw [acknowledges state acknowledger ambient acknowledgement reached]
    split_ifs
    · exact Or.inl rfl
    · exact Or.inr rfl
  commutes state acknowledger readings acknowledgement caller ambient call reached beside := by
    have after : store.Reachable ((store.methods caller).call ambient call state).2 :=
      @Machine.Reaches.step _ _ _ store.machine _ _ _ ⟨caller, ambient, call⟩ reached
        beside.admissible
    have first := acknowledges _ acknowledger readings acknowledgement reached
    have second := acknowledges _ acknowledger readings acknowledgement after
    rw [accepts_later reached.sound beside] at second
    by_cases accepted : store.accepts acknowledger acknowledgement state = true
    · rw [if_pos accepted] at first second
      simp only [first, second, blind state acknowledgement caller ambient call beside,
        Prod.map_fst, Prod.map_snd, acknowledgement.unacknowledged_mark, and_self]
    · rw [if_neg accepted] at first second
      simp only [first, second, and_self]
  keeps state caller ambient call reached admissible other id job stored := by
    have step := store.follows caller ambient call state reached.sound admissible
    rcases step.find?_next stored with same | ⟨new, added, -, there⟩ | ⟨later, one, -, there⟩
    · exact ⟨job, same, Or.inr ⟨rfl, rfl⟩⟩
    · exact ⟨new, there, Or.inl added⟩
    · exact ⟨later, there, Or.inr (one.keepsAcknowledgement other)⟩

end Law

end JobScheduler
