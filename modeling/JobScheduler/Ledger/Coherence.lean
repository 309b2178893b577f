import JobScheduler.Storage.InMemoryLedger
import JobScheduler.Persistence.SqliteLedger

/-! The fields of a stored record agree with its history: the current status and token are
those of the last entry, the claim fields belong to a run, the due instant to a wait, and the
failure reason to the last failure.
-/

namespace JobScheduler

open Library

namespace JobRecord

/-- A record whose fields agree with its history. -/
structure Coherent (job : JobRecord) : Prop where
  current
    : ∃ last,
        job.history.getLast? = some last
        ∧ job.currentStateChangeId = last.id
        ∧ job.status = last.status
  sequences : job.history.map JobStateChange.sequence = List.range' 1 job.history.length
  distinctIds : (job.history.map JobStateChange.id).Nodup
  claimPresent
    : job.status = .running
      → job.claimedBy.isSome ∧ job.claimedAt.isSome ∧ job.leaseExpiresAt.isSome
  claimAbsent
    : job.status ≠ .running
      → job.claimedBy = none ∧ job.claimedAt = none ∧ job.leaseExpiresAt = none
  dueWhilePending
    : job.isPending = true
      → ∃ enqueuedAt,
          job.enqueuedAt = .ok enqueuedAt
          ∧ job.runAt = some (job.scheduledAt.getD enqueuedAt)
  scheduledKnown
    : ∀ change ∈ job.history, change.status = .scheduled → job.scheduledAt.isSome
  dueAbsent : job.isPending = false → job.runAt = none
  failure : job.failureReason = (job.lastChange .failed).map JobStateChange.reason

end JobRecord

-----------------------------------------------------------------------------------------
-- Looking at an extended history
-----------------------------------------------------------------------------------------

/-- The entries without their sequence numbers. -/
def unnumbered (history : List JobStateChange) : List JobStateChange :=
  history.map (fun change => change.withSequence 0)

theorem unnumbered_numbered (history : List JobStateChange)
    : unnumbered (numbered history) = unnumbered history :=
  map_numbered (fun _ _ => rfl) history

/-- The last entry of a status, seen without its sequence number. -/
theorem find?_unnumbered (history : List JobStateChange) (status : JobStatus)
    : (unnumbered history).reverse.find? (fun change => change.status = status)
      = (history.reverse.find? (fun change => change.status = status)).map
          (fun change => change.withSequence 0) := by
  rw [unnumbered, ← List.map_reverse, List.find?_map]
  rfl

namespace JobRecord

/-- What the last entry of a status shows, after the history was extended: that entry is
looked for among the added ones first.
-/
theorem lastChange_extended {β : Type} {view : JobStateChange → β}
    (blind : ∀ change sequence, view (change.withSequence sequence) = view change)
    {job changed : JobRecord} {added : List JobStateChange}
    (history : changed.history = numbered (job.history ++ added)) (status : JobStatus)
    : (changed.lastChange status).map view
      = ((added.reverse.find? (fun change => change.status = status)).or
          (job.lastChange status)).map view := by
  have seen (found : Option JobStateChange)
      : found.map view = (found.map (fun change => change.withSequence 0)).map view := by
    rw [Option.map_map]
    congr 1
    funext change
    exact (blind change 0).symm
  have parts : ((job.history ++ added).reverse.find? (fun change => change.status = status))
      = (added.reverse.find? (fun change => change.status = status)).or
          (job.lastChange status) := by
    rw [List.reverse_append, List.find?_append, lastChange]
  rw [seen, lastChange, history, ← find?_unnumbered, unnumbered_numbered, find?_unnumbered,
    ← seen, parts]

/-- The last entry of an extended history is the last one added. -/
theorem getLast?_extended {job changed : JobRecord} {added : List JobStateChange}
    {last : JobStateChange} (history : changed.history = numbered (job.history ++ added))
    (final : added.getLast? = some last)
    : ∃ entry,
        changed.history.getLast? = some entry
        ∧ entry.id = last.id
        ∧ entry.status = last.status := by
  have shown : changed.history.getLast?.map (fun change => (change.id, change.status))
      = some (last.id, last.status) := by
    rw [history, ← List.getLast?_map, map_numbered (fun _ _ => rfl), List.getLast?_map,
      List.getLast?_append, final]
    rfl
  obtain ⟨entry, here, equal⟩ := Option.map_eq_some_iff.mp shown
  exact ⟨entry, here, (Prod.mk.inj equal).1, (Prod.mk.inj equal).2⟩

/-- The identifiers stay distinct when the added ones are new and distinct. -/
theorem distinctIds_extended {job changed : JobRecord} {added : List JobStateChange}
    (distinct : (job.history.map JobStateChange.id).Nodup)
    (history : changed.history = numbered (job.history ++ added))
    (addedDistinct : (added.map JobStateChange.id).Nodup)
    (new
      : ∀ id ∈ added.map JobStateChange.id, id ∉ job.history.map JobStateChange.id)
    : (changed.history.map JobStateChange.id).Nodup := by
  rw [history, ids_numbered, List.map_append, List.nodup_append]
  refine ⟨distinct, addedDistinct, ?_⟩
  rintro id here other there rfl
  exact new id there here

/-- Every `Scheduled` entry names the instant it schedules. -/
def ScheduledDated (job : JobRecord) : Prop :=
  ∀ change ∈ job.history, change.status = .scheduled → change.scheduledAt.isSome = true

/-- Entries of a renumbered history are entries of the history, up to their number. -/
theorem mem_numbered {history : List JobStateChange} {change : JobStateChange}
    (member : change ∈ numbered history)
    : ∃ entry ∈ history,
        entry.status = change.status ∧ entry.scheduledAt = change.scheduledAt := by
  obtain ⟨index, inside, rfl⟩ := List.mem_mapIdx.mp member
  exact ⟨history[index], List.getElem_mem inside, rfl, rfl⟩

theorem ScheduledDated.extended {job changed : JobRecord} {added : List JobStateChange}
    (dated : job.ScheduledDated)
    (history : changed.history = numbered (job.history ++ added))
    (addedDated
      : ∀ change ∈ added, change.status = .scheduled → change.scheduledAt.isSome = true)
    : changed.ScheduledDated := by
  intro change member scheduled
  rw [history] at member
  obtain ⟨entry, there, status, due⟩ := mem_numbered member
  rw [← due]
  rcases List.mem_append.mp there with old | new
  · exact dated entry old (status.trans scheduled)
  · exact addedDated entry new (status.trans scheduled)

/-- With every `Scheduled` entry dated, one such entry makes `ScheduledAt` present. -/
theorem ScheduledDated.known {job : JobRecord} (dated : job.ScheduledDated)
    {change : JobStateChange} (member : change ∈ job.history)
    (scheduled : change.status = .scheduled)
    : job.scheduledAt.isSome = true := by
  cases found : job.lastChange .scheduled with
  | none =>
      have absent := List.find?_eq_none.mp found change (List.mem_reverse.mpr member)
      simp [scheduled] at absent
  | some entry =>
      have there := List.mem_reverse.mp (List.mem_of_find?_eq_some found)
      have status : entry.status = .scheduled := by simpa using List.find?_some found
      rw [scheduledAt, found]
      exact dated entry there status

theorem enqueuedAt_of_nonempty {job : JobRecord} (nonempty : job.history ≠ [])
    : ∃ enqueuedAt, job.enqueuedAt = .ok enqueuedAt := by
  cases history : job.history with
  | nil => exact absurd history nonempty
  | cons first rest => exact ⟨first.changedAt, by rw [enqueuedAt, history]⟩

-----------------------------------------------------------------------------------------
-- Steps keep records coherent
-----------------------------------------------------------------------------------------

/-- Coherence with what carries it through a run. -/
structure CoherenceInvariant (job : JobRecord) : Prop where
  coherent : job.Coherent
  inOrder : job.Numbered
  dated : job.ScheduledDated

/-- New records are coherent, for both ways of making them. -/
theorem NewlyMade.coherenceInvariant {job : JobRecord} (new : job.NewlyMade)
    : job.CoherenceInvariant := by
  have inOrder := new.numbered
  obtain ⟨newGuid, changedAt, reason, made, token, claimedBy, claimedAt, lease, failure, _⟩ :=
    new.cases
  have dated : job.ScheduledDated := by
    rcases made with ⟨history, _⟩ | ⟨scheduledAt, history, _⟩ <;>
      simp [ScheduledDated, history, JobStateChange.withSequence, JobStateChange.queued,
        JobStateChange.scheduled, JobStateChange.create]
  have known : ∀ change ∈ job.history, change.status = .scheduled
      → job.scheduledAt.isSome = true :=
    fun change member scheduled => dated.known member scheduled
  have distinct : (job.history.map JobStateChange.id).Nodup := by
    rcases made with ⟨history, _⟩ | ⟨scheduledAt, history, _⟩ <;> simp [history]
  have sequences : job.history.map JobStateChange.sequence
      = List.range' 1 job.history.length := by
    rw [← inOrder, sequences_numbered, length_numbered]
  have pending : job.isPending = true := by
    rcases made with ⟨_, status, _⟩ | ⟨_, _, status, _⟩ <;> simp [isPending, status]
  have idle : job.status ≠ .running := by
    rcases made with ⟨_, status, _⟩ | ⟨_, _, status, _⟩ <;> simp [status]
  have current : ∃ last, job.history.getLast? = some last
      ∧ job.currentStateChangeId = last.id ∧ job.status = last.status := by
    rcases made with ⟨history, status, _⟩ | ⟨scheduledAt, history, status, _⟩
    · exact ⟨_, by rw [history]; rfl, token, status⟩
    · exact ⟨_, by rw [history]; rfl, token, status⟩
  have due : ∃ enqueuedAt, job.enqueuedAt = .ok enqueuedAt
      ∧ job.runAt = some (job.scheduledAt.getD enqueuedAt) := by
    rcases made with ⟨history, status, runAt⟩ | ⟨scheduledAt, history, status, runAt⟩
    · refine ⟨changedAt, by rw [JobRecord.enqueuedAt, history]; rfl, ?_⟩
      rw [runAt, JobRecord.scheduledAt, lastChange, history]
      rfl
    · refine ⟨changedAt, by rw [JobRecord.enqueuedAt, history]; rfl, ?_⟩
      rw [runAt, JobRecord.scheduledAt, lastChange, history]
      rfl
  have noFailure : job.lastChange .failed = none := by
    rcases made with ⟨history, _⟩ | ⟨scheduledAt, history, _⟩ <;>
      rw [lastChange, history] <;> rfl
  exact {
    coherent := {
      current := current
      sequences := sequences
      distinctIds := distinct
      claimPresent := fun running => absurd running idle
      claimAbsent := fun _ => ⟨claimedBy, claimedAt, lease⟩
      dueWhilePending := fun _ => due
      scheduledKnown := known
      dueAbsent := fun waits => absurd (pending.symm.trans waits) Bool.noConfusion
      failure := by rw [failure, noFailure]; rfl
    }
    inOrder := inOrder
    dated := dated
  }

/-- A transition to a last added entry keeps the invariant, given the fields it sets. -/
theorem CoherenceInvariant.transition {ambient : Ambient} {job changed : JobRecord}
    {call : StoreCall} {last : JobStateChange} (invariant : job.CoherenceInvariant)
    (history : changed.history = numbered (job.history ++ call.appended ambient job))
    (distinctDraws : ambient.newGuid ≠ ambient.newGuidAgain)
    (newDraws
      : ambient.newGuid ∉ job.history.map JobStateChange.id
        ∧ ambient.newGuidAgain ∉ job.history.map JobStateChange.id)
    (final : (call.appended ambient job).getLast? = some last)
    (token : changed.currentStateChangeId = last.id) (status : changed.status = last.status)
    (claim
      : if changed.status = .running then
          changed.claimedBy.isSome ∧ changed.claimedAt.isSome ∧ changed.leaseExpiresAt.isSome
        else
          changed.claimedBy = none ∧ changed.claimedAt = none ∧ changed.leaseExpiresAt = none)
    (due
      : if changed.isPending then
          changed.runAt.isSome ∧ changed.runAt = changed.scheduledAt
        else
          changed.runAt = none)
    (dated
      : ∀ change ∈ call.appended ambient job,
          change.status = .scheduled → change.scheduledAt.isSome = true)
    (failure
      : changed.failureReason
        = (((call.appended ambient job).reverse.find?
            (fun change => change.status = .failed)).or (job.lastChange .failed)).map
            JobStateChange.reason)
    : changed.CoherenceInvariant := by
  have drawn := call.appended_drawn ambient job
  have distinct := distinctIds_extended invariant.coherent.distinctIds history
    (drawn.nodup (by simpa using distinctDraws)) (by
      intro id added
      rcases List.mem_cons.mp (drawn.subset added) with rfl | rest
      · exact newDraws.1
      · exact List.mem_singleton.mp rest ▸ newDraws.2)
  have inOrder := numbered_of_construct history
  have nowDated := invariant.dated.extended history dated
  obtain ⟨entry, here, entryId, entryStatus⟩ := getLast?_extended history final
  refine ⟨⟨?_, ?_, distinct, ?_, ?_, ?_, ?_, ?_, ?_⟩, inOrder, nowDated⟩
  · exact ⟨entry, here, token.trans entryId.symm, status.trans entryStatus.symm⟩
  · rw [← inOrder, sequences_numbered, length_numbered]
  · intro running
    rwa [if_pos running] at claim
  · intro idle
    rwa [if_neg idle] at claim
  · intro pending
    rw [if_pos pending] at due
    obtain ⟨enqueuedAt, enqueued⟩ := @enqueuedAt_of_nonempty changed (by
      intro none
      rw [none] at here
      cases here)
    obtain ⟨runAt, present⟩ := Option.isSome_iff_exists.mp due.1
    refine ⟨enqueuedAt, enqueued, ?_⟩
    rw [present, ← due.2, present]
    rfl
  · exact fun change member scheduled => nowDated.known member scheduled
  · intro idle
    rwa [if_neg (by simp [idle])] at due
  · rw [failure, lastChange_extended (fun _ _ => rfl) history]

/-- A change of other fields under the same history keeps the invariant. -/
theorem CoherenceInvariant.sameHistory {job changed : JobRecord}
    (invariant : job.CoherenceInvariant) (history : changed.history = job.history)
    (status : changed.status = job.status)
    (token : changed.currentStateChangeId = job.currentStateChangeId)
    (runAt : changed.runAt = job.runAt) (failure : changed.failureReason = job.failureReason)
    (claimedBy : changed.claimedBy = job.claimedBy)
    (claimedAt : changed.claimedAt = job.claimedAt)
    (lease
      : changed.leaseExpiresAt = job.leaseExpiresAt
        ∨ job.status = .running ∧ changed.leaseExpiresAt.isSome = true)
    : changed.CoherenceInvariant := by
  obtain ⟨⟨current, sequences, distinct, present, absent, due, known, noDue, reason⟩, inOrder,
    dated⟩ := invariant
  have scheduledAt : changed.scheduledAt = job.scheduledAt := by
    simp only [JobRecord.scheduledAt, lastChange, history]
  have enqueuedAt : changed.enqueuedAt = job.enqueuedAt := by
    simp only [JobRecord.enqueuedAt, history]
  have pending : changed.isPending = job.isPending := by
    simp only [isPending, status]
  refine ⟨⟨?_, ?_, ?_, ?_, ?_, ?_, ?_, ?_, ?_⟩, ?_, ?_⟩
  · rwa [history, token, status]
  · rwa [history]
  · rwa [history]
  · intro running
    rw [status] at running
    obtain ⟨byWorker, atTime, expiry⟩ := present running
    refine ⟨claimedBy ▸ byWorker, claimedAt ▸ atTime, ?_⟩
    rcases lease with same | ⟨_, renewed⟩
    · exact same ▸ expiry
    · exact renewed
  · intro idle
    rw [status] at idle
    obtain ⟨byWorker, atTime, expiry⟩ := absent idle
    refine ⟨claimedBy.trans byWorker, claimedAt.trans atTime, ?_⟩
    rcases lease with same | ⟨running, _⟩
    · exact same.trans expiry
    · exact absurd running idle
  · rwa [pending, enqueuedAt, runAt, scheduledAt]
  · rwa [history, scheduledAt]
  · rwa [pending, runAt]
  · rw [failure, reason, lastChange, lastChange, history]
  · rwa [Numbered, history]
  · rwa [ScheduledDated, history]

/-- Every step keeps the invariant, one kind of step at a time. -/
theorem CoherenceInvariant.step {nextDue : DateTimeOffset → Option JobRecord}
    {ambient : Ambient} {call : StoreCall} {job changed : JobRecord}
    (invariant : job.CoherenceInvariant)
    (step : RecordStep nextDue ambient call job changed)
    (distinctDraws : ambient.newGuid ≠ ambient.newGuidAgain)
    (newDraws
      : ambient.newGuid ∉ job.history.map JobStateChange.id
        ∧ ambient.newGuidAgain ∉ job.history.map JobStateChange.id)
    : changed.CoherenceInvariant := by
  have history := step.history_eq
  cases step with
  | @claimed now workerId leaseExpiresAt =>
      obtain ⟨last, final, running, record⟩ := job.claimedUnder_eq ambient now workerId
        leaseExpiresAt
      refine invariant.transition history distinctDraws newDraws final ?_ ?_ ?_ ?_ ?_ ?_
      · rw [record]
      · rw [record, running]
      · rw [record]
        exact ⟨rfl, rfl, rfl⟩
      · rw [record]
        rfl
      · intro change member scheduled
        rcases StoreCall.appended_of_claim member with other | other <;>
          cases other.symm.trans scheduled
      · have none : ((StoreCall.tryClaimNextDueJob now workerId leaseExpiresAt).appended ambient
            job).reverse.find? (fun change => change.status = .failed) = none := by
          rw [List.find?_eq_none]
          intro change member failed
          rcases StoreCall.appended_of_claim (List.mem_reverse.mp member) with other | other <;>
            simp [other] at failed
        rw [none, Option.none_or, record]
        exact invariant.coherent.failure
  | renewed running =>
      exact invariant.sameHistory invariant.inOrder rfl rfl rfl rfl rfl rfl
        (Or.inr ⟨running, rfl⟩)
  | acknowledged =>
      exact invariant.sameHistory invariant.inOrder rfl rfl rfl rfl rfl rfl (Or.inl rfl)
  | completed =>
      exact invariant.transition history distinctDraws newDraws rfl rfl rfl ⟨rfl, rfl, rfl⟩ rfl
        (by simp [StoreCall.appended, JobStateChange.completed, JobStateChange.create])
        invariant.coherent.failure
  | failed =>
      exact invariant.transition history distinctDraws newDraws rfl rfl rfl ⟨rfl, rfl, rfl⟩ rfl
        (by simp [StoreCall.appended, JobStateChange.failed, JobStateChange.create]) rfl
  | retried =>
      exact invariant.transition history distinctDraws newDraws rfl rfl rfl ⟨rfl, rfl, rfl⟩
        ⟨rfl, (job.scheduledAt_scheduleRetry _ _ _ _ _).symm⟩
        (by simp [StoreCall.appended, JobStateChange.failed, JobStateChange.scheduled,
          JobStateChange.create]) rfl

end JobRecord

/-- Every job of a lawful store satisfies the invariant as long as drawn identifiers do not
repeat, by the rule for properties of single jobs.
-/
theorem LawfulStore.jobs_coherenceInvariant {State Caller : Type}
    {store : LawfulStore State Caller} {state : State}
    (reached
      : store.machine.Reaches
          (fun state input =>
            input.call.Admissible ∧ input.ambient.Fresh (store.ledger state))
          store.initial state)
    : ∀ job ∈ store.jobs state, job.CoherenceInvariant :=
  store.jobs_reached (P := JobRecord.CoherenceInvariant)
    (fun _ _ met => met.1) (fun _ _ _ _ _ new => new.coherenceInvariant) (by
      rintro state input job changed ⟨_, fresh⟩ step member holds
      exact holds.step step fresh.1 (fresh.2 job member)) reached

/-- In both stores, in every state reached by adding jobs as `Enqueue` and `Schedule` make
them and by any other calls with any arguments, every job is coherent, provided that the
identifiers a call draws are not stored yet.
-/
theorem jobs_coherent_of_reachable
    : (∀ store,
          InMemoryJobStore.lawful.machine.Reaches
              (fun store input =>
                input.call.Admissible ∧ input.ambient.Fresh store.jobsById)
              .empty store
          → ∀ job ∈ store.jobsById.rows, job.Coherent)
      ∧ ∀ db,
          SqliteJobStore.lawful.machine.Reaches
              (fun db input => input.call.Admissible ∧ input.ambient.Fresh db.ledger)
              .empty db
          → ∀ job ∈ db.ledger.rows, job.Coherent :=
  ⟨fun _ reached job member =>
      (InMemoryJobStore.lawful.jobs_coherenceInvariant reached job member).coherent,
    fun _ reached job member =>
      (SqliteJobStore.lawful.jobs_coherenceInvariant reached job member).coherent⟩

/-- The job claimed in a small run is coherent in both stores. -/
theorem jobs_coherent_of_reachable_firstClaim
    : (∀ job ∈ (InMemoryJobStore.lawful.machine.run .empty (firstClaimRun ())).2.jobsById.rows,
          job.Coherent)
      ∧ ∀ job ∈ (SqliteJobStore.lawful.machine.run .empty
            (firstClaimRun .everyRow)).2.ledger.rows,
          job.Coherent := by
  refine ⟨jobs_coherent_of_reachable.1 _ (Machine.reaches_run ?_),
    jobs_coherent_of_reachable.2 _ (Machine.reaches_run ?_)⟩
  · exact ⟨⟨smallJob_admissible, by decide +kernel⟩,
      ⟨StoreCall.admissible_claim _ _ _, by decide +kernel⟩, trivial⟩
  · exact ⟨⟨smallJob_admissible, by decide +kernel⟩,
      ⟨StoreCall.admissible_claim _ _ _, by decide +kernel⟩, trivial⟩

end JobScheduler
