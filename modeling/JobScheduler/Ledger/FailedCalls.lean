import JobScheduler.Ledger.ClaimOrder

/-! What a failed call leaves behind. The SQLite store rolls back; the in-memory store checks
a claim's arguments only after the pending candidate has left the index.
-/

namespace JobScheduler

open Library

/-- The call throws, or answers `false` or `null`. -/
def StoreAnswer.isFailure : StoreAnswer → Bool
  | .threw _ | .flag false | .job none => true
  | _ => false

namespace InMemoryJobStore

/-- The claim has no valid arguments, and the job it looks at first is pending. -/
def DropsEntry (store : InMemoryJobStore) (call : StoreCall) : Prop :=
  ∃ now workerId leaseExpiresAt job,
    call = .tryClaimNextDueJob now workerId leaseExpiresAt
    ∧ ¬ JobRecord.ValidClaim workerId now leaseExpiresAt
    ∧ store.nextDue now = some job
    ∧ job.isPending = true

/-- The last instant; every entry is due then. -/
def lastInstant : DateTimeOffset := ⟨maxTicks, le_rfl⟩

/-- A claim at the last instant, without a worker: it never claims a job. -/
def blankClaim : StoreInput Unit :=
  ⟨(), ⟨lastInstant, lastInstant, ⟨0⟩, ⟨0⟩⟩, .tryClaimNextDueJob lastInstant "" lastInstant⟩

/-- A blank claim answers `null` on an empty index, fails at a running job, or drops the
first entry.
-/
theorem Indexed.blankClaim_cases {store : InMemoryJobStore} (indexed : store.Indexed)
    : (lawful.machine.step store blankClaim = (.job none, store) ∧ store.pendingJobs = ∅)
      ∨ ∃ exception,
          (lawful.machine.step store blankClaim = (.threw exception, store)
            ∧ ∃ job, store.jobsById.find? job.id = some job ∧ job.status = .running)
          ∨ ∃ entry ∈ store.pendingJobs,
              (∀ other ∈ store.pendingJobs, entry ≤ other)
              ∧ lawful.machine.step store blankClaim
                = (.threw exception, ⟨store.jobsById, store.pendingJobs.erase entry⟩) := by
  change (methods.call _ (.tryClaimNextDueJob lastInstant "" lastInstant) store = _ ∧ _)
    ∨ ∃ exception,
        (methods.call _ (.tryClaimNextDueJob lastInstant "" lastInstant) store = _ ∧ _)
        ∨ ∃ entry ∈ store.pendingJobs,
            _ ∧ methods.call _ (.tryClaimNextDueJob lastInstant "" lastInstant) store = _
  simp only [IJobStore.call, methods]
  rcases indexed.claim_cases blankClaim.ambient lastInstant "" lastInstant with
    ⟨-, nothing, later⟩
    | ⟨job, -, stored, ⟨-, exception, ⟨thrown, expired⟩ | ⟨entry, member, first, -, thrown⟩⟩
      | ⟨valid, -⟩⟩
  · refine Or.inl ⟨by rw [nothing]; rfl, Finset.eq_empty_of_forall_notMem ?_⟩
    intro entry member
    exact absurd (later entry member) (not_lt.mpr entry.runAt.inRange)
  · exact Or.inr ⟨exception, Or.inl ⟨by rw [thrown]; rfl, job, stored, expired.1⟩⟩
  · exact Or.inr ⟨exception, Or.inr ⟨entry, member, first, by rw [thrown]; rfl⟩⟩
  · cases valid.1

/-- The completion of a stored running job. -/
def completion (job : JobRecord) : StoreInput Unit :=
  ⟨(), blankClaim.ambient, .markCompleted job.id job.currentStateChangeId⟩

/-- The completion of a running job is accepted, whatever the index holds. -/
theorem completion_step {store : InMemoryJobStore} {job : JobRecord}
    (stored : store.jobsById.find? job.id = some job) (running : job.status = .running)
    : (lawful.machine.step store (completion job)).2
      = ⟨store.jobsById.set (job.markedCompleted blankClaim.ambient.newGuid
            blankClaim.ambient.utcNow),
          store.pendingJobs⟩ := by
  have owned : (store.jobsById.find? job.id).filter (fun found =>
      found.isRunningUnder job.currentStateChangeId) = some job := by
    rw [stored]
    simp [Option.filter, JobRecord.isRunningUnder, running]
  change (methods.call _ (.markCompleted job.id job.currentStateChangeId) store).2 = _
  rw [call_revision rfl]
  simp only [owned, requeuedEntry, Finset.empty_union]
  rfl

/-- Running jobs and entries together. -/
def weight (store : InMemoryJobStore) : Nat :=
  (store.jobsById.rows.filter (fun job => job.status = .running)).length
  + store.pendingJobs.card

theorem weight_completed {store : InMemoryJobStore} {job : JobRecord}
    (stored : store.jobsById.find? job.id = some job) (running : job.status = .running)
    : weight ⟨store.jobsById.set (job.markedCompleted blankClaim.ambient.newGuid
          blankClaim.ambient.utcNow), store.pendingJobs⟩
      < store.weight := by
  have taken := (@KeyedTable.filter_set_perm _ _ _ _ store.jobsById
    (fun job => job.status = .running) job
    (job.markedCompleted blankClaim.ambient.newGuid blankClaim.ambient.utcNow)
    (KeyedTable.find?_mem stored) rfl (by simpa using running) rfl).length_eq
  simp only [List.length_cons] at taken
  simp only [weight]
  omega

/-- A store that lost its first entry answers some later calls differently. By induction on
the weight: completions remove the running jobs, and blank claims the entries, until one store
has an entry to look at and the other one has none.
-/
theorem Indexed.not_equivalent_erase {store : InMemoryJobStore} (indexed : store.Indexed)
    {entry : JobQueueEntry} (member : entry ∈ store.pendingJobs)
    (first : ∀ other ∈ store.pendingJobs, entry ≤ other)
    : ¬ lawful.machine.Equivalent ⟨store.jobsById, store.pendingJobs.erase entry⟩ store := by
  induction bound : store.weight using Nat.strong_induction_on generalizing store entry with
  | _ weight ih =>
    subst bound
    intro same
    -- a running job is completed in both stores
    have complete {job : JobRecord} (stored : store.jobsById.find? job.id = some job)
        (running : job.status = .running) : False := by
      have next := (same.step (completion job)).2
      rw [completion_step stored running,
        @completion_step ⟨store.jobsById, store.pendingJobs.erase entry⟩ job stored running]
        at next
      have kept : Indexed ⟨store.jobsById.set (job.markedCompleted blankClaim.ambient.newGuid
          blankClaim.ambient.utcNow), store.pendingJobs⟩ := by
        rw [← completion_step stored running]
        refine indexed.call _ ?_ ?_
        · intro other added
          cases added
        · intro other added
          cases added
      exact ih _ (weight_completed stored running) kept member first rfl next
    rcases indexed.blankClaim_cases with
      ⟨-, empty⟩ | ⟨exception, ⟨-, job, stored, running⟩ | ⟨least, there, leastFirst, thrown⟩⟩
    · rw [empty] at member
      simp at member
    · exact complete stored running
    · -- the entry is dropped, and the store continues as the one without it
      have equal : least = entry := le_antisymm (leastFirst entry member) (first least there)
      subst equal
      have lost : Indexed ⟨store.jobsById, store.pendingJobs.erase least⟩ := by
        have kept := indexed.call blankClaim.ambient
          (StoreCall.admissible_claim lastInstant "" lastInstant) (fun job added => by cases added)
        change (lawful.machine.step store blankClaim).2.Indexed at kept
        rwa [thrown] at kept
      obtain ⟨answers, next⟩ := same.step blankClaim
      rw [thrown] at answers next
      rcases lost.blankClaim_cases with
        ⟨nothing, -⟩ | ⟨again, ⟨-, job, stored, running⟩ | ⟨second, inside, secondFirst, dropped⟩⟩
      · rw [nothing] at answers
        cases answers
      · exact complete stored running
      · rw [dropped] at next
        refine ih _ ?_ lost inside secondFirst rfl next
        have smaller := Finset.card_erase_lt_of_mem there
        unfold InMemoryJobStore.weight
        simp only
        omega

/-- A failed call goes unnoticed exactly when it does not drop an entry. -/
theorem Indexed.failed_iff {store : InMemoryJobStore} (indexed : store.Indexed)
    {input : StoreInput Unit} (notAdd : ∀ job, input.call ≠ .add job)
    (failed : (lawful.machine.step store input).1.isFailure = true)
    : lawful.machine.Equivalent (lawful.machine.step store input).2 store
      ↔ ¬ store.DropsEntry input.call := by
  obtain ⟨caller, ambient, call⟩ := input
  have unchanged (same : (methods.call ambient call store).2 = store)
      (noDrop : ¬ store.DropsEntry call)
      : lawful.machine.Equivalent (methods.call ambient call store).2 store
        ↔ ¬ store.DropsEntry call :=
    iff_of_true (by rw [same]; exact .refl store) noDrop
  change (methods.call ambient call store).1.isFailure = true at failed
  change lawful.machine.Equivalent (methods.call ambient call store).2 store ↔ _
  cases call with
  | add job => exact absurd rfl (notAdd job)
  | get | list =>
      refine unchanged rfl ?_
      rintro ⟨_, _, _, _, claims, -⟩
      cases claims
  | tryClaimNextDueJob now workerId leaseExpiresAt =>
      simp only [IJobStore.call, methods] at failed unchanged ⊢
      rcases indexed.claim_cases ambient now workerId leaseExpiresAt with
        ⟨nothing, answered, -⟩
        | ⟨job, picks, -, ⟨invalid, exception, ⟨thrown, expired⟩ | ⟨entry, member, first, waits,
            thrown⟩⟩ | ⟨valid, pendingJobs, claimed, -⟩⟩
      · refine unchanged (by rw [answered]; rfl) ?_
        rintro ⟨_, _, _, job, claims, -, picks, -⟩
        cases claims
        cases nothing.symm.trans picks
      · refine unchanged (by rw [thrown]; rfl) ?_
        rintro ⟨_, _, _, other, claims, -, otherPicks, waits⟩
        cases claims
        cases picks.symm.trans otherPicks
        cases (notPending_of_running expired.1).symm.trans waits
      · refine iff_of_false ?_ (not_not.mpr ⟨_, _, _, job, rfl, invalid, picks, waits⟩)
        rw [thrown]
        exact indexed.not_equivalent_erase member first
      · rw [claimed] at failed
        cases failed
  | renewLease | markCompleted | markFailed | scheduleRetry | acknowledge =>
      refine unchanged ?_ ?_
      · refine lawful.refusalKeeps () ambient _ store _ trivial rfl ?_
        intro accepted
        change (methods.call ambient _ store).1 = .flag true at accepted
        rw [accepted] at failed
        cases failed
      · rintro ⟨_, _, _, _, claims, -⟩
        cases claims

theorem indexed_of_reached {store : InMemoryJobStore}
    (reached : lawful.machine.Reaches lawful.NewIds .empty store)
    : store.Indexed :=
  reached.preserves
    (fun _ input indexed met => indexed.call input.ambient met.admissible met.newId)
    empty_exact.toIndexed

end InMemoryJobStore

/-- A failed call leaves the database as it was. -/
theorem SqliteJobStore.failed_unchanged {db : Database} (sound : db.Sound)
    {input : StoreInput QueryFilter} (notAdd : ∀ job, input.call ≠ .add job)
    (failed : (lawful.machine.step db input).1.isFailure = true)
    : (lawful.machine.step db input).2 = db := by
  obtain ⟨filter, ambient, call⟩ := input
  change ((methods filter).call ambient call db).1.isFailure = true at failed
  change ((methods filter).call ambient call db).2 = db
  cases call with
  | add job => exact absurd rfl (notAdd job)
  | get | list => rfl
  | tryClaimNextDueJob now workerId leaseExpiresAt =>
      simp only [IJobStore.call, methods] at failed ⊢
      cases picks : nextDue filter db now with
      | none => rw [tryClaimNextDueJob_of_none picks]; rfl
      | some job =>
          by_cases valid : JobRecord.ValidClaim workerId now leaseExpiresAt
          · rcases @tryClaimNextDueJob_of_valid _ _ ambient _ _ _ _ sound picks valid with
              ⟨next, claimed, -⟩ | ⟨thrown, -⟩
            · rw [claimed] at failed
              cases failed
            · rw [thrown]
              rfl
          · obtain ⟨exception, thrown⟩ :=
              @tryClaimNextDueJob_of_invalid _ _ ambient _ _ _ _ picks valid
            rw [thrown]
            rfl
  | renewLease | markCompleted | markFailed | scheduleRetry | acknowledge =>
      refine lawful.refusalKeeps filter ambient _ db _ sound rfl ?_
      intro accepted
      change ((methods filter).call ambient _ db).1 = .flag true at accepted
      rw [accepted] at failed
      cases failed

/-- A failed call of a claim, renewal, completion, failure, retry or acknowledgement goes
unnoticed by every later call: in the SQLite store always, in the in-memory store exactly when
it is not a claim without valid arguments that looks at a pending job first.
-/
theorem failed_call_unnoticed_iff (ambient : Ambient) {call : StoreCall}
    (notAdd : ∀ job, call ≠ .add job)
    : (∀ store,
          InMemoryJobStore.lawful.machine.Reaches InMemoryJobStore.lawful.NewIds .empty store
          → (InMemoryJobStore.lawful.machine.step store ⟨(), ambient, call⟩).1.isFailure = true
          → (InMemoryJobStore.lawful.machine.Equivalent
                (InMemoryJobStore.lawful.machine.step store ⟨(), ambient, call⟩).2 store
              ↔ ¬ store.DropsEntry call))
      ∧ ∀ filter db,
          SqliteJobStore.lawful.Reachable db
          → (SqliteJobStore.lawful.machine.step db ⟨filter, ambient, call⟩).1.isFailure = true
          → SqliteJobStore.lawful.machine.Equivalent
              (SqliteJobStore.lawful.machine.step db ⟨filter, ambient, call⟩).2 db := by
  refine ⟨?_, ?_⟩
  · intro store reached failed
    exact (InMemoryJobStore.indexed_of_reached reached).failed_iff notAdd failed
  · intro filter db reached failed
    rw [SqliteJobStore.failed_unchanged reached.sound notAdd failed]
    exact .refl db

/-- In the busy stores a claim without a worker at tick 8 looks at the job whose lease has
expired first, and fails unnoticed, though other jobs are due.
-/
theorem failed_call_unnoticed_iff_busy
    : InMemoryJobStore.lawful.machine.Equivalent
          (InMemoryJobStore.lawful.machine.step .busy
            ⟨(), smallAmbient 8, .tryClaimNextDueJob (.ofTicks 8) "" (.ofTicks 15)⟩).2 .busy
      ∧ SqliteJobStore.lawful.machine.Equivalent
          (SqliteJobStore.lawful.machine.step .busy
            ⟨.everyRow, smallAmbient 8, .tryClaimNextDueJob (.ofTicks 8) "" (.ofTicks 15)⟩).2
          .busy := by
  obtain ⟨inMemory, sqlite⟩ := @failed_call_unnoticed_iff (smallAmbient 8)
    (.tryClaimNextDueJob (.ofTicks 8) "" (.ofTicks 15)) (fun job added => by cases added)
  refine ⟨?_, ?_⟩
  · have reached : InMemoryJobStore.lawful.machine.Reaches InMemoryJobStore.lawful.NewIds .empty
        .busy :=
      (Machine.reaches_run InMemoryJobStore.busyRun_orderly).mono (fun _ _ met =>
        ⟨met.1.admissible, fun job added => (met.1.newJob job added).1⟩)
    refine (inMemory _ reached (by decide +kernel)).mpr ?_
    rintro ⟨now, workerId, leaseExpiresAt, job, claims, -, picks, waits⟩
    cases claims
    have first : (InMemoryJobStore.busy.nextDue (.ofTicks 8)).map JobRecord.isPending
        = some false := by
      decide +kernel
    rw [picks, Option.map_some, waits] at first
    cases first
  · have reached : SqliteJobStore.lawful.Reachable .busy :=
      (Machine.reaches_run SqliteJobStore.busyRun_orderly).mono (fun _ _ met =>
        met.1.admissible)
    exact sqlite .everyRow _ reached (by decide +kernel)

/-- A claim without a worker at tick 1. -/
def namelessClaim {Caller : Type} (caller : Caller) : StoreInput Caller :=
  ⟨caller, smallAmbient 1, .tryClaimNextDueJob (.ofTicks 1) "" (.ofTicks 5)⟩

/-- The stores with one new job. -/
def InMemoryJobStore.small : InMemoryJobStore :=
  (InMemoryJobStore.lawful.machine.step .empty ⟨(), smallAmbient 0, .add smallJob⟩).2

def Database.small : Database :=
  (SqliteJobStore.lawful.machine.step .empty ⟨.everyRow, smallAmbient 0, .add smallJob⟩).2

/-- After the claim without a worker threw, the next valid claim at the same tick gets nothing
from the in-memory store, where it would have got the job.
-/
theorem failed_claim_loses_job
    : InMemoryJobStore.lawful.machine.Reaches InMemoryJobStore.lawful.NewIds .empty
          InMemoryJobStore.small
      ∧ (InMemoryJobStore.lawful.machine.step .small (namelessClaim ())).1.isFailure = true
      ∧ (InMemoryJobStore.lawful.machine.step
            (InMemoryJobStore.lawful.machine.step .small (namelessClaim ())).2
            ⟨(), smallAmbient 2, .tryClaimNextDueJob (.ofTicks 1) "worker-1" (.ofTicks 5)⟩).1
          = .job none
      ∧ (InMemoryJobStore.lawful.machine.step .small
            ⟨(), smallAmbient 2, .tryClaimNextDueJob (.ofTicks 1) "worker-1" (.ofTicks 5)⟩).1
          = .job (some (smallJob.claimedUnder (smallAmbient 2) (.ofTicks 1) "worker-1"
              (.ofTicks 5)))
      ∧ ¬ InMemoryJobStore.lawful.machine.Equivalent
          (InMemoryJobStore.lawful.machine.step .small (namelessClaim ())).2 .small := by
  refine ⟨?_, by decide +kernel, by decide +kernel, by decide +kernel, ?_⟩
  · refine (Machine.Reaches.refl _).step ⟨smallJob_admissible, ?_⟩
    intro job added
    cases added
    rfl
  · intro same
    have answers := same
      [⟨(), smallAmbient 2, .tryClaimNextDueJob (.ofTicks 1) "worker-1" (.ofTicks 5)⟩]
    revert answers
    decide +kernel

end JobScheduler
