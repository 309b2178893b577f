import JobScheduler.Storage.InMemoryLedger
import JobScheduler.Ledger.RecordSteps

/-! The pending index of the in-memory store. Every entry belongs to a pending job and names
its due instant; as long as claims have valid arguments, every pending job has its entry, and
a claim looks at the job that is due first.
-/

namespace JobScheduler

open Library

namespace InMemoryJobStore

/-- The entries belong to pending jobs, one entry to a job. -/
structure Indexed (store : InMemoryJobStore) : Prop where
  entries
    : ∀ entry ∈ store.pendingJobs,
        ∃ job,
          store.jobsById.find? entry.jobId = some job
          ∧ job.isPending = true
          ∧ job.runAt = some entry.runAt
  unique
    : ∀ entry ∈ store.pendingJobs,
        ∀ other ∈ store.pendingJobs, entry.jobId = other.jobId → entry = other
  recorded
    : ∀ job ∈ store.jobsById.rows, job.status = .running → job.claimedAt.isSome = true

/-- Every pending job has an entry as well. -/
structure Exact (store : InMemoryJobStore) : Prop extends Indexed store where
  complete
    : ∀ job ∈ store.jobsById.rows,
        job.isPending = true → ∃ entry ∈ store.pendingJobs, entry.jobId = job.id

-----------------------------------------------------------------------------------------
-- What a claim looks at
-----------------------------------------------------------------------------------------

/-- Every lease that has expired at `now` did so at the instant or later. -/
def LeasesFrom (store : InMemoryJobStore) (now instant : DateTimeOffset) : Prop :=
  ∀ job ∈ store.jobsById.rows,
    ∀ lease,
      job.status = .running → job.leaseExpiresAt = some lease → lease ≤ now → instant ≤ lease

/-- A job with an expired lease is due at the end of the lease. -/
theorem dueInstant_of_leaseExpired {job : JobRecord} {now lease : DateTimeOffset}
    (expired : job.LeaseExpired now) (expires : job.leaseExpiresAt = some lease)
    : job.dueInstant = some lease ∧ lease ≤ now := by
  obtain ⟨running, expiry, known, past⟩ := expired
  cases known.symm.trans expires
  exact ⟨by rw [JobRecord.dueInstant, if_pos running, expires], past⟩

/-- An entry names the due instant of its job, which is pending. -/
theorem Indexed.dueInstant_of_entry {store : InMemoryJobStore} (indexed : store.Indexed)
    {entry : JobQueueEntry} (member : entry ∈ store.pendingJobs)
    : ∃ job,
        store.jobsById.find? entry.jobId = some job
        ∧ job.dueInstant = some entry.runAt
        ∧ job.isPending = true := by
  obtain ⟨job, found, pending, runAt⟩ := indexed.entries entry member
  have idle : job.status ≠ .running := by
    intro running
    simp [JobRecord.isPending, running] at pending
  exact ⟨job, found, by rw [JobRecord.dueInstant, if_neg idle, runAt], pending⟩

/-- The order of entries looks at their instants first. -/
theorem runAt_le_of_le {entry other : JobQueueEntry} (order : entry ≤ other)
    : entry.runAt ≤ other.runAt := by
  have keys : entry.sortKey ≤ other.sortKey := order
  rw [JobQueueEntry.sortKey, JobQueueEntry.sortKey, Prod.Lex.toLex_le_toLex] at keys
  rcases keys with less | ⟨equal, -⟩
  · exact less.le
  · exact equal.le

/-- The pending candidate is the first entry, if it is due. -/
theorem nextPendingJob_spec (now : DateTimeOffset) (store : InMemoryJobStore)
    : (nextPendingJob now store = none ∧ ∀ entry ∈ store.pendingJobs, now < entry.runAt)
      ∨ ∃ entry ∈ store.pendingJobs,
          nextPendingJob now store = some entry
          ∧ entry.runAt ≤ now
          ∧ ∀ other ∈ store.pendingJobs, entry ≤ other := by
  unfold nextPendingJob
  cases least : store.pendingJobs.min with
  | top =>
      refine Or.inl ⟨rfl, ?_⟩
      rw [Finset.min_eq_top.mp least]
      intro entry member
      simp at member
  | coe entry =>
      have first : ∀ other ∈ store.pendingJobs, entry ≤ other :=
        fun other member => Finset.min_le_of_eq member least
      by_cases due : entry.runAt ≤ now
      · exact Or.inr ⟨entry, Finset.mem_of_min least, if_pos due, due, first⟩
      · refine Or.inl ⟨if_neg due, ?_⟩
        intro other member
        exact lt_of_lt_of_le (not_le.mp due) (runAt_le_of_le (first other member))

theorem expiredLease_eq_some {now lease : DateTimeOffset} {job : JobRecord}
    : expiredLease now job = some lease
      ↔ job.status = .running ∧ job.leaseExpiresAt = some lease ∧ lease ≤ now := by
  unfold expiredLease
  by_cases running : job.status = .running
  · simp [running, Option.filter_eq_some_iff]
  · simp [running]

/-- The expired candidate is the running job whose lease expired first. -/
theorem nextExpiredRunningJob_spec (now : DateTimeOffset) {store : InMemoryJobStore}
    (recorded
      : ∀ job ∈ store.jobsById.rows, job.status = .running → job.claimedAt.isSome = true)
    : (nextExpiredRunningJob now store = .ok none
        ∧ ∀ job ∈ store.jobsById.rows, ¬ job.LeaseExpired now)
      ∨ ∃ entry job,
          nextExpiredRunningJob now store = .ok (some entry)
          ∧ store.jobsById.find? entry.jobId = some job
          ∧ job.LeaseExpired now
          ∧ job.leaseExpiresAt = some entry.runAt
          ∧ store.LeasesFrom now entry.runAt := by
  unfold nextExpiredRunningJob
  have listed (lease : DateTimeOffset) (job : JobRecord)
      : (lease, job) ∈ store.jobsById.rows.filterMap
            (fun job => (expiredLease now job).map (fun lease => (lease, job)))
        ↔ job ∈ store.jobsById.rows ∧ expiredLease now job = some lease := by
    simp only [List.mem_filterMap, Option.map_eq_some_iff, Prod.mk.injEq]
    constructor
    · rintro ⟨_, member, _, expired, rfl, rfl⟩
      exact ⟨member, expired⟩
    · rintro ⟨member, expired⟩
      exact ⟨job, member, lease, expired, rfl, rfl⟩
  generalize store.jobsById.rows.filterMap
    (fun job => (expiredLease now job).map (fun lease => (lease, job))) = expired at listed ⊢
  cases picked : expired.argmin (fun entry => toLex (entry.1, entry.2.id)) with
  | none =>
      refine Or.inl ⟨by simp only [picked], ?_⟩
      rintro job member ⟨running, lease, expires, past⟩
      have inside := (listed lease job).mpr
        ⟨member, expiredLease_eq_some.mpr ⟨running, expires, past⟩⟩
      rw [List.argmin_eq_none.mp picked] at inside
      cases inside
  | some least =>
      obtain ⟨lease, job⟩ := least
      obtain ⟨member, found⟩ := (listed lease job).mp (List.argmin_mem picked)
      obtain ⟨running, expires, past⟩ := expiredLease_eq_some.mp found
      obtain ⟨claimedAt, claimed⟩ := Option.isSome_iff_exists.mp (recorded job member running)
      refine Or.inr ⟨⟨lease, claimedAt, job.id⟩, job, ?_, KeyedTable.find?_of_mem member,
        ⟨running, lease, expires, past⟩, expires, ?_⟩
      · simp only [picked, claimed]
        rfl
      · intro other there otherLease otherRuns otherExpires otherPast
        have inside := (listed otherLease other).mpr
          ⟨there, expiredLease_eq_some.mpr ⟨otherRuns, otherExpires, otherPast⟩⟩
        let key (entry : DateTimeOffset × JobRecord) : DateTimeOffset ×ₗ Guid :=
          toLex (entry.1, entry.2.id)
        have order : key (lease, job) ≤ key (otherLease, other) :=
          List.le_of_mem_argmin inside picked
        rcases Prod.Lex.toLex_le_toLex.mp order with less | ⟨equal, -⟩
        · exact less.le
        · exact equal.le

/-- What the claim loop looks at: nothing, as nothing is due by the index and the leases, or
the job of the candidate that is due first.
-/
theorem Indexed.next_spec {store : InMemoryJobStore} (indexed : store.Indexed)
    (now : DateTimeOffset)
    : (nextDuePendingOrExpiredRunningJob now store = .ok none
        ∧ (∀ entry ∈ store.pendingJobs, now < entry.runAt)
        ∧ ∀ job ∈ store.jobsById.rows, ¬ job.LeaseExpired now)
      ∨ ∃ nextJob job,
          nextDuePendingOrExpiredRunningJob now store = .ok (some nextJob)
          ∧ store.jobsById.find? nextJob.jobId = some job
          ∧ job.dueInstant = some nextJob.runAt
          ∧ nextJob.runAt ≤ now
          ∧ (job.isPending = true
              ∧ nextJob ∈ store.pendingJobs
              ∧ (∀ entry ∈ store.pendingJobs, nextJob ≤ entry)
            ∨ job.LeaseExpired now)
          ∧ (∀ entry ∈ store.pendingJobs, nextJob.runAt ≤ entry.runAt)
          ∧ store.LeasesFrom now nextJob.runAt := by
  unfold nextDuePendingOrExpiredRunningJob
  rcases nextExpiredRunningJob_spec now indexed.recorded with
    ⟨noExpired, none⟩ | ⟨expiredJob, running, isExpired, stored, expired, expires, leastLease⟩
  · rcases nextPendingJob_spec now store with
      ⟨noPending, later⟩ | ⟨pendingJob, member, isPending, due, first⟩
    · exact Or.inl ⟨by rw [noExpired, noPending]; rfl, later, none⟩
    · obtain ⟨job, found, instant, waits⟩ := indexed.dueInstant_of_entry member
      refine Or.inr ⟨pendingJob, job, by rw [noExpired, isPending]; rfl, found, instant, due,
        Or.inl ⟨waits, member, first⟩, fun entry there => runAt_le_of_le (first entry there), ?_⟩
      intro other there lease otherRuns otherExpires past
      exact absurd ⟨otherRuns, lease, otherExpires, past⟩ (none other there)
  · obtain ⟨instant, past⟩ := dueInstant_of_leaseExpired expired expires
    rcases nextPendingJob_spec now store with
      ⟨noPending, later⟩ | ⟨pendingJob, member, isPending, due, first⟩
    · refine Or.inr ⟨expiredJob, running, by rw [isExpired, noPending]; rfl, stored, instant,
        past, Or.inr expired, ?_, leastLease⟩
      intro entry there
      exact past.trans (later entry there).le
    · by_cases sooner : (pendingJob.compareTo expiredJob).isLE
      · obtain ⟨job, found, dueAt, waits⟩ := indexed.dueInstant_of_entry member
        have order := runAt_le_of_le ((JobQueueEntry.compareTo_isLE _ _).mp sooner)
        refine Or.inr ⟨pendingJob, job, ?_, found, dueAt, due, Or.inl ⟨waits, member, first⟩,
          fun entry there => runAt_le_of_le (first entry there), ?_⟩
        · rw [isExpired, isPending]
          exact congrArg (fun picked => Except.ok (some picked)) (if_pos sooner)
        · intro other there lease otherRuns otherExpires elapsed
          exact order.trans (leastLease other there lease otherRuns otherExpires elapsed)
      · have order : expiredJob.runAt ≤ pendingJob.runAt := by
          refine runAt_le_of_le (le_of_not_ge ?_)
          intro other
          exact sooner ((JobQueueEntry.compareTo_isLE _ _).mpr other)
        refine Or.inr ⟨expiredJob, running, ?_, stored, instant, past, Or.inr expired, ?_,
          leastLease⟩
        · rw [isExpired, isPending]
          exact congrArg (fun picked => Except.ok (some picked)) (if_neg sooner)
        · intro entry there
          exact order.trans (runAt_le_of_le (first entry there))

/-- The index after one job was written: entries of other jobs are the old ones, and those
of the written job fit it.
-/
structure IndexWrite (store : InMemoryJobStore) (changed : JobRecord)
    (pendingJobs : Finset JobQueueEntry) : Prop where
  others
    : ∀ entry, entry.jobId ≠ changed.id → (entry ∈ pendingJobs ↔ entry ∈ store.pendingJobs)
  own
    : ∀ entry ∈ pendingJobs,
        entry.jobId = changed.id
        → changed.isPending = true ∧ changed.runAt = some entry.runAt
  one
    : ∀ entry ∈ pendingJobs,
        ∀ other ∈ pendingJobs,
          entry.jobId = changed.id → other.jobId = changed.id → entry = other
  present
    : store.Exact
      → changed.isPending = true
      → ∃ entry ∈ pendingJobs, entry.jobId = changed.id
  recorded : changed.status = .running → changed.claimedAt.isSome = true

/-- A write that fits keeps the entries on pending jobs. -/
theorem IndexWrite.indexed {store : InMemoryJobStore} {changed : JobRecord}
    {pendingJobs : Finset JobQueueEntry} (write : IndexWrite store changed pendingJobs)
    (indexed : store.Indexed)
    : Indexed ⟨store.jobsById.set changed, pendingJobs⟩ := by
  refine ⟨?_, ?_, ?_⟩
  · intro entry member
    by_cases same : entry.jobId = changed.id
    · obtain ⟨waits, runAt⟩ := write.own entry member same
      exact ⟨changed, by simp [same], waits, runAt⟩
    · obtain ⟨job, found, rest⟩ := indexed.entries entry ((write.others entry same).mp member)
      exact ⟨job, by rw [KeyedTable.find?_set_ne (Ne.symm same)]; exact found, rest⟩
  · intro entry member other there same
    by_cases own : entry.jobId = changed.id
    · exact write.one entry member other there own (same.symm.trans own)
    · exact indexed.unique entry ((write.others entry own).mp member) other
        ((write.others other (same ▸ own)).mp there) same
  · intro job member running
    rcases KeyedTable.mem_set.mp member with rfl | ⟨old, -⟩
    · exact write.recorded running
    · exact indexed.recorded job old running

/-- A write that fits keeps the index exact. -/
theorem IndexWrite.exact {store : InMemoryJobStore} {changed : JobRecord}
    {pendingJobs : Finset JobQueueEntry} (write : IndexWrite store changed pendingJobs)
    (exact : store.Exact)
    : Exact ⟨store.jobsById.set changed, pendingJobs⟩ where
  toIndexed := write.indexed exact.toIndexed
  complete job member waits := by
    rcases KeyedTable.mem_set.mp member with rfl | ⟨old, different⟩
    · exact write.present exact waits
    · obtain ⟨entry, there, same⟩ := exact.complete job old waits
      have other : entry.jobId ≠ changed.id := same ▸ different
      exact ⟨entry, (write.others entry other).mpr there, same⟩

/-- A job without an entry becomes pending and is entered at its due instant. -/
theorem IndexWrite.entered {store : InMemoryJobStore} {changed : JobRecord}
    {runAt : DateTimeOffset}
    (without : ∀ entry ∈ store.pendingJobs, entry.jobId ≠ changed.id)
    (waits : changed.isPending = true) (due : changed.runAt = some runAt)
    (addedAt : DateTimeOffset)
    : IndexWrite store changed (insert ⟨runAt, addedAt, changed.id⟩ store.pendingJobs) := by
  have only : ∀ entry ∈ insert ⟨runAt, addedAt, changed.id⟩ store.pendingJobs,
      entry.jobId = changed.id → entry = ⟨runAt, addedAt, changed.id⟩ := by
    intro entry member same
    rcases Finset.mem_insert.mp member with here | old
    · exact here
    · exact absurd same (without entry old)
  refine ⟨?_, ?_, ?_, ?_, ?_⟩
  · intro entry different
    rw [Finset.mem_insert]
    refine ⟨fun member => member.resolve_left ?_, Or.inr⟩
    rintro rfl
    exact different rfl
  · intro entry member same
    rw [only entry member same]
    exact ⟨waits, due⟩
  · intro entry member other there same sameOther
    rw [only entry member same, only other there sameOther]
  · exact fun _ _ => ⟨_, Finset.mem_insert_self _ _, rfl⟩
  · intro running
    simp [JobRecord.isPending, running] at waits

/-- A job stops waiting or goes on not to wait, and no entry of it is left. -/
theorem IndexWrite.idle {store : InMemoryJobStore} {changed : JobRecord}
    {pendingJobs : Finset JobQueueEntry}
    (others
      : ∀ entry,
          entry ∈ pendingJobs ↔ entry ∈ store.pendingJobs ∧ entry.jobId ≠ changed.id)
    (idle : changed.isPending = false)
    (recorded : changed.status = .running → changed.claimedAt.isSome = true)
    : IndexWrite store changed pendingJobs := by
  refine ⟨?_, ?_, ?_, ?_, recorded⟩
  · intro entry different
    rw [others]
    exact ⟨And.left, fun member => ⟨member, different⟩⟩
  · intro entry member same
    exact absurd same ((others entry).mp member).2
  · intro entry member other there same
    exact absurd same ((others entry).mp member).2
  · intro _ waits
    cases idle.symm.trans waits

/-- A job goes on to wait for the same instant, or not to wait, under the same entries. -/
theorem IndexWrite.kept {store : InMemoryJobStore} {job changed : JobRecord}
    (indexed : store.Indexed) (stored : store.jobsById.find? job.id = some job)
    (sameId : changed.id = job.id) (status : changed.status = job.status)
    (runAt : changed.runAt = job.runAt) (claimedAt : changed.claimedAt = job.claimedAt)
    : IndexWrite store changed store.pendingJobs := by
  have pending : changed.isPending = job.isPending := by
    simp only [JobRecord.isPending, status]
  refine ⟨fun _ _ => Iff.rfl, ?_, ?_, ?_, ?_⟩
  · intro entry member same
    obtain ⟨owner, found, waits, due⟩ := indexed.entries entry member
    rw [same, sameId, stored] at found
    cases found
    exact ⟨pending.trans waits, runAt.trans due⟩
  · intro entry member other there same sameOther
    exact indexed.unique entry member other there (same.trans sameOther.symm)
  · intro exact waits
    obtain ⟨entry, there, same⟩ := exact.complete job (KeyedTable.find?_mem stored)
      (pending.symm.trans waits)
    exact ⟨entry, there, same.trans sameId.symm⟩
  · intro running
    rw [claimedAt]
    exact indexed.recorded job (KeyedTable.find?_mem stored) (status.symm.trans running)

/-- A job that is not pending, or not stored, has no entry. -/
theorem Indexed.without {store : InMemoryJobStore} (indexed : store.Indexed) {id : Guid}
    (idle : ∀ job, store.jobsById.find? id = some job → job.isPending = false)
    : ∀ entry ∈ store.pendingJobs, entry.jobId ≠ id := by
  rintro entry member rfl
  obtain ⟨job, found, waits, -⟩ := indexed.entries entry member
  cases (idle job found).symm.trans waits

theorem notPending_of_running {job : JobRecord} (running : job.status = .running)
    : job.isPending = false := by
  simp [JobRecord.isPending, running]

/-- A revision that is made fits the index, one kind of revision at a time. -/
theorem Indexed.revision_write {store : InMemoryJobStore} (indexed : store.Indexed)
    {ambient : Ambient} {call : StoreCall} {revision : Revision} {job : JobRecord}
    (revises : call.revision ambient = some revision)
    (stored : store.jobsById.find? revision.jobId = some job)
    (enabled : revision.enabled job = true)
    : IndexWrite store (revision.change job)
        (requeuedEntry ambient call ∪ store.pendingJobs) := by
  have sameId := KeyedTable.find?_key stored
  have here : store.jobsById.find? job.id = some job := sameId ▸ stored
  have step := @RecordStep.ofRevision store.nextDue _ _ _ _ revises sameId enabled
  -- a running job has no entry, so the entries of the others are all there are
  have noneOwn (running : job.status = .running)
      : ∀ entry, entry ∈ (∅ : Finset JobQueueEntry) ∪ store.pendingJobs
          ↔ entry ∈ store.pendingJobs ∧ entry.jobId ≠ job.id := by
    intro entry
    rw [Finset.empty_union]
    refine ⟨fun member => ⟨member, ?_⟩, And.left⟩
    refine indexed.without ?_ entry member
    intro owner found
    cases here.symm.trans found
    exact notPending_of_running running
  generalize changes : revision.change job = changed at step ⊢
  cases step with
  | claimed => cases revises
  | renewed running =>
      exact .idle (noneOwn running) (notPending_of_running running)
        (fun _ => indexed.recorded job (KeyedTable.find?_mem stored) running)
  | completed running => exact .idle (noneOwn running) rfl (fun other => by cases other)
  | failed running => exact .idle (noneOwn running) rfl (fun other => by cases other)
  | retried running =>
      refine .entered ?_ rfl rfl ambient.utcNowAgain
      refine indexed.without ?_
      intro owner found
      cases here.symm.trans found
      exact notPending_of_running running
  | acknowledged =>
      change IndexWrite store _ (∅ ∪ store.pendingJobs)
      rw [Finset.empty_union]
      exact .kept indexed here rfl rfl rfl rfl

section Claims

variable {store : InMemoryJobStore} {ambient : Ambient} {now : DateTimeOffset}
  {workerId : String} {leaseExpiresAt : DateTimeOffset} {nextJob : JobQueueEntry}
  {job : JobRecord}

/-- A claim with valid arguments writes the claimed job, which has no entry from then on: a
pending job loses the entry that was picked, and a running one had none.
-/
theorem Indexed.claim_of_valid (indexed : store.Indexed)
    (next : nextDuePendingOrExpiredRunningJob now store = .ok (some nextJob))
    (found : store.jobsById.find? nextJob.jobId = some job)
    (ready : job.isPending = true ∧ nextJob ∈ store.pendingJobs ∨ job.LeaseExpired now)
    (valid : JobRecord.ValidClaim workerId now leaseExpiresAt)
    : ∃ pendingJobs,
        tryClaimNextDueJob ambient now workerId leaseExpiresAt store
          = (.ok (some (job.claimedUnder ambient now workerId leaseExpiresAt)),
              ⟨store.jobsById.set (job.claimedUnder ambient now workerId leaseExpiresAt),
                pendingJobs⟩)
        ∧ IndexWrite store (job.claimedUnder ambient now workerId leaseExpiresAt)
            pendingJobs := by
  have sameId := KeyedTable.find?_key found
  have idle := notPending_of_running
    (job.claimedUnder_status ambient now workerId leaseExpiresAt)
  have recorded : (job.claimedUnder ambient now workerId leaseExpiresAt).claimedAt.isSome
      = true := by
    obtain ⟨last, -, -, record⟩ := job.claimedUnder_eq ambient now workerId leaseExpiresAt
    rw [record]
    rfl
  rcases ready with ⟨waits, member⟩ | expired
  · have claimed := @tryClaimNextDueJob_of_ready ambient now workerId leaseExpiresAt _ _ _
      next found (Or.inl waits) valid
    rw [if_pos waits] at claimed
    refine ⟨_, claimed, .idle ?_ idle (fun _ => recorded)⟩
    intro entry
    rw [Finset.mem_erase, JobRecord.claimedUnder_id, sameId]
    constructor
    · rintro ⟨other, inside⟩
      exact ⟨inside, fun same => other (indexed.unique entry inside nextJob member same)⟩
    · rintro ⟨inside, other⟩
      refine ⟨?_, inside⟩
      rintro rfl
      exact other rfl
  · have claimed := @tryClaimNextDueJob_of_expired ambient now workerId leaseExpiresAt _ _ _
      next found expired valid
    refine ⟨_, claimed, .idle ?_ idle (fun _ => recorded)⟩
    intro entry
    rw [JobRecord.claimedUnder_id]
    refine ⟨fun inside => ⟨inside, ?_⟩, And.left⟩
    refine indexed.without ?_ entry inside
    intro owner foundOwner
    cases (sameId ▸ found).symm.trans foundOwner
    exact notPending_of_running expired.1

/-- Without valid arguments a claim throws what the check throws. The entry of a pending job is
gone by then, a running job is left alone.
-/
theorem claim_of_error
    (next : nextDuePendingOrExpiredRunningJob now store = .ok (some nextJob))
    (found : store.jobsById.find? nextJob.jobId = some job)
    (ready : job.isPending = true ∨ job.LeaseExpired now) {exception : SchedulerException}
    (checked : JobRecord.validateClaim workerId now leaseExpiresAt = .error exception)
    : (job.LeaseExpired now
        ∧ tryClaimNextDueJob ambient now workerId leaseExpiresAt store
          = (.error exception, store))
      ∨ (job.isPending = true
        ∧ tryClaimNextDueJob ambient now workerId leaseExpiresAt store
          = (.error exception, ⟨store.jobsById, store.pendingJobs.erase nextJob⟩)) := by
  have body := @tryClaimNextDueJob_of_picked ambient now workerId leaseExpiresAt _ _ _ next
    found
  rcases ready with waits | expired
  · have idle : job.status ≠ .running := by
      intro runs
      cases (notPending_of_running runs).symm.trans waits
    rw [if_neg idle, claimPendingJob_of_error waits checked] at body
    exact Or.inr ⟨waits, body⟩
  · rw [if_pos expired.1, JobRecord.reclaim_of_error expired checked] at body
    exact Or.inl ⟨expired, body⟩

end Claims

/-- What a claim does to the index: nothing is due and nothing happens, the arguments are
not valid and only a pending candidate, which is the first one, loses its entry, or the
claimed job is written.
-/
theorem Indexed.claim_cases {store : InMemoryJobStore} (indexed : store.Indexed)
    (ambient : Ambient) (now : DateTimeOffset) (workerId : String)
    (leaseExpiresAt : DateTimeOffset)
    : (store.nextDue now = none
        ∧ tryClaimNextDueJob ambient now workerId leaseExpiresAt store = (.ok none, store)
        ∧ ∀ entry ∈ store.pendingJobs, now < entry.runAt)
      ∨ ∃ job,
          store.nextDue now = some job
          ∧ store.jobsById.find? job.id = some job
          ∧ ((¬ JobRecord.ValidClaim workerId now leaseExpiresAt
              ∧ ∃ exception,
                  tryClaimNextDueJob ambient now workerId leaseExpiresAt store
                    = (.error exception, store)
                    ∧ job.LeaseExpired now
                  ∨ ∃ entry ∈ store.pendingJobs,
                      (∀ other ∈ store.pendingJobs, entry ≤ other)
                      ∧ job.isPending = true
                      ∧ tryClaimNextDueJob ambient now workerId leaseExpiresAt store
                        = (.error exception,
                            ⟨store.jobsById, store.pendingJobs.erase entry⟩))
            ∨ (JobRecord.ValidClaim workerId now leaseExpiresAt
              ∧ ∃ pendingJobs,
                  tryClaimNextDueJob ambient now workerId leaseExpiresAt store
                    = (.ok (some (job.claimedUnder ambient now workerId leaseExpiresAt)),
                        ⟨store.jobsById.set
                            (job.claimedUnder ambient now workerId leaseExpiresAt),
                          pendingJobs⟩)
                  ∧ IndexWrite store (job.claimedUnder ambient now workerId leaseExpiresAt)
                      pendingJobs)) := by
  rcases indexed.next_spec now with
    ⟨nothing, later, -⟩ | ⟨nextJob, job, next, found, -, -, ready, -, -⟩
  · exact Or.inl ⟨by rw [nextDue, nothing], by rw [tryClaimNextDueJob, nothing], later⟩
  have picks : store.nextDue now = some job := by rw [nextDue, next]; exact found
  have here : store.jobsById.find? job.id = some job := KeyedTable.find?_key found ▸ found
  refine Or.inr ⟨job, picks, here, ?_⟩
  by_cases valid : JobRecord.ValidClaim workerId now leaseExpiresAt
  · exact Or.inr ⟨valid, indexed.claim_of_valid next found
      (ready.imp_left (fun pending => ⟨pending.1, pending.2.1⟩)) valid⟩
  · refine Or.inl ⟨valid, ?_⟩
    obtain ⟨exception, checked⟩ := JobRecord.validateClaim_error valid
    rcases @claim_of_error store ambient _ _ _ _ _ next found (ready.imp_left And.left) _
      checked with ⟨expired, thrown⟩ | ⟨waits, thrown⟩
    · exact ⟨exception, Or.inl ⟨thrown, expired⟩⟩
    · rcases ready with ⟨-, member, first⟩ | expired
      · exact ⟨exception, Or.inr ⟨nextJob, member, first, waits, thrown⟩⟩
      · cases (notPending_of_running expired.1).symm.trans waits

/-- What a call does to the index: it leaves the store, a claim without valid arguments drops
an entry, or one job is written with its entries.
-/
theorem Indexed.call_cases {store : InMemoryJobStore} (indexed : store.Indexed)
    (ambient : Ambient) {call : StoreCall} (admissible : call.Admissible)
    (newId : ∀ job : JobRecord, call = .add job → store.jobsById.find? job.id = none)
    : (methods.call ambient call store).2 = store
      ∨ (∃ entry now workerId leaseExpiresAt,
          call = .tryClaimNextDueJob now workerId leaseExpiresAt
          ∧ ¬ JobRecord.ValidClaim workerId now leaseExpiresAt
          ∧ (methods.call ambient call store).2
            = ⟨store.jobsById, store.pendingJobs.erase entry⟩)
      ∨ ∃ changed pendingJobs,
          (methods.call ambient call store).2 = ⟨store.jobsById.set changed, pendingJobs⟩
          ∧ IndexWrite store changed pendingJobs := by
  cases revises : call.revision ambient with
  | some revision =>
      rw [call_revision revises]
      cases made : (store.jobsById.find? revision.jobId).filter revision.enabled with
      | none => exact Or.inl rfl
      | some job =>
          obtain ⟨stored, enabled⟩ := Option.filter_eq_some_iff.mp made
          exact Or.inr (Or.inr ⟨_, _, rfl, indexed.revision_write revises stored enabled⟩)
  | none =>
      cases call with
      | add job =>
          have new := admissible job rfl
          obtain ⟨runAt, due, outcome⟩ := call_add new ambient store
          have waits : job.isPending = true := by
            obtain ⟨_, _, _, made, -⟩ := new.cases
            rcases made with ⟨-, queued, -⟩ | ⟨_, -, scheduled, -⟩
            · simp [JobRecord.isPending, queued]
            · simp [JobRecord.isPending, scheduled]
          refine Or.inr (Or.inr ⟨job, _, by rw [outcome], .entered ?_ waits due _⟩)
          refine indexed.without ?_
          intro owner found
          cases (newId job rfl).symm.trans found
      | get id => exact Or.inl rfl
      | list => exact Or.inl rfl
      | tryClaimNextDueJob now workerId leaseExpiresAt =>
          simp only [IJobStore.call, methods]
          rcases indexed.claim_cases ambient now workerId leaseExpiresAt with
            ⟨-, nothing, -⟩
            | ⟨job, -, -, ⟨invalid, exception, ⟨thrown, -⟩ | ⟨entry, -, -, -, thrown⟩⟩
              | ⟨valid, pendingJobs, claimed, write⟩⟩
          · exact Or.inl (by rw [nothing]; rfl)
          · exact Or.inl (by rw [thrown]; rfl)
          · exact Or.inr (Or.inl ⟨entry, now, workerId, leaseExpiresAt, rfl, invalid,
              by rw [thrown]; rfl⟩)
          · exact Or.inr (Or.inr ⟨_, pendingJobs, by rw [claimed]; rfl, write⟩)
      | renewLease | markCompleted | markFailed | scheduleRetry | acknowledge => cases revises

/-- Every call keeps the entries on pending jobs, if jobs are added under new ids. -/
theorem Indexed.call {store : InMemoryJobStore} (indexed : store.Indexed)
    (ambient : Ambient) {call : StoreCall} (admissible : call.Admissible)
    (newId : ∀ job : JobRecord, call = .add job → store.jobsById.find? job.id = none)
    : (methods.call ambient call store).2.Indexed := by
  rcases indexed.call_cases ambient admissible newId with
    same | ⟨entry, _, _, _, -, -, dropped⟩ | ⟨changed, pendingJobs, written, write⟩
  · rwa [same]
  · rw [dropped]
    refine ⟨?_, ?_, indexed.recorded⟩
    · exact fun other member => indexed.entries other (Finset.mem_of_mem_erase member)
    · exact fun other member another there => indexed.unique other
        (Finset.mem_of_mem_erase member) another (Finset.mem_of_mem_erase there)
  · rw [written]
    exact write.indexed indexed

/-- Every call but a claim without valid arguments keeps the index exact. -/
theorem Exact.call {store : InMemoryJobStore} (exact : store.Exact) (ambient : Ambient)
    {call : StoreCall} (admissible : call.Admissible)
    (newId : ∀ job : JobRecord, call = .add job → store.jobsById.find? job.id = none)
    (valid
      : ∀ now workerId leaseExpiresAt,
          call = .tryClaimNextDueJob now workerId leaseExpiresAt
          → JobRecord.ValidClaim workerId now leaseExpiresAt)
    : (methods.call ambient call store).2.Exact := by
  rcases exact.toIndexed.call_cases ambient admissible newId with
    same | ⟨entry, now, workerId, leaseExpiresAt, claims, invalid, -⟩
    | ⟨changed, pendingJobs, written, write⟩
  · rwa [same]
  · exact absurd (valid now workerId leaseExpiresAt claims) invalid
  · rw [written]
    exact write.exact exact

theorem empty_exact : empty.Exact where
  entries entry member := by simp [empty] at member
  unique entry member := by simp [empty] at member
  recorded job member := by simp [empty] at member
  complete job member := by simp [empty] at member

end InMemoryJobStore

end JobScheduler
