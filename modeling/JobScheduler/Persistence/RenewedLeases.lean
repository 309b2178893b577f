import JobScheduler.Ledger.Claims
import JobScheduler.Persistence.SplitTransactions

/-! Renewals and the guards of reclaims. A renewal changes neither of the columns that a
reclaim compares, so one that commits after the reclaim's load does not keep its write from
displacing the claim; only such a renewal can be displaced.
-/

namespace JobScheduler

open Library SqliteJobStore

namespace SplitStore

/-- The write of the call is an accepted claim, and the job it takes runs under a lease that
the store has as later than the time of the claim.
-/
def DisplacesLease (system : SplitStore) (number : Nat) : Prop :=
  ∃ pending now workerId leaseExpiresAt row expiry,
    system.pending number = some pending
    ∧ pending.call = .tryClaimNextDueJob now workerId leaseExpiresAt
    ∧ (pending.run system.db).1.accepted = true
    ∧ system.db.jobs.find? pending.jobId = some row
    ∧ row.status = .running
    ∧ row.leaseExpiresAt = some expiry
    ∧ now < expiry

/-- The step is an accepted renewal of the claim. -/
def Renews (system : SplitStore) (jobId token : Guid) (input : SplitInput) : Prop :=
  ∃ filter ambient renewedAt leaseExpiresAt,
    input = .direct filter ambient (.renewLease jobId token renewedAt leaseExpiresAt)
    ∧ (machine.step system input).1 = some (.flag true)

/-- A state change is committed, and while it is the job's current one, status and lease of the
job are as they were.
-/
def HoldsLease (db : Database) (job : JobRecord) : Prop :=
  (∃ entry ∈ db.jobStateChanges.rows, entry.change.id = job.currentStateChangeId)
  ∧ ∃ row,
      db.jobs.find? job.id = some row
      ∧ (row.currentStateChangeId = job.currentStateChangeId
        → row.status = job.status ∧ row.leaseExpiresAt = job.leaseExpiresAt)

/-- Rewriting a row keeps the lease, if it leaves status and lease, or the token is gone. -/
theorem HoldsLease.rewritten {db next : Database} {job : JobRecord} {row written : JobRow}
    {entries : List JobStateChange} (holds : HoldsLease db job)
    (rewrites : db.RewritesRow next row written entries)
    (kept
      : row.id = job.id
        → written.currentStateChangeId = job.currentStateChangeId
        → row.currentStateChangeId = job.currentStateChangeId
          ∧ written.status = row.status
          ∧ written.leaseExpiresAt = row.leaseExpiresAt)
    : HoldsLease next job := by
  obtain ⟨⟨entry, stored, names⟩, held, found, unchanged⟩ := holds
  refine ⟨⟨entry, by simp [rewrites.appended, stored], names⟩, ?_⟩
  by_cases same : row.id = job.id
  · refine ⟨written, same ▸ rewrites.find?_self, ?_⟩
    intro current
    obtain ⟨before, status, lease⟩ := kept same current
    have here : held = row := by
      rw [← same, rewrites.stored] at found
      exact (Option.some.inj found).symm
    rw [status, lease]
    exact here ▸ unchanged (here ▸ before)
  · exact ⟨held, (rewrites.find?_other (Ne.symm same)).trans found, unchanged⟩

/-- The write of a call replaces the token with an identifier that was not stored. -/
theorem HoldsLease.run {system : SplitStore} (consistent : system.Consistent) {number : Nat}
    {pending : PendingWrite} (here : system.pending number = some pending) {job : JobRecord}
    (holds : HoldsLease system.db job)
    : HoldsLease (pending.run system.db).2 job := by
  rcases consistent.run_cases here with ⟨answer, wrote, -⟩
    | ⟨updatedJob, row, next, answer, wrote, -, commits⟩
  · rw [wrote]
    exact holds
  · rw [wrote]
    apply holds.rewritten commits.rewrites
    intro _ same
    obtain ⟨⟨entry, stored, names⟩, -⟩ := holds
    have member := KeyedTable.find?_mem commits.rewrites.stored
    have written := (GuardedCall.setProperties_columns commits.computed commits.current.2.1
      (consistent.intact.idle row member)).1
    obtain ⟨last, final, lastId⟩ := Option.map_eq_some_iff.mp commits.names
    have draws : last.id ∈ pending.drawn :=
      commits.drawn.subset (List.mem_map_of_mem (List.mem_of_getLast? final))
    have reused : entry.change.id = last.id := by
      rw [names, ← same, written, lastId]
    exact absurd (reused ▸ draws) ((consistent.drawn number pending here).2.1 entry stored)

/-- A step that does not renew the claim keeps its lease, one kind of step at a time. -/
theorem HoldsLease.step {system : SplitStore} (consistent : system.Consistent)
    {input : SplitInput} (allowed : system.Allowed input) {job : JobRecord}
    (notRenewed : ¬ system.Renews job.id job.currentStateChangeId input)
    (holds : HoldsLease system.db job)
    : HoldsLease (machine.step system input).2.db job := by
  cases allowed with
  | @load filter ambient call =>
      change HoldsLease (system.load filter ambient call).2.db job
      unfold SplitStore.load
      cases call.load filter system.db <;> exact holds
  | write number =>
      change HoldsLease (system.write number).2.db job
      unfold SplitStore.write
      cases here : system.pending number with
      | none => exact holds
      | some pending => exact HoldsLease.run consistent here holds
  | @add filter ambient added =>
      change HoldsLease ((methods filter).call ambient (.add added) system.db).2 job
      rcases @add_cases system.db filter ambient added with ⟨_, refused⟩ | ⟨next, done, inserted⟩
      · rw [refused]
        exact holds
      · rw [done]
        obtain ⟨absent, jobs, rows⟩ := Database.insertJob_ok inserted
        obtain ⟨⟨entry, stored, names⟩, row, found, unchanged⟩ := holds
        refine ⟨⟨entry, by simp [rows, stored], names⟩, row, ?_, unchanged⟩
        rw [jobs]
        refine (KeyedTable.find?_set_ne ?_).trans found
        intro (same : added.id = job.id)
        rw [same, found] at absent
        cases absent
  | get => exact holds
  | list => exact holds
  | renewLease filter ambient id token renewedAt leaseExpiresAt =>
      have renewed : ∀ answer next,
          (methods filter).call ambient (.renewLease id token renewedAt leaseExpiresAt)
              system.db
            = (answer, next)
          → (machine.step system
              (.direct filter ambient (.renewLease id token renewedAt leaseExpiresAt))).1
            = some answer := by
        intro answer next outcome
        exact congrArg (fun result => some result.1) outcome
      change HoldsLease ((methods filter).call ambient
        (.renewLease id token renewedAt leaseExpiresAt) system.db).2 job
      rcases @renewLease_cases system.db filter ambient id token renewedAt leaseExpiresAt with
        refused | ⟨row, next, key, current, -, accepted, rewrites⟩
      · rw [refused]
        exact holds
      · have answered := renewed _ _ accepted
        rw [accepted]
        apply holds.rewritten rewrites
        intro same sameToken
        simp only [isCurrent, Bool.and_eq_true, decide_eq_true_eq] at current
        have mine : token = job.currentStateChangeId := current.2.symm.trans sameToken
        cases key.symm.trans same
        cases mine
        exact absurd ⟨filter, ambient, renewedAt, leaseExpiresAt, rfl, answered⟩ notRenewed
  | acknowledge filter ambient id acknowledgedBy acknowledgedAt =>
      change HoldsLease ((methods filter).call ambient
        (.acknowledge id acknowledgedBy acknowledgedAt) system.db).2 job
      rcases @acknowledge_cases system.db filter ambient id acknowledgedBy acknowledgedAt with
        refused | ⟨row, next, -, -, accepted, rewrites⟩
      · rw [refused]
        exact holds
      · rw [accepted]
        apply holds.rewritten rewrites
        intro _ sameToken
        exact ⟨sameToken, rfl, rfl⟩

/-- The call of the number is the given one, if it has not written yet, and the lease it has
loaded is still that of the claim.
-/
structure Awaits (system : SplitStore) (number : Nat) (pending : PendingWrite) : Prop where
  consistent : system.Consistent
  numbered : number < system.calls.length
  only : ∀ other, system.pending number = some other → other = pending
  holds : HoldsLease system.db pending.loaded

theorem Awaits.step {system : SplitStore} {number : Nat} {pending : PendingWrite}
    (before : system.Awaits number pending) {input : SplitInput}
    (allowed : system.Allowed input)
    (notRenewed
      : ¬ system.Renews pending.loaded.id pending.loaded.currentStateChangeId input)
    : (machine.step system input).2.Awaits number pending := by
  have consistent := (before.consistent.step allowed).1
  have holds := before.holds.step before.consistent allowed notRenewed
  refine ⟨consistent, ?_, ?_, holds⟩
  · cases input with
    | load filter ambient call =>
        change number < (system.load filter ambient call).2.calls.length
        unfold SplitStore.load
        cases call.load filter system.db with
        | error answer => exact before.numbered
        | ok job =>
            rw [List.length_append]
            exact Nat.lt_add_right _ before.numbered
    | write written =>
        change number < (system.write written).2.calls.length
        unfold SplitStore.write
        cases system.pending written with
        | none => exact before.numbered
        | some other =>
            rw [List.length_set]
            exact before.numbered
    | direct => exact before.numbered
  · intro other here
    apply before.only
    cases input with
    | load filter ambient call =>
        change (system.load filter ambient call).2.pending number = some other at here
        unfold SplitStore.load at here
        cases loaded : call.load filter system.db with
        | error answer =>
            rw [loaded] at here
            exact here
        | ok job =>
            rw [loaded, pending_concat, if_neg (Nat.ne_of_lt before.numbered)] at here
            exact here
    | write written =>
        change (system.write written).2.pending number = some other at here
        unfold SplitStore.write at here
        cases writes : system.pending written with
        | none =>
            rw [writes] at here
            exact here
        | some writer =>
            rw [writes, pending_set] at here
            split_ifs at here
            exact here
    | direct => exact here

/-- Awaiting lasts through every run that does not renew the claim, by induction. -/
theorem Awaits.reached {system later : SplitStore} {number : Nat} {pending : PendingWrite}
    (before : system.Awaits number pending)
    (reached
      : machine.Reaches
          (fun system input =>
            system.Allowed input
            ∧ ¬ system.Renews pending.loaded.id pending.loaded.currentStateChangeId input)
          system later)
    : later.Awaits number pending := by
  induction reached with
  | refl => exact before
  | step _ allowed ih => exact ih.step allowed.1 allowed.2

/-- A claim that awaits its write displaces no lease that is later than its time. -/
theorem Awaits.not_displaces {system : SplitStore} {number : Nat} {pending : PendingWrite}
    (awaits : system.Awaits number pending)
    : ¬ system.DisplacesLease number := by
  rintro ⟨other, now, workerId, leaseExpiresAt, row, expiry, here, claims, accepted, found,
    running, lease, ahead⟩
  cases awaits.only other here
  obtain ⟨updatedJob, written, commits⟩ := awaits.consistent.commits here accepted
  obtain ⟨key, status, token⟩ := commits.current
  have named := (awaits.consistent.tracked number pending here).named
  have computed := commits.computed
  rw [PendingWrite.token] at token
  rw [claims] at computed status token
  have same : row = written := by
    rw [← key, commits.rewrites.stored] at found
    exact (Option.some.inj found).symm
  obtain ⟨-, held, stored, unchanged⟩ := awaits.holds
  have sameHeld : held = row := by
    rw [← named, found] at stored
    exact (Option.some.inj stored).symm
  have sameLease := (unchanged (by rw [sameHeld, same]; exact token)).2
  rcases (GuardedCall.transition_claim_ok computed).2.1 with waiting | expired
  · have runs : pending.loaded.status = .running := by
      rw [← running, same]
      exact status.symm
    simp [JobRecord.isPending, runs] at waiting
  · obtain ⟨-, past, loadedLease, reached⟩ := expired
    rw [sameHeld, lease, loadedLease] at sameLease
    cases sameLease
    exact absurd ahead (not_lt.mpr reached)

end SplitStore

-----------------------------------------------------------------------------------------
-- Claims against renewed leases
-----------------------------------------------------------------------------------------

/-- A claim replaces a lease later than its time only if a renewal of the replaced claim was
accepted after its load; without interruption, as under a lock, it never does.
-/
theorem lease_displaced_only_after_renewal
    : (∀ (first later : SplitStore) filter ambient now workerId leaseExpiresAt job,
          SplitStore.Reached .start first
          → first.Allowed
              (.load filter ambient (.tryClaimNextDueJob now workerId leaseExpiresAt))
          → (GuardedCall.tryClaimNextDueJob now workerId leaseExpiresAt).load filter first.db
            = .ok job
          → SplitStore.machine.Reaches
              (fun system input =>
                system.Allowed input
                ∧ ¬ system.Renews job.id job.currentStateChangeId input)
              (first.load filter ambient
                (.tryClaimNextDueJob now workerId leaseExpiresAt)).2 later
          → ¬ later.DisplacesLease first.calls.length)
      ∧ ∀ db filter ambient now workerId leaseExpiresAt claimed next,
          SqliteJobStore.lawful.Reachable db
          → (methods filter).call ambient
                (.tryClaimNextDueJob now workerId leaseExpiresAt) db
              = (.job (some claimed), next)
          → ∃ row,
              db.jobs.find? claimed.id = some row
              ∧ (row.status = .running
                → ∃ expiry, row.leaseExpiresAt = some expiry ∧ expiry ≤ now) := by
  constructor
  · intro first later filter ambient now workerId leaseExpiresAt job reached allowed loaded
      since
    have consistent := (SplitStore.start_consistent.reached reached).1
    have awaits
        : (first.load filter ambient
            (.tryClaimNextDueJob now workerId leaseExpiresAt)).2.Awaits first.calls.length
          ⟨filter, ambient, .tryClaimNextDueJob now workerId leaseExpiresAt, job⟩ := by
      have next := consistent.load allowed
      rw [SplitStore.load, loaded] at next ⊢
      refine ⟨next, ?_, ?_, ?_⟩
      · rw [List.length_append]
        exact Nat.lt_succ_self _
      · intro other here
        rw [SplitStore.pending_concat, if_pos rfl] at here
        exact (Option.some.inj here).symm
      · obtain ⟨stored, -⟩ := GuardedCall.load_ok loaded
        rw [Database.find?_ledger, Option.map_eq_some_iff] at stored
        obtain ⟨row, found, rfl⟩ := stored
        obtain ⟨last, final, lastId⟩ := Option.map_eq_some_iff.mp
          (consistent.intact.current row (KeyedTable.find?_mem found))
        have member := Database.mem_historyOf.mp (List.mem_of_getLast? final)
        exact ⟨⟨_, member, lastId⟩, row, found, fun _ => ⟨rfl, rfl⟩⟩
    exact (awaits.reached since).not_displaces
  · intro db filter ambient now workerId leaseExpiresAt claimed next reached outcome
    obtain ⟨job, picks, stored, -, ready, -, rfl, -⟩ :=
      LawfulStore.stored_of_claim reached.sound outcome
    have here : db.ledger.find? job.id = some job := stored
    rw [Database.find?_ledger, Option.map_eq_some_iff] at here
    obtain ⟨row, found, rfl⟩ := here
    refine ⟨row, by rw [JobRecord.claimedUnder_id]; exact found, ?_⟩
    intro running
    rcases ready with waiting | expired
    · have runs : (db.loadRow row).status = .running := running
      simp [JobRecord.isPending, runs] at waiting
    · exact expired.2

/-- The first worker holds the small job until tick 5. -/
def firstClaimed : List SplitInput :=
  [.direct .everyRow (smallAmbient 0) (.add smallJob),
    .load .everyRow (smallAmbient 1)
      (.tryClaimNextDueJob (.ofTicks 1) "worker-1" (.ofTicks 5)),
    .write 0]

/-- At tick 6 another worker loads the job, and then the first one renews its lease. -/
def renewedAfterLoad : List SplitInput :=
  [.load .everyRow (smallAmbient 6)
      (.tryClaimNextDueJob (.ofTicks 6) "worker-2" (.ofTicks 12)),
    .direct .everyRow (smallAmbient 7)
      (.renewLease smallJob.id firstSnapshot.currentStateChangeId (.ofTicks 6) (.ofTicks 20))]

theorem firstClaimed_reached
    : SplitStore.Reached .start (SplitStore.machine.run .start firstClaimed).2 := by
  apply Machine.reaches_run
  refine ⟨.add _ _ smallJob_newlyMade (by decide), ?_, .write 0, trivial⟩
  exact .load _ (by decide) (by decide) nofun

theorem secondLoad_allowed
    : (SplitStore.machine.run .start firstClaimed).2.Allowed
        (.load .everyRow (smallAmbient 6)
          (.tryClaimNextDueJob (.ofTicks 6) "worker-2" (.ofTicks 12))) :=
  .load _ (by decide) (by decide +kernel) nofun

/-- The second worker's load displaces nothing as long as the first one does not renew. -/
theorem lease_displaced_only_after_renewal_loaded
    : ¬ ((SplitStore.machine.run .start firstClaimed).2.load .everyRow (smallAmbient 6)
        (.tryClaimNextDueJob (.ofTicks 6) "worker-2" (.ofTicks 12))).2.DisplacesLease 1 :=
  lease_displaced_only_after_renewal.1 _ _ .everyRow (smallAmbient 6) (.ofTicks 6) "worker-2"
    (.ofTicks 12) firstSnapshot firstClaimed_reached secondLoad_allowed (by decide +kernel)
    (.refl _)

/-- After the renewal the lease lasts until tick 20, and the claim at tick 6 takes the job. -/
theorem renewed_lease_displaced
    : SplitStore.Reached .start
          (SplitStore.machine.run .start (firstClaimed ++ renewedAfterLoad)).2
      ∧ (SplitStore.machine.run .start (firstClaimed ++ renewedAfterLoad)).1.getLast?
        = some (some (.flag true))
      ∧ (SplitStore.machine.run .start (firstClaimed ++ renewedAfterLoad)).2.DisplacesLease
          1 := by
  refine ⟨?_, by decide +kernel, ?_⟩
  · apply Machine.reaches_run
    refine ⟨.add _ _ smallJob_newlyMade (by decide), ?_, .write 0, secondLoad_allowed,
      .renewLease _ _ _ _ _ _, trivial⟩
    exact .load _ (by decide) (by decide) nofun
  · exact ⟨⟨.everyRow, smallAmbient 6,
        .tryClaimNextDueJob (.ofTicks 6) "worker-2" (.ofTicks 12), firstSnapshot⟩,
      .ofTicks 6, "worker-2", .ofTicks 12,
      .ofRecord (firstSnapshot.withLease (.ofTicks 20)), .ofTicks 20, rfl, rfl,
      by decide +kernel, by decide +kernel, rfl, rfl, by decide⟩

end JobScheduler
