import JobScheduler.Persistence.GuardedCalls

/-! Every operation writes some columns of a row and appends some history rows. Loaded again,
in whatever order the history rows come, they make up the record that the transition computed.
-/

namespace JobScheduler

open Library SqliteJobStore

namespace JobRecord

/-- A record's columns and its history rows in any order load as the record. -/
theorem Numbered.withOrderedHistory_of_perm {job : JobRecord} (inOrder : job.Numbered)
    {entries : List JobStateChange} (rearranged : entries.Perm job.history)
    : ((JobRow.ofRecord job).toRecord entries).withOrderedHistory = job := by
  have sorted := orderBy_sequence_of_perm inOrder rearranged
  have again : JobScheduler.numbered job.history = job.history := inOrder
  simp only [withOrderedHistory, construct, JobRow.toRecord, JobRow.ofRecord, sorted, again]

end JobRecord

namespace Database

/-- The job of the row was rewritten in these columns, with the entries the changed record has
more; and what is stored then loads as the changed record, in whatever order its history rows
come.
-/
structure Reproduces (db next : Database) (row : JobRow) (setProperties : JobRow → JobRow)
    (changed : JobRecord) : Prop where
  rewrites
    : db.RewritesRow next row (setProperties row)
        (changed.history.drop (db.loadRow row).history.length)
  reloads
    : ∀ entries,
        entries.Perm (next.historyOf row.id)
        → ((setProperties row).toRecord entries).withOrderedHistory = changed

/-- All columns of the changed record are written, and its history continues the one that is
stored.
-/
theorem RewritesRow.reproduces {db next : Database} {row : JobRow}
    {setProperties : JobRow → JobRow} {changed : JobRecord}
    (rewrites
      : db.RewritesRow next row (setProperties row)
          (changed.history.drop (db.loadRow row).history.length))
    (columns : setProperties row = .ofRecord changed) (inOrder : changed.Numbered)
    (continued
      : db.historyOf row.id ++ changed.history.drop (db.loadRow row).history.length
        = changed.history)
    : db.Reproduces next row setProperties changed where
  rewrites := rewrites
  reloads entries rearranged := by
    rw [rewrites.historyOf_self, continued] at rearranged
    rw [columns]
    exact inOrder.withOrderedHistory_of_perm rearranged

/-- A bulk update that adds no entry, and its record. -/
theorem RewritesRow.reproduces_of_sameHistory {db next : Database} {row : JobRow}
    {setProperties : JobRow → JobRow} {changed : JobRecord}
    (rewrites : db.RewritesRow next row (setProperties row) [])
    (inOrder : numbered (db.historyOf row.id) = db.historyOf row.id)
    (columns : setProperties row = .ofRecord changed)
    (sameHistory : changed.history = db.historyOf row.id)
    : db.Reproduces next row setProperties changed := by
  have nothing : changed.history.drop (db.loadRow row).history.length = [] := by
    rw [loadRow_of_inOrder inOrder, sameHistory]
    exact List.drop_length
  refine RewritesRow.reproduces ?_ columns ?_ ?_
  · rwa [nothing]
  · rw [JobRecord.Numbered, sameHistory]
    exact inOrder
  · rw [nothing, List.append_nil, sameHistory]

end Database

section Calls

variable {db : Database} {filter : QueryFilter} {ambient : Ambient}

/-- A claim, a completion, a failure or a retry that is accepted. -/
theorem guarded_reproduces (sound : db.Sound) {call : GuardedCall} {answer : StoreAnswer}
    {next : Database}
    (outcome : (methods filter).call ambient call.toCall db = (answer, next))
    (accepted : answer.accepted = true)
    : ∃ row changed,
        call.Selects filter (db.loadRow row) row
        ∧ call.transition ambient (db.loadRow row) = .ok changed
        ∧ db.Reproduces next row (call.setProperties (db.loadRow row) changed) changed := by
  rw [GuardedCall.call_eq] at outcome
  cases loaded : call.load filter db with
  | error other =>
      rw [loaded] at outcome
      cases outcome
      rw [GuardedCall.load_error loaded] at accepted
      cases accepted
  | ok job =>
      rw [loaded] at outcome
      obtain ⟨stored, -, named, -⟩ := GuardedCall.load_ok loaded
      rcases call.write_cases filter ambient job db with ⟨other, wrote, refused, -⟩
        | ⟨changed, row, committed, other, computed, selected, wrote, -, rewrites⟩
      · cases wrote.symm.trans outcome
        rw [refused] at accepted
        cases accepted
      · cases wrote.symm.trans outcome
        have key : row.id = job.id := (isCurrent_id selected.2).trans named
        have loads : db.loadRow row = job := by
          rw [Database.find?_ledger, ← key, rewrites.stored] at stored
          exact Option.some.inj stored
        subst loads
        have member := KeyedTable.find?_mem rewrites.stored
        have inOrder := sound.inOrder row member
        have history : (db.loadRow row).history = db.historyOf row.id := by
          rw [Database.loadRow_of_inOrder inOrder]
          rfl
        have numbered : (db.loadRow row).Numbered := by
          rw [JobRecord.Numbered, history]
          exact inOrder
        obtain ⟨continued, changedInOrder, -, -⟩ :=
          GuardedCall.transition_entries numbered computed
        refine ⟨row, changed, selected, computed, rewrites.reproduces ?_ changedInOrder ?_⟩
        · exact GuardedCall.setProperties_ofRecord computed (sound.idle row member)
        · rw [← history]
          exact continued.symm

/-- A renewal that is accepted. -/
theorem renewLease_reproduces (sound : db.Sound) {id token : Guid}
    {renewedAt leaseExpiresAt : DateTimeOffset} {next : Database}
    (outcome
      : (methods filter).call ambient (.renewLease id token renewedAt leaseExpiresAt) db
        = (.flag true, next))
    : ∃ row changed,
        row.id = id
        ∧ (db.loadRow row).renewLease renewedAt leaseExpiresAt = .ok changed
        ∧ db.Reproduces next row (setLease leaseExpiresAt) changed := by
  rcases @renewLease_cases db filter ambient id token renewedAt leaseExpiresAt with
    refused | ⟨row, updated, key, current, later, renewed, rewrites⟩
  · cases refused.symm.trans outcome
  · cases renewed.symm.trans outcome
    have inOrder := sound.inOrder row (KeyedTable.find?_mem rewrites.stored)
    have running : (db.loadRow row).status = .running := by
      simp only [isCurrent, Bool.and_eq_true, decide_eq_true_eq] at current
      exact current.1.2
    refine ⟨row, (db.loadRow row).withLease leaseExpiresAt, key,
      JobRecord.renewLease_of_later running later,
      rewrites.reproduces_of_sameHistory inOrder rfl ?_⟩
    rw [Database.loadRow_of_inOrder inOrder]
    exact inOrder

/-- An acknowledgement that is accepted. -/
theorem acknowledge_reproduces (sound : db.Sound) {id : Guid} {acknowledgedBy : String}
    {acknowledgedAt : DateTimeOffset} {next : Database}
    (outcome
      : (methods filter).call ambient (.acknowledge id acknowledgedBy acknowledgedAt) db
        = (.flag true, next))
    : ∃ row changed,
        row.id = id
        ∧ (db.loadRow row).acknowledge acknowledgedBy acknowledgedAt = .ok changed
        ∧ db.Reproduces next row (setAcknowledged acknowledgedBy acknowledgedAt) changed := by
  rcases @acknowledge_cases db filter ambient id acknowledgedBy acknowledgedAt with
    refused | ⟨row, updated, key, named, acknowledged, rewrites⟩
  · cases refused.symm.trans outcome
  · cases acknowledged.symm.trans outcome
    have inOrder := sound.inOrder row (KeyedTable.find?_mem rewrites.stored)
    refine ⟨row, (db.loadRow row).acknowledgedAs acknowledgedBy acknowledgedAt, key,
      JobRecord.acknowledge_of_named named, rewrites.reproduces_of_sameHistory inOrder rfl ?_⟩
    rw [Database.loadRow_of_inOrder inOrder]
    exact inOrder

/-- An added job loads as the record that was added. -/
theorem add_reproduces (sound : db.Sound) {job : JobRecord} (inOrder : job.Numbered)
    {next : Database} (outcome : (methods filter).call ambient (.add job) db = (.done, next))
    : ∃ row,
        next.jobs.find? job.id = some row
        ∧ ∀ entries,
            entries.Perm (next.historyOf job.id)
            → (row.toRecord entries).withOrderedHistory = job := by
  rcases @add_cases db filter ambient job with ⟨_, refused⟩ | ⟨written, added, inserted⟩
  · cases refused.symm.trans outcome
  · cases added.symm.trans outcome
    obtain ⟨-, jobs, -⟩ := Database.insertJob_ok inserted
    have history := (Database.historyOf_inserted sound inserted).1
    refine ⟨.ofRecord job, ?_, ?_⟩
    · rw [jobs]
      exact KeyedTable.find?_set_self _ (JobRow.ofRecord job)
    · intro entries rearranged
      rw [history] at rearranged
      exact inOrder.withOrderedHistory_of_perm rearranged

end Calls

/-- In every reachable database: the columns an operation sets and the history rows it appends
make up the record that its transition computed, and an added job loads as the record added.
-/
theorem partial_writes_reproduce (db : Database)
    (reached : SqliteJobStore.lawful.Reachable db) (filter : QueryFilter) (ambient : Ambient)
    : (∀ (call : GuardedCall) answer next,
          (methods filter).call ambient call.toCall db = (answer, next)
          → answer.accepted = true
          → ∃ row changed,
              call.Selects filter (db.loadRow row) row
              ∧ call.transition ambient (db.loadRow row) = .ok changed
              ∧ db.Reproduces next row (call.setProperties (db.loadRow row) changed) changed)
      ∧ (∀ id token renewedAt leaseExpiresAt next,
          (methods filter).call ambient (.renewLease id token renewedAt leaseExpiresAt) db
            = (.flag true, next)
          → ∃ row changed,
              row.id = id
              ∧ (db.loadRow row).renewLease renewedAt leaseExpiresAt = .ok changed
              ∧ db.Reproduces next row (setLease leaseExpiresAt) changed)
      ∧ (∀ id acknowledgedBy acknowledgedAt next,
          (methods filter).call ambient (.acknowledge id acknowledgedBy acknowledgedAt) db
            = (.flag true, next)
          → ∃ row changed,
              row.id = id
              ∧ (db.loadRow row).acknowledge acknowledgedBy acknowledgedAt = .ok changed
              ∧ db.Reproduces next row (setAcknowledged acknowledgedBy acknowledgedAt)
                  changed)
      ∧ ∀ (job : JobRecord) next,
          job.Numbered
          → (methods filter).call ambient (.add job) db = (.done, next)
          → ∃ row,
              next.jobs.find? job.id = some row
              ∧ ∀ entries,
                  entries.Perm (next.historyOf job.id)
                  → (row.toRecord entries).withOrderedHistory = job := by
  have sound : db.Sound := reached.sound
  refine ⟨?_, ?_, ?_, ?_⟩
  · intro call answer next outcome accepted
    exact guarded_reproduces sound outcome accepted
  · intro id token renewedAt leaseExpiresAt next outcome
    exact renewLease_reproduces sound outcome
  · intro id acknowledgedBy acknowledgedAt next outcome
    exact acknowledge_reproduces sound outcome
  · intro job next inOrder outcome
    exact add_reproduces sound inOrder outcome

/-- The first claim of the small job writes the record that its transition computed. -/
theorem partial_writes_reproduce_firstClaim
    : let db := (SqliteJobStore.lawful.machine.run .empty
        ((firstClaimRun .everyRow).take 1)).2
      let call := GuardedCall.tryClaimNextDueJob (.ofTicks 1) "worker-1" (.ofTicks 5)
      ∃ row changed,
        call.Selects .everyRow (db.loadRow row) row
        ∧ call.transition (smallAmbient 1) (db.loadRow row) = .ok changed
        ∧ db.Reproduces
            (SqliteJobStore.lawful.machine.run .empty (firstClaimRun .everyRow)).2 row
            (call.setProperties (db.loadRow row) changed) changed := by
  have reached : SqliteJobStore.lawful.Reachable
      (SqliteJobStore.lawful.machine.run .empty ((firstClaimRun .everyRow).take 1)).2 :=
    Machine.reaches_run ⟨smallJob_admissible, trivial⟩
  exact (partial_writes_reproduce _ reached .everyRow (smallAmbient 1)).1
    (.tryClaimNextDueJob (.ofTicks 1) "worker-1" (.ofTicks 5)) _ _ rfl (by decide +kernel)

end JobScheduler
