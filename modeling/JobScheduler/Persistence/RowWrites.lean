import JobScheduler.Persistence.SqliteLedger

/-! What the writes of the SQLite store do to the two tables: one row of `Jobs` gets new
columns, and entries are added to the history of the same job. Nothing here depends on where
the written values come from.
-/

namespace JobScheduler

open Library

/-- The columns of one job were rewritten, and entries were added to its history. -/
structure Database.RewritesRow (db next : Database) (row written : JobRow)
    (entries : List JobStateChange) : Prop where
  stored : db.jobs.find? row.id = some row
  sameKey : written.id = row.id
  jobs : next.jobs = db.jobs.set written
  appended
    : next.jobStateChanges.rows
      = db.jobStateChanges.rows ++ entries.map (JobStateChangeRow.mk row.id)

namespace Database.RewritesRow

variable {db next : Database} {row written : JobRow} {entries : List JobStateChange}

theorem find?_self (rewrites : db.RewritesRow next row written entries)
    : next.jobs.find? row.id = some written := by
  rw [rewrites.jobs, ← rewrites.sameKey]
  exact KeyedTable.find?_set_self _ _

theorem find?_other (rewrites : db.RewritesRow next row written entries) {id : Guid}
    (different : id ≠ row.id)
    : next.jobs.find? id = db.jobs.find? id := by
  rw [rewrites.jobs]
  exact KeyedTable.find?_set_ne (fun same => different (same ▸ rewrites.sameKey))

theorem historyOf_self (rewrites : db.RewritesRow next row written entries)
    : next.historyOf row.id = db.historyOf row.id ++ entries := by
  simp [historyOf, rewrites.appended, List.filter_append, List.filter_map,
    Function.comp_def]

theorem historyOf_other (rewrites : db.RewritesRow next row written entries) {id : Guid}
    (different : id ≠ row.id)
    : next.historyOf id = db.historyOf id := by
  simp [historyOf, rewrites.appended, List.filter_append, List.filter_map,
    Function.comp_def, Ne.symm different]

/-- The rows after the write are the written one and the others. -/
theorem mem_rows (rewrites : db.RewritesRow next row written entries) {other : JobRow}
    : other ∈ next.jobs.rows ↔ other = written ∨ other ∈ db.jobs.rows ∧ other.id ≠ row.id := by
  rw [rewrites.jobs, KeyedTable.mem_set, rewrites.sameKey]

/-- No history loses an entry. -/
theorem historyOf_prefix (rewrites : db.RewritesRow next row written entries) (id : Guid)
    : db.historyOf id <+: next.historyOf id := by
  by_cases same : id = row.id
  · subst same
    rw [rewrites.historyOf_self]
    exact List.prefix_append _ _
  · exact (rewrites.historyOf_other same).symm ▸ List.prefix_refl _

/-- The tables still fit together if the history stays numbered and a running row has no
`RunAt`.
-/
theorem sound (rewrites : db.RewritesRow next row written entries) (before : db.Sound)
    (inOrder
      : numbered (db.historyOf row.id ++ entries) = db.historyOf row.id ++ entries)
    (idle : written.status = .running → written.runAt = none)
    : next.Sound where
  inOrder other member := by
    rcases rewrites.mem_rows.mp member with rfl | ⟨old, different⟩
    · rw [rewrites.sameKey, rewrites.historyOf_self]
      exact inOrder
    · rw [rewrites.historyOf_other different]
      exact before.inOrder other old
  owned entry member := by
    rw [rewrites.appended, List.mem_append] at member
    rcases member with old | new
    · obtain ⟨other, there, same⟩ := before.owned entry old
      by_cases equal : other.id = row.id
      · exact ⟨written, rewrites.mem_rows.mpr (Or.inl rfl),
          rewrites.sameKey.trans (equal.symm.trans same)⟩
      · exact ⟨other, rewrites.mem_rows.mpr (Or.inr ⟨there, equal⟩), same⟩
    · obtain ⟨change, -, rfl⟩ := List.mem_map.mp new
      exact ⟨written, rewrites.mem_rows.mpr (Or.inl rfl), rewrites.sameKey⟩
  idle other member := by
    rcases rewrites.mem_rows.mp member with rfl | ⟨old, -⟩
    · exact idle
    · exact before.idle other old

end Database.RewritesRow

-----------------------------------------------------------------------------------------
-- Bulk updates and inserts
-----------------------------------------------------------------------------------------

namespace Database

/-- The identifiers of the changes are different from each other and from those stored. -/
def AcceptsIds (db : Database) (changes : List JobStateChange) : Prop :=
  (changes.map JobStateChange.id).Nodup
  ∧ ∀ change ∈ changes, ∀ entry ∈ db.jobStateChanges.rows, entry.change.id ≠ change.id

/-- A bulk update by primary key hits no row, or rewrites the columns of one. -/
theorem executeUpdate_cases {db : Database} {filter : QueryFilter}
    {condition : JobRow → Bool} {setProperties : JobRow → JobRow}
    {keepsKey : ∀ row, (setProperties row).id = row.id} {id : Guid}
    (names : ∀ row, condition row = true → row.id = id)
    : db.executeUpdate filter condition setProperties keepsKey = (0, db)
        ∧ (∀ row ∈ db.jobs.rows, filter.admits row = true → condition row = false)
      ∨ ∃ row next,
          row.id = id
          ∧ filter.admits row = true
          ∧ condition row = true
          ∧ db.executeUpdate filter condition setProperties keepsKey = (1, next)
          ∧ db.RewritesRow next row (setProperties row) [] := by
  rw [executeUpdate_of_key names]
  cases found : (db.jobs.find? id).filter
      (fun row => filter.admits row && condition row) with
  | none =>
      refine Or.inl ⟨rfl, ?_⟩
      intro row member shown
      by_contra met
      rw [Bool.not_eq_false] at met
      have here : db.jobs.find? id = some row := names row met ▸ KeyedTable.find?_of_mem member
      exact Option.filter_eq_none_iff.mp found row here (by simp [shown, met])
  | some row =>
      obtain ⟨here, selected⟩ := Option.filter_eq_some_iff.mp found
      obtain ⟨shown, met⟩ := Bool.and_eq_true_iff.mp selected
      cases KeyedTable.find?_key here
      exact Or.inr ⟨row, _, rfl, shown, met, rfl, here, keepsKey row, rfl, by simp⟩

/-- An added job was not stored, and its row and the rows of its history are. -/
theorem insertJob_ok {db next : Database} {job : JobRecord}
    (inserted : db.insertJob job = .ok next)
    : db.jobs.find? job.id = none
      ∧ next.jobs = db.jobs.set (.ofRecord job)
      ∧ next.jobStateChanges.rows
        = db.jobStateChanges.rows ++ job.history.map (JobStateChangeRow.mk job.id) := by
  cases present : db.jobs.find? job.id with
  | some row =>
      have known : JobRow.id (.ofRecord job) ∈ db.jobs.rows.map JobRow.id :=
        List.mem_map.mpr ⟨row, KeyedTable.find?_mem present, KeyedTable.find?_key present⟩
      have refused : db.jobs.insert? (.ofRecord job) = none := by
        simp only [KeyedTable.insert?, known, not_true_eq_false, dite_false]
      simp only [insertJob, refused] at inserted
      cases inserted
  | none =>
      have fresh : db.jobs.insert? (.ofRecord job) = some (db.jobs.set (.ofRecord job)) :=
        KeyedTable.insert?_of_absent present
      simp only [insertJob, fresh] at inserted
      obtain ⟨jobs, rows⟩ := appendStateChanges_ok inserted
      exact ⟨rfl, jobs, rows⟩

/-- An added job has its own history, and the histories of the others stay. -/
theorem historyOf_inserted {db next : Database} (sound : db.Sound) {job : JobRecord}
    (inserted : db.insertJob job = .ok next)
    : next.historyOf job.id = job.history
      ∧ ∀ id, id ≠ job.id → next.historyOf id = db.historyOf id := by
  obtain ⟨absent, -, rows⟩ := insertJob_ok inserted
  constructor
  · rw [historyOf, rows, List.filter_append, List.map_append, ← historyOf,
      sound.historyOf_of_absent absent]
    simp [List.filter_map, Function.comp_def]
  · intro id different
    simp [historyOf, rows, List.filter_append, List.filter_map, Function.comp_def,
      Ne.symm different]

end Database

-----------------------------------------------------------------------------------------
-- Conditional writes
-----------------------------------------------------------------------------------------

namespace SqliteJobStore

/-- A conditional write misses, or meets a stored identifier, or rewrites the current row and
adds the entries past those that were counted.
-/
theorem tryPersistTransition_cases {db : Database} {filter : QueryFilter} {jobId token : Guid}
    {status : JobStatus} {updatedJob : JobRecord} {count : Nat}
    {setProperties : JobRow → JobRow} {keepsKey : ∀ row, (setProperties row).id = row.id}
    : tryPersistTransition filter jobId status token updatedJob count setProperties keepsKey db
          = .ok none
        ∧ (∀ row ∈ db.jobs.rows,
            filter.admits row = true → isCurrent jobId status token row = false)
      ∨ ∃ row,
          row.id = jobId
          ∧ db.jobs.find? jobId = some row
          ∧ filter.admits row = true
          ∧ isCurrent jobId status token row = true
          ∧ (tryPersistTransition filter jobId status token updatedJob count setProperties
                  keepsKey db
                = .error .dbUpdate
              ∧ ¬ db.AcceptsIds (updatedJob.history.drop count)
            ∨ ∃ next,
                tryPersistTransition filter jobId status token updatedJob count setProperties
                    keepsKey db
                  = .ok (some next)
                ∧ db.RewritesRow next row (setProperties row)
                    (updatedJob.history.drop count)) := by
  rcases @Database.executeUpdate_cases db filter (isCurrent jobId status token) setProperties
      keepsKey jobId (fun _ => isCurrent_id) with ⟨missed, none⟩ | ⟨row, updated, rfl, shown,
        current, hit, rewrites⟩
  · exact Or.inl ⟨by simp only [tryPersistTransition, missed, if_true], none⟩
  · refine Or.inr ⟨row, rfl, rewrites.stored, shown, current, ?_⟩
    simp only [tryPersistTransition, hit, one_ne_zero, if_false]
    have sameRows : updated.jobStateChanges.rows = db.jobStateChanges.rows := by
      simpa using rewrites.appended
    cases appended : updated.appendStateChanges row.id (updatedJob.history.drop count) with
    | ok next =>
        obtain ⟨jobs, rows⟩ := Database.appendStateChanges_ok appended
        exact Or.inr ⟨next, rfl, rewrites.stored, rewrites.sameKey,
          jobs.trans rewrites.jobs, rows.trans (by rw [sameRows])⟩
    | error exception =>
        cases Database.appendStateChanges_error appended
        refine Or.inl ⟨rfl, ?_⟩
        intro unused
        obtain ⟨next, accepted⟩ := @Database.appendStateChanges_of_fresh updated row.id _
          unused.1 (by rw [sameRows]; exact unused.2)
        cases appended.symm.trans accepted

section BulkUpdates

variable {db : Database} {filter : QueryFilter} {ambient : Ambient}

/-- A renewal is refused, or moves the lease of the row that runs under the token. -/
theorem renewLease_cases (id token : Guid) (renewedAt leaseExpiresAt : DateTimeOffset)
    : (methods filter).call ambient (.renewLease id token renewedAt leaseExpiresAt) db
          = (.flag false, db)
      ∨ ∃ row next,
          row.id = id
          ∧ isCurrent id .running token row = true
          ∧ renewedAt < leaseExpiresAt
          ∧ (methods filter).call ambient (.renewLease id token renewedAt leaseExpiresAt) db
            = (.flag true, next)
          ∧ db.RewritesRow next row (setLease leaseExpiresAt row) [] := by
  by_cases later : renewedAt < leaseExpiresAt
  · simp only [IJobStore.call, methods, renewLease, not_le.mpr later, if_false]
    rcases @Database.executeUpdate_cases db filter (isCurrent id .running token)
        (setLease leaseExpiresAt) (setLease_id _) id (fun _ => isCurrent_id) with
      ⟨missed, -⟩ | ⟨row, next, key, -, current, hit, rewrites⟩
    · rw [missed]
      exact Or.inl rfl
    · rw [hit]
      exact Or.inr ⟨row, next, key, current, later, rfl, rewrites⟩
  · simp only [IJobStore.call, methods, renewLease, not_lt.mp later, if_true]
    exact Or.inl rfl

/-- An acknowledgement is refused, or marks the row of the id. -/
theorem acknowledge_cases (id : Guid) (acknowledgedBy : String)
    (acknowledgedAt : DateTimeOffset)
    : (methods filter).call ambient (.acknowledge id acknowledgedBy acknowledgedAt) db
          = (.flag false, db)
      ∨ ∃ row next,
          row.id = id
          ∧ isNullOrWhiteSpace acknowledgedBy = false
          ∧ (methods filter).call ambient (.acknowledge id acknowledgedBy acknowledgedAt) db
            = (.flag true, next)
          ∧ db.RewritesRow next row (setAcknowledged acknowledgedBy acknowledgedAt row) [] := by
  by_cases blank : isNullOrWhiteSpace acknowledgedBy = true
  · simp only [IJobStore.call, methods, acknowledge, blank, if_true]
    exact Or.inl rfl
  · simp only [IJobStore.call, methods, acknowledge, blank, Bool.false_eq_true, if_false]
    rcases @Database.executeUpdate_cases db filter (fun row => row.id = id)
        (setAcknowledged acknowledgedBy acknowledgedAt) (setAcknowledged_id _ _) id
        (fun _ => of_decide_eq_true) with
      ⟨missed, -⟩ | ⟨row, next, key, -, -, hit, rewrites⟩
    · rw [missed]
      exact Or.inl rfl
    · rw [hit]
      exact Or.inr ⟨row, next, key, trivial, rfl, rewrites⟩

/-- An addition is refused, or inserts the job. -/
theorem add_cases (job : JobRecord)
    : (∃ exception,
          (methods filter).call ambient (.add job) db = (.threw exception, db))
      ∨ ∃ next,
          (methods filter).call ambient (.add job) db = (.done, next)
          ∧ db.insertJob job = .ok next := by
  simp only [IJobStore.call, methods, add]
  cases inserted : db.insertJob job with
  | error exception => exact Or.inl ⟨exception, rfl⟩
  | ok next => exact Or.inr ⟨next, rfl, rfl⟩

end BulkUpdates

end SqliteJobStore

end JobScheduler
