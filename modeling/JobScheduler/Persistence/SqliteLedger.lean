import JobScheduler.Ledger.LawfulStore
import JobScheduler.Ledger.RecordSteps
import JobScheduler.Persistence.SqliteJobStore

/-! The SQLite store follows the ledger. Its invariant says that the two tables fit together:
the history rows of a job are numbered in the order they were appended, every history row
belongs to a job, and the column `RunAt`, which a reclaim does not write, is null while a job
runs.
-/

namespace JobScheduler

open Library

namespace Database

/-- The tables fit together. -/
structure Sound (db : Database) : Prop where
  inOrder : ∀ row ∈ db.jobs.rows, numbered (db.historyOf row.id) = db.historyOf row.id
  owned : ∀ entry ∈ db.jobStateChanges.rows, ∃ row ∈ db.jobs.rows, row.id = entry.jobId
  idle : ∀ row ∈ db.jobs.rows, row.status = .running → row.runAt = none

/-- The records the rows stand for. -/
def ledger (db : Database) : Ledger := db.jobs.mapRows db.loadRow (fun _ => rfl)

@[simp] theorem ofRecord_loadRow (db : Database) (row : JobRow)
    : JobRow.ofRecord (db.loadRow row) = row :=
  rfl

/-- A job whose history rows are numbered is loaded with exactly these, in whatever order they
come from the database.
-/
theorem toRecord_of_perm {db : Database} {row : JobRow}
    (inOrder : numbered (db.historyOf row.id) = db.historyOf row.id)
    {entries : List JobStateChange} (rearranged : entries.Perm (db.historyOf row.id))
    : (row.toRecord entries).withOrderedHistory = row.toRecord (db.historyOf row.id) := by
  have sorted := orderBy_sequence_of_perm inOrder rearranged
  simp only [JobRecord.withOrderedHistory, JobRecord.construct, JobRow.toRecord, sorted,
    inOrder]

theorem loadRow_of_inOrder {db : Database} {row : JobRow}
    (inOrder : numbered (db.historyOf row.id) = db.historyOf row.id)
    : db.loadRow row = row.toRecord (db.historyOf row.id) :=
  toRecord_of_perm inOrder (.refl _)

/-- In tables that fit together no order of the history rows makes a difference. -/
theorem Sound.loadRow_of_perm {db : Database} (sound : db.Sound) {row : JobRow}
    (member : row ∈ db.jobs.rows) {entries : List JobStateChange}
    (rearranged : entries.Perm (db.historyOf row.id))
    : (row.toRecord entries).withOrderedHistory = db.loadRow row := by
  rw [toRecord_of_perm (sound.inOrder row member) rearranged,
    loadRow_of_inOrder (sound.inOrder row member)]

/-- Rows of a record's columns and history load as the record. -/
theorem loadRow_ofRecord {db : Database} {job : JobRecord}
    (history : db.historyOf job.id = job.history) (inOrder : job.Numbered)
    : db.loadRow (.ofRecord job) = job := by
  have same : db.historyOf (JobRow.ofRecord job).id = job.history := history
  rw [loadRow_of_inOrder (by rw [same]; exact inOrder), same]
  rfl

theorem find?_ledger (db : Database) (id : Guid)
    : db.ledger.find? id = (db.jobs.find? id).map db.loadRow :=
  KeyedTable.find?_mapRows db.jobs id

/-- The state changes of a stored job are the history rows of its id. -/
theorem Sound.history_of_found {db : Database} (sound : db.Sound) {id : Guid}
    {job : JobRecord} (stored : db.ledger.find? id = some job)
    : job.history = db.historyOf id ∧ job.Numbered := by
  rw [find?_ledger, Option.map_eq_some_iff] at stored
  obtain ⟨row, found, rfl⟩ := stored
  obtain ⟨member, rfl⟩ := KeyedTable.find?_eq_some.mp found
  have inOrder := sound.inOrder row member
  rw [loadRow_of_inOrder inOrder]
  exact ⟨rfl, inOrder⟩

/-- A job that is not stored has no history rows. -/
theorem Sound.historyOf_of_absent {db : Database} (sound : db.Sound) {id : Guid}
    (absent : db.jobs.find? id = none)
    : db.historyOf id = [] := by
  rw [historyOf, List.map_eq_nil_iff, List.filter_eq_nil_iff]
  intro entry stored same
  obtain ⟨row, member, rowId⟩ := sound.owned entry stored
  exact KeyedTable.find?_eq_none.mp absent row member (rowId.trans (of_decide_eq_true same))

/-- The second database holds one more or one changed job, and fits together. -/
def Written (db next : Database) (changed : JobRecord) : Prop :=
  next.ledger = db.ledger.set changed ∧ next.Sound

/-- Writing one row and appending to the history of its job alone writes the record that
the row and the new history stand for.
-/
theorem Sound.written {db next : Database} {changed : JobRecord} (sound : db.Sound)
    (jobs : next.jobs = db.jobs.set (.ofRecord changed))
    (appended
      : ∃ changes : List JobStateChange,
          next.jobStateChanges.rows
            = db.jobStateChanges.rows ++ changes.map (JobStateChangeRow.mk changed.id)
          ∧ changed.history = db.historyOf changed.id ++ changes)
    (inOrder : changed.Numbered) (idle : changed.status = .running → changed.runAt = none)
    : db.Written next changed := by
  obtain ⟨changes, rows, history⟩ := appended
  have here : next.historyOf changed.id = changed.history := by
    rw [historyOf, rows, List.filter_append, List.map_append, history, historyOf]
    congr 1
    simp [List.filter_map, Function.comp_def]
  have elsewhere : ∀ id, id ≠ changed.id → next.historyOf id = db.historyOf id := by
    intro id different
    simp [historyOf, rows, List.filter_append, List.filter_map, Function.comp_def,
      Ne.symm different]
  have loads := loadRow_ofRecord here inOrder
  refine ⟨?_, ?_, ?_, ?_⟩
  · have kept : ∀ other : JobRow, other.id ≠ (JobRow.ofRecord changed).id
        → next.loadRow other = db.loadRow other := by
      intro other different
      simp only [loadRow, elsewhere other.id different]
    calc
      next.ledger
          = (db.jobs.set (.ofRecord changed)).mapRows next.loadRow (fun _ => rfl) := by
        rw [ledger, jobs]
      _ = db.ledger.set (next.loadRow (.ofRecord changed)) := KeyedTable.mapRows_set kept
      _ = db.ledger.set changed := by rw [loads]
  · intro row member
    rw [jobs] at member
    rcases KeyedTable.mem_set.mp member with rfl | ⟨old, different⟩
    · have same : next.historyOf (JobRow.ofRecord changed).id = changed.history := here
      rw [same]
      exact inOrder
    · rw [elsewhere row.id different]
      exact sound.inOrder row old
  · intro entry member
    rw [rows, List.mem_append] at member
    rw [jobs]
    rcases member with old | new
    · obtain ⟨row, there, same⟩ := sound.owned entry old
      by_cases equal : row.id = changed.id
      · exact ⟨_, KeyedTable.mem_set.mpr (Or.inl rfl), equal.symm.trans same⟩
      · exact ⟨row, KeyedTable.mem_set.mpr (Or.inr ⟨there, equal⟩), same⟩
    · obtain ⟨change, _, rfl⟩ := List.mem_map.mp new
      exact ⟨_, KeyedTable.mem_set.mpr (Or.inl rfl), rfl⟩
  · intro row member
    rw [jobs] at member
    rcases KeyedTable.mem_set.mp member with rfl | ⟨old, _⟩
    · exact idle
    · exact sound.idle row old

-----------------------------------------------------------------------------------------
-- Bulk updates and appended history
-----------------------------------------------------------------------------------------

/-- A bulk update whose condition names a primary key hits the row with that key, if the
filter admits it and the condition holds of it, and no other row.
-/
theorem executeUpdate_of_key {db : Database} {filter : QueryFilter}
    {condition : JobRow → Bool} {setProperties : JobRow → JobRow}
    {keepsKey : ∀ row, (setProperties row).id = row.id} {id : Guid}
    (names : ∀ row, condition row = true → row.id = id)
    : db.executeUpdate filter condition setProperties keepsKey
      = match (db.jobs.find? id).filter (fun row => filter.admits row && condition row) with
        | some row => (1, { db with jobs := db.jobs.set (setProperties row) })
        | none => (0, db) := by
  cases found : (db.jobs.find? id).filter
      (fun row => filter.admits row && condition row) with
  | none =>
      have unselected : ∀ row ∈ db.jobs.rows, (filter.admits row && condition row) = false := by
        intro row member
        by_contra selected
        rw [Bool.not_eq_false] at selected
        have here : db.jobs.find? id = some row :=
          names row (Bool.and_eq_true_iff.mp selected).2 ▸ KeyedTable.find?_of_mem member
        exact Option.filter_eq_none_iff.mp found row here selected
      have count : db.jobs.rows.countP (fun row => filter.admits row && condition row) = 0 :=
        List.countP_eq_zero.mpr (fun row member => by simp [unselected row member])
      simp only [executeUpdate, count, KeyedTable.updateWhere_of_none unselected]
  | some row =>
      obtain ⟨here, selected⟩ := Option.filter_eq_some_iff.mp found
      obtain ⟨member, same⟩ := KeyedTable.find?_eq_some.mp here
      have only : ∀ other : JobRow, (filter.admits other && condition other) = true
          → other.id = row.id := by
        intro other chosen
        rw [names other (Bool.and_eq_true_iff.mp chosen).2, same]
      simp only [executeUpdate, KeyedTable.countP_of_one member selected only,
        KeyedTable.updateWhere_eq_set member selected only]

/-- The identifiers of appended changes are accepted if no stored change has them. -/
theorem appendStateChanges_of_fresh {db : Database} {jobId : Guid}
    {changes : List JobStateChange} (distinct : (changes.map JobStateChange.id).Nodup)
    (fresh
      : ∀ change ∈ changes, ∀ entry ∈ db.jobStateChanges.rows, entry.change.id ≠ change.id)
    : ∃ next, db.appendStateChanges jobId changes = .ok next := by
  obtain ⟨table, inserted⟩ := @KeyedTable.insertAll?_of_fresh _ _ _ _
    db.jobStateChanges (changes.map (JobStateChangeRow.mk jobId))
    (by simpa [Function.comp_def, JobStateChangeRow.id] using distinct) (by
      intro row member used
      obtain ⟨change, listed, rfl⟩ := List.mem_map.mp member
      obtain ⟨entry, stored, same⟩ := List.mem_map.mp used
      exact fresh change listed entry stored same)
  exact ⟨_, by simp only [appendStateChanges, inserted]; rfl⟩

theorem appendStateChanges_ok {db next : Database} {jobId : Guid}
    {changes : List JobStateChange} (appended : db.appendStateChanges jobId changes = .ok next)
    : next.jobs = db.jobs
      ∧ next.jobStateChanges.rows
        = db.jobStateChanges.rows ++ changes.map (JobStateChangeRow.mk jobId) := by
  unfold appendStateChanges at appended
  split at appended
  · rename_i table inserted
    cases appended
    exact ⟨rfl, KeyedTable.insertAll?_rows inserted⟩
  · cases appended

theorem appendStateChanges_error {db : Database} {jobId : Guid}
    {changes : List JobStateChange} {exception : SchedulerException}
    (failed : db.appendStateChanges jobId changes = .error exception)
    : exception = .dbUpdate := by
  unfold appendStateChanges at failed
  split at failed
  · cases failed
  · exact (Except.error.inj failed).symm

/-- A history row belongs to the history of a stored job. -/
theorem Sound.listed {db : Database} (sound : db.Sound) {entry : JobStateChangeRow}
    (stored : entry ∈ db.jobStateChanges.rows)
    : ∃ job ∈ db.ledger.rows, entry.change ∈ job.history := by
  obtain ⟨row, member, same⟩ := sound.owned entry stored
  refine ⟨db.loadRow row, List.mem_map.mpr ⟨row, member, rfl⟩, ?_⟩
  rw [loadRow_of_inOrder (sound.inOrder row member)]
  exact List.mem_map.mpr ⟨entry, List.mem_filter.mpr ⟨stored, by simp [same]⟩, rfl⟩

/-- Freshly drawn identifiers are accepted; this is the only reason to refuse a history. -/
theorem Sound.append_of_drawn {db : Database} (sound : db.Sound) {ambient : Ambient}
    {changes : List JobStateChange}
    (drawn
      : (changes.map JobStateChange.id).Sublist [ambient.newGuid, ambient.newGuidAgain])
    (fresh : ambient.Fresh db.ledger) (jobId : Guid) (jobs : KeyedTable JobRow.id)
    : ∃ next,
        Database.appendStateChanges { db with jobs := jobs } jobId changes = .ok next := by
  refine appendStateChanges_of_fresh ?_ ?_
  · exact drawn.nodup (by simpa using fresh.1)
  · intro change member entry stored same
    obtain ⟨job, there, listed⟩ := sound.listed stored
    obtain ⟨first, second⟩ := fresh.2 job there
    have known : entry.change.id ∈ job.history.map JobStateChange.id :=
      List.mem_map_of_mem listed
    have mine := drawn.subset (List.mem_map_of_mem member)
    rw [same] at known
    rcases List.mem_cons.mp mine with equal | rest
    · exact first (equal ▸ known)
    · exact second (List.mem_singleton.mp rest ▸ known)

end Database

namespace SqliteJobStore

variable {filter : QueryFilter} {db : Database}

/-- What a caller's query filter shows of a job. -/
def visible (filter : QueryFilter) (job : JobRecord) : Bool :=
  filter.admits (.ofRecord job)

/-- Two jobs of one owner are shown or hidden together. -/
theorem visible_of_sameOwner {job other : JobRecord} (tenant : job.tenantId = other.tenantId)
    (creator : job.createdByActorId = other.createdByActorId)
    : visible filter job = visible filter other :=
  filter.ownership _ _ tenant creator

/-- Loading a job looks it up in the ledger and shows it through the filter. -/
theorem loadJob_eq (filter : QueryFilter) (id : Guid) (db : Database)
    : loadJob filter id db = (db.ledger.find? id).filter (visible filter) := by
  rw [loadJob, Database.filteredJobs, KeyedTable.find?_filter_rows, Database.find?_ledger]
  cases db.jobs.find? id with
  | none => rfl
  | some row => by_cases shown : filter.admits row <;> simp [Option.filter, shown, visible]

theorem loadJobs_eq (filter : QueryFilter) (db : Database)
    : loadJobs filter db = db.ledger.rows.filter (visible filter) := by
  simp only [loadJobs, Database.filteredJobs, Database.ledger, KeyedTable.mapRows,
    List.filter_map]
  rfl

/-- The job the due query picks. -/
def nextDue (filter : QueryFilter) (db : Database) (now : DateTimeOffset)
    : Option JobRecord :=
  (nextDueJobId filter now db).bind (fun id => loadJob filter id db)

-----------------------------------------------------------------------------------------
-- Conditional writes
-----------------------------------------------------------------------------------------

theorem isCurrent_id {id token : Guid} {status : JobStatus} {row : JobRow}
    (current : isCurrent id status token row = true)
    : row.id = id := by
  simp only [isCurrent, Bool.and_eq_true, decide_eq_true_eq] at current
  exact current.1.1

section ConditionalWrites

variable {ambient : Ambient} {job updatedJob : JobRecord}
  {setProperties : JobRow → JobRow} {keepsKey : ∀ row, (setProperties row).id = row.id}

/-- A conditional write under another token hits no row. -/
theorem tryPersistTransition_of_stale {token : Guid} {status : JobStatus} {count : Nat}
    (stored : db.ledger.find? job.id = some job)
    (stale : ¬ (job.status = status ∧ job.currentStateChangeId = token))
    : tryPersistTransition filter job.id status token updatedJob count setProperties keepsKey
        db
      = .ok none := by
  rw [Database.find?_ledger, Option.map_eq_some_iff] at stored
  obtain ⟨row, found, rfl⟩ := stored
  have missed : (db.jobs.find? (db.loadRow row).id).filter (fun other =>
      filter.admits other && isCurrent (db.loadRow row).id status token other) = none := by
    rw [found, Option.filter_eq_none_iff]
    rintro other same
    cases same
    have different : ¬ (row.status = status ∧ row.currentStateChangeId = token) := stale
    simp only [isCurrent, Bool.and_eq_true, decide_eq_true_eq, not_and]
    rintro _ ⟨_, status⟩ token
    exact different ⟨status, token⟩
  simp only [tryPersistTransition, Database.executeUpdate_of_key (fun _ => isCurrent_id),
    missed, if_true]

/-- A conditional write under the current token writes the record, unless an identifier it
draws is stored already.
-/
theorem tryPersistTransition_of_current (sound : db.Sound)
    (stored : db.ledger.find? job.id = some job) (seen : visible filter job = true)
    (sets : setProperties (.ofRecord job) = .ofRecord updatedJob)
    (extended : job.Extends ambient updatedJob)
    (idle : updatedJob.status = .running → updatedJob.runAt = none)
    : (∃ next,
          tryPersistTransition filter job.id job.status job.currentStateChangeId updatedJob
              job.history.length setProperties keepsKey db
            = .ok (some next)
          ∧ db.Written next updatedJob)
      ∨ tryPersistTransition filter job.id job.status job.currentStateChangeId updatedJob
            job.history.length setProperties keepsKey db
          = .error .dbUpdate
        ∧ ¬ ambient.Fresh db.ledger := by
  obtain ⟨added, history, drawn⟩ := extended.history
  obtain ⟨sameHistory, _⟩ := sound.history_of_found stored
  have stored' := stored
  rw [Database.find?_ledger, Option.map_eq_some_iff] at stored'
  obtain ⟨row, found, loads⟩ := stored'
  have rowIs : row = .ofRecord job := by rw [← loads]; rfl
  have hit : (db.jobs.find? job.id).filter (fun other =>
      filter.admits other && isCurrent job.id job.status job.currentStateChangeId other)
      = some (.ofRecord job) := by
    have shown : filter.admits (.ofRecord job) = true := seen
    have current : isCurrent job.id job.status job.currentStateChangeId (.ofRecord job)
        = true := by
      simp [isCurrent, JobRow.ofRecord]
    rw [found, rowIs]
    simp [Option.filter, shown, current]
  have outcome : tryPersistTransition filter job.id job.status job.currentStateChangeId
      updatedJob job.history.length setProperties keepsKey db
      = (Database.appendStateChanges { db with jobs := db.jobs.set (.ofRecord updatedJob) }
          job.id added).map some := by
    simp only [tryPersistTransition, Database.executeUpdate_of_key (fun _ => isCurrent_id),
      hit, sets, one_ne_zero, if_false, history, List.drop_left]
  rw [outcome]
  cases appended : Database.appendStateChanges
      { db with jobs := db.jobs.set (.ofRecord updatedJob) } job.id added with
  | ok next =>
      obtain ⟨jobs, rows⟩ := Database.appendStateChanges_ok appended
      refine Or.inl ⟨next, rfl, sound.written jobs ⟨added, ?_, ?_⟩ extended.inOrder idle⟩
      · rw [extended.id]
        exact rows
      · rw [extended.id, ← sameHistory]
        exact history
  | error exception =>
      refine Or.inr ⟨?_, ?_⟩
      · rw [Database.appendStateChanges_error appended]
        rfl
      · intro fresh
        obtain ⟨next, accepted⟩ :=
          sound.append_of_drawn drawn fresh job.id (db.jobs.set (.ofRecord updatedJob))
        cases appended.symm.trans accepted

end ConditionalWrites

/-- What a call did: it wrote the record, or it met a stored identifier and threw. -/
def Accepted (filter : QueryFilter) (ambient : Ambient) (call : StoreCall) (db : Database)
    (answer : StoreAnswer) (changed : JobRecord)
    : Prop :=
  (∃ next,
      (methods filter).call ambient call db = (answer, next) ∧ db.Written next changed)
  ∨ (methods filter).call ambient call db = (.threw .dbUpdate, db)
    ∧ ¬ ambient.Fresh db.ledger

section Revisions

variable {ambient : Ambient} {call : StoreCall} {revision : Revision} {job : JobRecord}

/-- A bulk update without history entries, of the row of one job. -/
theorem executeUpdate_written (sound : db.Sound) {condition : JobRow → Bool}
    {setProperties : JobRow → JobRow} (keepsKey : ∀ row, (setProperties row).id = row.id)
    {changed : JobRecord} (names : ∀ row, condition row = true → row.id = job.id)
    (stored : db.ledger.find? job.id = some job) (seen : visible filter job = true)
    (current : condition (.ofRecord job) = true)
    (sets : setProperties (.ofRecord job) = .ofRecord changed)
    (extended : job.Extends ambient changed) (sameHistory : changed.history = job.history)
    (idle : changed.status = .running → changed.runAt = none)
    : ∃ next,
        db.executeUpdate filter condition setProperties keepsKey = (1, next)
        ∧ db.Written next changed := by
  have history := (sound.history_of_found stored).1
  rw [Database.find?_ledger, Option.map_eq_some_iff] at stored
  obtain ⟨row, found, loads⟩ := stored
  have rowIs : row = .ofRecord job := by rw [← loads]; rfl
  have hit : (db.jobs.find? job.id).filter (fun other =>
      filter.admits other && condition other) = some (.ofRecord job) := by
    have shown : filter.admits (.ofRecord job) = true := seen
    rw [found, rowIs]
    simp [Option.filter, shown, current]
  refine ⟨_, by simp only [Database.executeUpdate_of_key names, hit]; rfl, ?_⟩
  refine sound.written (by simp only [sets]) ⟨[], by simp, ?_⟩ extended.inOrder idle
  rw [sameHistory, extended.id, List.append_nil, history]

/-- A bulk update whose condition the job does not satisfy changes nothing. -/
theorem executeUpdate_missed {condition : JobRow → Bool}
    {setProperties : JobRow → JobRow} {keepsKey : ∀ row, (setProperties row).id = row.id}
    {id : Guid} (names : ∀ row, condition row = true → row.id = id)
    (misses
      : ∀ job,
          db.ledger.find? id = some job
          → visible filter job = true
          → condition (.ofRecord job) = false)
    : db.executeUpdate filter condition setProperties keepsKey = (0, db) := by
  have missed : (db.jobs.find? id).filter (fun row =>
      filter.admits row && condition row) = none := by
    rw [Option.filter_eq_none_iff]
    intro row found selected
    obtain ⟨shown, met⟩ := Bool.and_eq_true_iff.mp selected
    have stored : db.ledger.find? id = some (db.loadRow row) := by
      rw [Database.find?_ledger, found]
      rfl
    have unmet := misses _ stored shown
    rw [Database.ofRecord_loadRow, met] at unmet
    cases unmet
  simp only [Database.executeUpdate_of_key names, missed]

/-- A transition under another token reports false. -/
theorem commitTransition_of_stale {id token : Guid} {updatedJob : JobRecord}
    {setProperties : JobRow → JobRow} {keepsKey : ∀ row, (setProperties row).id = row.id}
    (loaded : loadJob filter id db = some job) (stale : job.isRunningUnder token = false)
    : commitTransition filter id token job updatedJob setProperties keepsKey db
      = (.ok false, db) := by
  rw [loadJob_eq] at loaded
  obtain ⟨stored, _⟩ := Option.filter_eq_some_iff.mp loaded
  cases KeyedTable.find?_key stored
  have missed := @tryPersistTransition_of_stale filter db job updatedJob setProperties keepsKey
    token .running job.history.length stored
    (fun current => Bool.eq_false_iff.mp stale (JobRecord.isRunningUnder_iff.mpr current))
  simp only [commitTransition, missed]

/-- A transition under the current token writes the record, or throws on a stored
identifier.
-/
theorem commitTransition_of_current (sound : db.Sound) {updatedJob : JobRecord}
    {setProperties : JobRow → JobRow} (keepsKey : ∀ row, (setProperties row).id = row.id)
    (stored : db.ledger.find? job.id = some job) (seen : visible filter job = true)
    (running : job.status = .running)
    (sets : setProperties (.ofRecord job) = .ofRecord updatedJob)
    (extended : job.Extends ambient updatedJob) (left : updatedJob.status ≠ .running)
    : (∃ next,
          commitTransition filter job.id job.currentStateChangeId job updatedJob setProperties
              keepsKey db
            = (.ok true, next)
          ∧ db.Written next updatedJob)
      ∨ commitTransition filter job.id job.currentStateChangeId job updatedJob setProperties
            keepsKey db
          = (.error .dbUpdate, db)
        ∧ ¬ ambient.Fresh db.ledger := by
  rcases @tryPersistTransition_of_current _ _ _ _ _ _ keepsKey sound stored seen sets
    extended (fun still => absurd still left) with ⟨next, written, effect⟩ | ⟨failed, stale⟩
  · rw [running] at written
    exact Or.inl ⟨next, by simp only [commitTransition, written], effect⟩
  · rw [running] at failed
    exact Or.inr ⟨by simp only [commitTransition, failed], stale⟩

theorem isCurrent_ofRecord (token : Guid) (job : JobRecord)
    : isCurrent job.id .running token (.ofRecord job) = job.isRunningUnder token := by
  simp only [isCurrent, JobRow.ofRecord, JobRecord.isRunningUnder, decide_true,
    Bool.true_and]
  rfl

/-- A loaded job is stored and shown. -/
theorem loadJob_eq_some {id : Guid}
    : loadJob filter id db = some job
      ↔ db.ledger.find? id = some job ∧ visible filter job = true := by
  rw [loadJob_eq, Option.filter_eq_some_iff]

/-- A revision that no visible job passes is refused and changes nothing, one kind of call
at a time.
-/
theorem call_refused (revises : call.revision ambient = some revision)
    (disabled
      : ∀ job,
          db.ledger.find? revision.jobId = some job
          → visible filter job = true
          → revision.enabled job = false)
    : (methods filter).call ambient call db = (.flag false, db) := by
  cases call with
  | add => cases revises
  | get => cases revises
  | list => cases revises
  | tryClaimNextDueJob => cases revises
  | renewLease id token renewedAt leaseExpiresAt =>
      cases revises
      by_cases later : renewedAt < leaseExpiresAt
      · have missed : db.executeUpdate filter (isCurrent id .running token)
            (setLease leaseExpiresAt) (setLease_id _) = (0, db) := by
          refine executeUpdate_missed (fun _ => isCurrent_id) ?_
          intro job stored seen
          have stale := disabled job stored seen
          cases KeyedTable.find?_key stored
          rw [isCurrent_ofRecord]
          simpa [later] using stale
        simp only [IJobStore.call, methods, renewLease, not_le.mpr later, if_false, missed]
        rfl
      · simp [IJobStore.call, methods, renewLease, not_lt.mp later]
  | markCompleted id token =>
      cases revises
      simp only [IJobStore.call, methods, markCompleted]
      cases loaded : loadJob filter id db with
      | none => rfl
      | some job =>
          obtain ⟨stored, seen⟩ := loadJob_eq_some.mp loaded
          by_cases running : job.status = .running
          · have stale : job.isRunningUnder token = false := disabled job stored seen
            simp only [running, ne_eq, not_true_eq_false, if_false,
              JobRecord.transitionTo_completed, commitTransition_of_stale loaded stale]
            rfl
          · simp [running]
  | markFailed id token reason =>
      cases revises
      by_cases blank : isNullOrWhiteSpace reason
      · simp [IJobStore.call, methods, markFailed, blank]
      · simp only [IJobStore.call, methods, markFailed, blank]
        cases loaded : loadJob filter id db with
        | none => rfl
        | some job =>
            obtain ⟨stored, seen⟩ := loadJob_eq_some.mp loaded
            by_cases running : job.status = .running
            · have stale : job.isRunningUnder token = false := by
                simpa [blank] using disabled job stored seen
              simp only [running, ne_eq, not_true_eq_false, Bool.false_eq_true, if_false,
                commitTransition_of_stale loaded stale]
              rfl
            · simp [running]
  | scheduleRetry id token reason scheduledAt =>
      cases revises
      by_cases blank : isNullOrWhiteSpace reason
      · simp [IJobStore.call, methods, scheduleRetry, blank]
      · simp only [IJobStore.call, methods, scheduleRetry, blank]
        cases loaded : loadJob filter id db with
        | none => rfl
        | some job =>
            obtain ⟨stored, seen⟩ := loadJob_eq_some.mp loaded
            by_cases rejected : job.status ≠ .running ∨ job.maxAttempts ≤ job.attemptCount
            · simp [rejected]
            · obtain ⟨_, attemptsLeft⟩ := not_or.mp rejected
              have stale : job.isRunningUnder token = false := by
                simpa [blank, not_le.mp attemptsLeft] using disabled job stored seen
              simp only [rejected, Bool.false_eq_true, if_false,
                commitTransition_of_stale loaded stale]
              rfl
  | acknowledge id acknowledgedBy acknowledgedAt =>
      cases revises
      by_cases blank : isNullOrWhiteSpace acknowledgedBy
      · simp [IJobStore.call, methods, acknowledge, blank]
      · have missed : db.executeUpdate filter (fun row => row.id = id)
            (setAcknowledged acknowledgedBy acknowledgedAt) (setAcknowledged_id _ _) = (0, db) := by
          refine executeUpdate_missed (fun _ => of_decide_eq_true) ?_
          intro job stored seen
          simpa [blank] using disabled job stored seen
        simp only [IJobStore.call, methods, acknowledge, blank, Bool.false_eq_true, if_false,
          missed]
        rfl

/-- A method that writes or meets a stored identifier makes an accepted call. -/
theorem Accepted.ofMethod (outcome : Except SchedulerException Bool × Database)
    {changed : JobRecord}
    (calls : (methods filter).call ambient call db = outcome.map (.of .flag) id)
    (method
      : (∃ next, outcome = (.ok true, next) ∧ db.Written next changed)
        ∨ outcome = (.error .dbUpdate, db) ∧ ¬ ambient.Fresh db.ledger)
    : Accepted filter ambient call db (.flag true) changed := by
  rcases method with ⟨next, rfl, written⟩ | ⟨rfl, stale⟩
  · exact Or.inl ⟨next, calls, written⟩
  · exact Or.inr ⟨calls, stale⟩

/-- A revision that a visible job passes is made, one kind of record step at a time. -/
theorem recordStep_accepted {nextDue : DateTimeOffset → Option JobRecord}
    {changed : JobRecord} (sound : db.Sound) (revises : call.revision ambient ≠ none)
    (stored : db.ledger.find? job.id = some job) (seen : visible filter job = true)
    (step : RecordStep nextDue ambient call job changed)
    : Accepted filter ambient call db (.flag true) changed := by
  have extended := step.extends (sound.history_of_found stored).2
  have loaded := loadJob_eq_some.mpr ⟨stored, seen⟩
  have idle : job.status = .running → job.runAt = none := by
    rw [Database.find?_ledger, Option.map_eq_some_iff] at stored
    obtain ⟨row, found, rfl⟩ := stored
    exact sound.idle row (KeyedTable.find?_mem found)
  cases step with
  | claimed => exact absurd rfl revises
  | @renewed _ renewedAt leaseExpiresAt running later =>
      have current : isCurrent job.id .running job.currentStateChangeId (.ofRecord job)
          = true := by
        rw [isCurrent_ofRecord, JobRecord.isRunningUnder_iff]
        exact ⟨running, rfl⟩
      obtain ⟨next, updated, written⟩ := executeUpdate_written sound
        (setLease_id leaseExpiresAt) (fun _ => isCurrent_id) stored seen current rfl extended
        (sound.history_of_found stored).2 idle
      refine .ofMethod (.ok true, next) ?_ (Or.inl ⟨next, rfl, written⟩)
      simp only [IJobStore.call, methods, renewLease, not_le.mpr later, if_false, updated]
      rfl
  | completed running =>
      refine .ofMethod _ ?_ (commitTransition_of_current sound
        (setTransition_id .completed _) stored seen running rfl extended nofun)
      simp only [IJobStore.call, methods, markCompleted, loaded, running, ne_eq,
        not_true_eq_false, if_false, JobRecord.transitionTo_completed]
  | @failed _ reason running present =>
      refine .ofMethod _ ?_ (commitTransition_of_current sound
        (setFailure_id .failed (job.transitionToFailed ambient.newGuid reason ambient.utcNow))
        stored seen running rfl extended nofun)
      simp only [IJobStore.call, methods, markFailed, present, loaded, running, ne_eq,
        not_true_eq_false, Bool.false_eq_true, if_false]
  | @retried _ reason scheduledAt running present attemptsLeft =>
      refine .ofMethod _ ?_ (commitTransition_of_current sound
        (setFailure_id .scheduled (job.scheduleRetry ambient.newGuid ambient.newGuidAgain
          reason ambient.utcNow scheduledAt)) stored seen running rfl extended nofun)
      simp only [IJobStore.call, methods, scheduleRetry, present, loaded, running, ne_eq,
        not_true_eq_false, not_le.mpr attemptsLeft, or_self, Bool.false_eq_true, if_false]
  | @acknowledged _ acknowledgedBy acknowledgedAt named =>
      obtain ⟨next, updated, written⟩ := executeUpdate_written sound
        (setAcknowledged_id acknowledgedBy acknowledgedAt) (fun _ => of_decide_eq_true) stored
        seen (decide_eq_true rfl) rfl extended (sound.history_of_found stored).2 idle
      refine .ofMethod (.ok true, next) ?_ (Or.inl ⟨next, rfl, written⟩)
      simp only [IJobStore.call, methods, acknowledge, named, Bool.false_eq_true, if_false,
        updated]
      rfl

/-- A revision is either made, for a stored and visible job that passes its test, or
refused.
-/
theorem call_revision (sound : db.Sound) (revises : call.revision ambient = some revision)
    : (∃ job,
          db.ledger.find? revision.jobId = some job
          ∧ visible filter job = true
          ∧ revision.enabled job = true
          ∧ Accepted filter ambient call db (.flag true) (revision.change job))
      ∨ (methods filter).call ambient call db = (.flag false, db)
        ∧ ∀ job,
            db.ledger.find? revision.jobId = some job
            → visible filter job = true
            → revision.enabled job = false := by
  by_cases passes : ∃ job, db.ledger.find? revision.jobId = some job
      ∧ visible filter job = true ∧ revision.enabled job = true
  · obtain ⟨job, stored, seen, enabled⟩ := passes
    have same := KeyedTable.find?_key stored
    have revised : call.revision ambient ≠ none := by simp [revises]
    have step : RecordStep (nextDue filter db) ambient call job (revision.change job) :=
      .ofRevision revises same enabled
    exact Or.inl ⟨job, stored, seen, enabled,
      recordStep_accepted sound revised (same ▸ stored) seen step⟩
  · have disabled : ∀ job, db.ledger.find? revision.jobId = some job
        → visible filter job = true → revision.enabled job = false := by
      intro job stored seen
      by_contra enabled
      exact passes ⟨job, stored, seen, Bool.not_eq_false _ ▸ enabled⟩
    exact Or.inr ⟨call_refused revises disabled, disabled⟩

end Revisions

/-- The `Where` of the due query selects the due jobs. -/
theorem isDue_ofRecord (now : DateTimeOffset) (job : JobRecord)
    : isDue now (.ofRecord job) = job.isDue now := by
  cases status : job.status <;>
    simp [isDue, JobRow.ofRecord, JobRecord.isDue, JobRecord.isPending,
      JobRecord.dueInstant, status]

/-- The due query picks a visible due job that no other one precedes. -/
theorem nextDue_eq_some {now : DateTimeOffset} {job : JobRecord}
    (picks : nextDue filter db now = some job)
    : db.ledger.find? job.id = some job
      ∧ visible filter job = true
      ∧ job.isDue now = true
      ∧ ∀ other ∈ db.ledger.rows,
          visible filter other = true → other.isDue now = true → job.dueKey ≤ other.dueKey := by
  obtain ⟨id, picked, loaded⟩ := Option.bind_eq_some_iff.mp picks
  obtain ⟨stored, seen⟩ := loadJob_eq_some.mp loaded
  cases KeyedTable.find?_key stored
  obtain ⟨row, least, sameId⟩ := Option.map_eq_some_iff.mp picked
  obtain ⟨member, due⟩ := List.mem_filter.mp (List.argmin_mem least)
  have inTable := List.mem_of_mem_filter member
  have here : job = db.loadRow row := by
    have found := stored
    rw [Database.find?_ledger, ← sameId, KeyedTable.find?_of_mem inTable] at found
    exact (Option.some.inj found).symm
  subst here
  refine ⟨stored, seen, (isDue_ofRecord now (db.loadRow row)).symm.trans due, ?_⟩
  intro other there shown otherDue
  obtain ⟨otherRow, otherMember, rfl⟩ := List.mem_map.mp there
  have listed : otherRow ∈ (db.filteredJobs filter).filter (isDue now) := by
    refine List.mem_filter.mpr ⟨List.mem_filter.mpr ⟨otherMember, shown⟩, ?_⟩
    exact (isDue_ofRecord now (db.loadRow otherRow)).trans otherDue
  let rowKey (row : JobRow) : WithBot DateTimeOffset ×ₗ Guid := toLex (dueKey row, row.id)
  have order : rowKey row ≤ rowKey otherRow := List.le_of_mem_argmin listed least
  exact order

/-- The due query comes back empty when no visible job is due. -/
theorem nextDueJobId_eq_none {now : DateTimeOffset}
    (nothing : nextDueJobId filter now db = none)
    : ∀ job ∈ db.ledger.rows, visible filter job = true → job.isDue now = false := by
  intro job member shown
  obtain ⟨row, there, rfl⟩ := List.mem_map.mp member
  have empty := List.argmin_eq_none.mp (Option.map_eq_none_iff.mp nothing)
  by_contra due
  have selected : row ∈ (db.filteredJobs filter).filter (isDue now) := by
    refine List.mem_filter.mpr ⟨List.mem_filter.mpr ⟨there, shown⟩, ?_⟩
    exact (isDue_ofRecord now (db.loadRow row)).trans (Bool.not_eq_false _ ▸ due)
  rw [empty] at selected
  cases selected

/-- The picked row can be loaded under the filter that picked it. -/
theorem loadJob_of_picked {now : DateTimeOffset} {id : Guid}
    (picked : nextDueJobId filter now db = some id)
    : ∃ job, loadJob filter id db = some job := by
  obtain ⟨row, least, rfl⟩ := Option.map_eq_some_iff.mp picked
  have member := List.mem_of_mem_filter (List.argmin_mem least)
  obtain ⟨inTable, shown⟩ := List.mem_filter.mp member
  refine ⟨db.loadRow row, loadJob_eq_some.mpr ⟨?_, shown⟩⟩
  rw [Database.find?_ledger, KeyedTable.find?_of_mem inTable]
  rfl

section Claims

variable {ambient : Ambient} {now : DateTimeOffset} {workerId : String}
  {leaseExpiresAt : DateTimeOffset} {job : JobRecord}

theorem tryClaimNextDueJob_of_none (nothing : nextDue filter db now = none)
    : tryClaimNextDueJob filter ambient now workerId leaseExpiresAt db = (.ok none, db) := by
  cases picked : nextDueJobId filter now db with
  | none => simp only [tryClaimNextDueJob, picked]
  | some id =>
      obtain ⟨job, loaded⟩ := loadJob_of_picked picked
      simp [nextDue, picked, loaded] at nothing

theorem tryClaimNextDueJob_of_picked (picks : nextDue filter db now = some job)
    : tryClaimNextDueJob filter ambient now workerId leaseExpiresAt db
      = if job.status = .running then
          match job.reclaimExpiredLease ambient.newGuid workerId now leaseExpiresAt with
          | .error exception => (.error exception, db)
          | .ok reclaimedJob =>
              commitClaim filter job reclaimedJob (setReclaimed reclaimedJob)
                (setReclaimed_id _) db
        else
          claimPendingJob filter ambient now workerId leaseExpiresAt job db := by
  obtain ⟨id, picked, loaded⟩ := Option.bind_eq_some_iff.mp picks
  by_cases running : job.status = .running
  · cases reclaims : job.reclaimExpiredLease ambient.newGuid workerId now leaseExpiresAt <;>
      simp only [tryClaimNextDueJob, picked, loaded, if_pos running, reclaims]
  · simp only [tryClaimNextDueJob, picked, loaded, if_neg running]

/-- A claim with arguments that are not valid throws before anything is written. -/
theorem tryClaimNextDueJob_of_invalid (picks : nextDue filter db now = some job)
    (invalid : ¬ JobRecord.ValidClaim workerId now leaseExpiresAt)
    : ∃ exception,
        tryClaimNextDueJob filter ambient now workerId leaseExpiresAt db
        = (.error exception, db) := by
  obtain ⟨_, _, due, _⟩ := nextDue_eq_some picks
  obtain ⟨exception, checked⟩ := JobRecord.validateClaim_error invalid
  refine ⟨exception, ?_⟩
  rw [tryClaimNextDueJob_of_picked picks]
  rcases JobRecord.isDue_ready due with waiting | expired
  · have idle : job.status ≠ .running := by
      intro running
      simp [JobRecord.isPending, running] at waiting
    rw [if_neg idle]
    cases status : job.status with
    | queued =>
        simp only [claimPendingJob, status, reduceCtorEq, if_false, ne_eq, not_true_eq_false,
          JobRecord.claim_of_error checked]
    | scheduled =>
        have queued : (job.requeued ambient.newGuid now).status = .queued := rfl
        simp only [claimPendingJob, status, if_true, JobRecord.transitionTo_queued, queued,
          ne_eq, not_true_eq_false, if_false, JobRecord.claim_of_error checked]
    | running | completed | failed => simp [JobRecord.isPending, status] at waiting
  · rw [if_pos expired.1, JobRecord.reclaim_of_error expired checked]

/-- The conditional write of a claim and the reload after it. -/
theorem commitClaim_of_current (sound : db.Sound) {claimedJob : JobRecord}
    {setProperties : JobRow → JobRow} (keepsKey : ∀ row, (setProperties row).id = row.id)
    (stored : db.ledger.find? job.id = some job) (seen : visible filter job = true)
    (sets : setProperties (.ofRecord job) = .ofRecord claimedJob)
    (extended : job.Extends ambient claimedJob) (idle : claimedJob.runAt = none)
    : (∃ next,
          commitClaim filter job claimedJob setProperties keepsKey db
            = (.ok (some claimedJob), next)
          ∧ db.Written next claimedJob)
      ∨ commitClaim filter job claimedJob setProperties keepsKey db = (.error .dbUpdate, db)
        ∧ ¬ ambient.Fresh db.ledger := by
  rcases @tryPersistTransition_of_current _ _ _ _ _ _ keepsKey sound stored seen sets
    extended (fun _ => idle) with ⟨next, written, effect⟩ | ⟨failed, stale⟩
  · have reloaded : loadJob filter claimedJob.id next = some claimedJob := by
      have shown : visible filter claimedJob = true :=
        (visible_of_sameOwner extended.tenantId extended.createdByActorId).trans seen
      rw [loadJob_eq_some, effect.1]
      exact ⟨KeyedTable.find?_set_self _ _, shown⟩
    refine Or.inl ⟨next, ?_, effect⟩
    simp only [commitClaim, extended.id, written]
    rw [← extended.id, reloaded]
  · exact Or.inr ⟨by simp only [commitClaim, extended.id, failed], stale⟩

/-- A claim with valid arguments writes the claimed job and answers with it, or meets a
stored identifier and throws.
-/
theorem tryClaimNextDueJob_of_valid (sound : db.Sound)
    (picks : nextDue filter db now = some job)
    (valid : JobRecord.ValidClaim workerId now leaseExpiresAt)
    : (∃ next,
          tryClaimNextDueJob filter ambient now workerId leaseExpiresAt db
            = (.ok (some (job.claimedUnder ambient now workerId leaseExpiresAt)), next)
          ∧ db.Written next (job.claimedUnder ambient now workerId leaseExpiresAt))
      ∨ tryClaimNextDueJob filter ambient now workerId leaseExpiresAt db
          = (.error .dbUpdate, db)
        ∧ ¬ ambient.Fresh db.ledger := by
  obtain ⟨stored, seen, due, _⟩ := nextDue_eq_some picks
  have step : RecordStep (nextDue filter db) ambient
      (.tryClaimNextDueJob now workerId leaseExpiresAt) job
      (job.claimedUnder ambient now workerId leaseExpiresAt) :=
    .claimed picks (JobRecord.isDue_ready due) valid
  have extended := step.extends (sound.history_of_found stored).2
  rw [tryClaimNextDueJob_of_picked picks]
  cases status : job.status with
  | running =>
      have expired : job.LeaseExpired now := by
        rcases JobRecord.isDue_ready due with waiting | expired
        · simp [JobRecord.isPending, status] at waiting
        · exact expired
      have idle : job.runAt = none := by
        rw [Database.find?_ledger, Option.map_eq_some_iff] at stored
        obtain ⟨row, found, rfl⟩ := stored
        exact sound.idle row (KeyedTable.find?_mem found) status
      simp only [JobRecord.claimedUnder, status] at extended ⊢
      rw [if_true, JobRecord.reclaim_of_valid expired valid]
      refine commitClaim_of_current sound (setReclaimed_id _) stored seen ?_ extended rfl
      simp only [setReclaimed, JobRow.ofRecord, JobRecord.runUnder, JobRecord.construct, idle,
        status]
  | queued =>
      simp only [JobRecord.claimedUnder, status] at extended ⊢
      simp only [reduceCtorEq, if_false, claimPendingJob, status, ne_eq, not_true_eq_false,
        JobRecord.claim_of_valid valid]
      exact commitClaim_of_current sound (setTransition_id .running _) stored seen rfl extended
        rfl
  | scheduled =>
      have queued : (job.requeued ambient.newGuid now).status = .queued := rfl
      simp only [JobRecord.claimedUnder, status] at extended ⊢
      simp only [reduceCtorEq, if_false, claimPendingJob, status, if_true,
        JobRecord.transitionTo_queued, queued, ne_eq, not_true_eq_false,
        JobRecord.claim_of_valid valid]
      exact commitClaim_of_current sound (setTransition_id .running _) stored seen rfl extended
        rfl
  | completed | failed => simp [JobRecord.isDue, JobRecord.isPending, status] at due

end Claims

-----------------------------------------------------------------------------------------
-- The store as a lawful one
-----------------------------------------------------------------------------------------

/-- Adding a new job stores it, unless its id or the id of its first entry is stored. -/
theorem call_add (sound : db.Sound) {job : JobRecord} (new : job.NewlyMade)
    (ambient : Ambient)
    : (∃ next,
          (methods filter).call ambient (.add job) db = (.done, next) ∧ db.Written next job)
      ∨ (methods filter).call ambient (.add job) db = (.threw .dbUpdate, db)
        ∧ ¬ job.FreshIn db.ledger := by
  cases present : db.jobs.find? job.id with
  | some row =>
      have refused : db.jobs.insert? (.ofRecord job) = none := by
        have known : JobRow.id (.ofRecord job) ∈ db.jobs.rows.map JobRow.id :=
          List.mem_map.mpr ⟨row, KeyedTable.find?_mem present, KeyedTable.find?_key present⟩
        simp only [KeyedTable.insert?, known, not_true_eq_false, dite_false]
      refine Or.inr ⟨?_, ?_⟩
      · simp only [IJobStore.call, methods, add, Database.insertJob, refused]
        rfl
      · rintro ⟨absent, _⟩
        rw [Database.find?_ledger, present] at absent
        cases absent
  | none =>
      have inserted : db.jobs.insert? (.ofRecord job) = some (db.jobs.set (.ofRecord job)) :=
        KeyedTable.insert?_of_absent present
      have noHistory := sound.historyOf_of_absent present
      cases appended : Database.appendStateChanges
          { db with jobs := db.jobs.set (.ofRecord job) } job.id job.history with
      | ok next =>
          obtain ⟨jobs, rows⟩ := Database.appendStateChanges_ok appended
          refine Or.inl ⟨next, ?_, sound.written jobs ⟨job.history, rows, ?_⟩ new.numbered ?_⟩
          · simp only [IJobStore.call, methods, add, Database.insertJob, inserted, appended]
            rfl
          · rw [noHistory, List.nil_append]
          · intro running
            obtain ⟨_, _, _, made, -⟩ := new.cases
            rcases made with ⟨_, queued, _⟩ | ⟨_, _, scheduled, _⟩
            · cases queued.symm.trans running
            · cases scheduled.symm.trans running
      | error exception =>
          cases Database.appendStateChanges_error appended
          refine Or.inr ⟨?_, ?_⟩
          · simp only [IJobStore.call, methods, add, Database.insertJob, inserted, appended]
            rfl
          · rintro ⟨_, unused⟩
            have single : (job.history.map JobStateChange.id).Nodup := by
              obtain ⟨_, _, _, made, -⟩ := new.cases
              rcases made with ⟨history, _⟩ | ⟨_, history, _⟩ <;> simp [history]
            obtain ⟨next, accepted⟩ := @Database.appendStateChanges_of_fresh
              { db with jobs := db.jobs.set (.ofRecord job) } job.id _ single (by
                intro change listed entry stored same
                obtain ⟨other, there, known⟩ := sound.listed stored
                exact unused other there change listed
                  (same ▸ List.mem_map_of_mem known))
            cases appended.symm.trans accepted

/-- Every call follows the ledger and keeps the tables fitting together, one kind of call
at a time.
-/
theorem call_follows (sound : db.Sound) (ambient : Ambient) (call : StoreCall)
    (admissible : call.Admissible)
    : LedgerStep (visible filter) (nextDue filter db) ambient db.ledger call
        ((methods filter).call ambient call db).1
        ((methods filter).call ambient call db).2.ledger
      ∧ ((methods filter).call ambient call db).2.Sound := by
  cases revises : call.revision ambient with
  | some revision =>
      rcases @call_revision filter _ _ _ _ sound revises with
        ⟨job, stored, seen, enabled, ⟨next, outcome, written⟩ | ⟨outcome, stale⟩⟩
        | ⟨outcome, disabled⟩
      · rw [outcome]
        refine ⟨?_, written.2⟩
        rw [written.1]
        exact .revised revises stored seen enabled
      · rw [outcome]
        exact ⟨.conflicted revises stored seen enabled stale, sound⟩
      · rw [outcome]
        exact ⟨.refused revises disabled, sound⟩
  | none =>
      cases call with
      | add job =>
          rcases @call_add filter _ sound _ (admissible job rfl) ambient with
            ⟨next, outcome, written⟩ | ⟨outcome, _⟩
          · rw [outcome]
            refine ⟨?_, written.2⟩
            rw [written.1]
            exact .added (admissible job rfl)
          · rw [outcome]
            exact ⟨.threw _ rfl, sound⟩
      | get id =>
          refine ⟨?_, sound⟩
          simp only [IJobStore.call, methods, get, loadJob_eq]
          exact .got id
      | list =>
          refine ⟨?_, sound⟩
          simp only [IJobStore.call, methods, list, loadJobs_eq]
          exact .listed
      | tryClaimNextDueJob now workerId leaseExpiresAt =>
          simp only [IJobStore.call, methods]
          cases picks : nextDue filter db now with
          | none =>
              rw [tryClaimNextDueJob_of_none picks]
              exact ⟨.nothingClaimed, sound⟩
          | some job =>
              obtain ⟨stored, seen, due, _⟩ := nextDue_eq_some picks
              by_cases valid : JobRecord.ValidClaim workerId now leaseExpiresAt
              · rcases @tryClaimNextDueJob_of_valid _ _ ambient _ _ _ _ sound picks valid with
                  ⟨next, outcome, written⟩ | ⟨outcome, _⟩
                · rw [outcome]
                  refine ⟨?_, written.2⟩
                  change LedgerStep _ _ _ _ _ _ next.ledger
                  rw [written.1]
                  exact .claimed picks stored seen (JobRecord.isDue_ready due) valid
                · rw [outcome]
                  exact ⟨.threw _ rfl, sound⟩
              · obtain ⟨exception, outcome⟩ :=
                  @tryClaimNextDueJob_of_invalid _ _ ambient _ _ _ _ picks valid
                rw [outcome]
                exact ⟨.threw _ rfl, sound⟩
      | renewLease | markCompleted | markFailed | scheduleRetry | acknowledge => cases revises

theorem empty_sound : Database.empty.Sound where
  inOrder _ member := absurd member List.not_mem_nil
  owned _ member := absurd member List.not_mem_nil
  idle _ member := absurd member List.not_mem_nil

/-- The SQLite store follows the ledger, whatever query filters its callers have. -/
def lawful : LawfulStore Database QueryFilter where
  methods := methods
  initial := .empty
  ledger := Database.ledger
  visible := visible
  nextDue filter db now := nextDue filter db now
  Sound := Database.Sound
  initiallySound := empty_sound
  initiallyEmpty := rfl
  ownership _ _ _ tenant creator := visible_of_sameOwner tenant creator
  follows _ ambient call _ sound admissible :=
    (call_follows sound ambient call admissible).1
  stays _ ambient call _ sound admissible := (call_follows sound ambient call admissible).2
  claims filter ambient db now workerId leaseExpiresAt job sound picks _ valid fresh := by
    rcases @tryClaimNextDueJob_of_valid filter db ambient now workerId leaseExpiresAt job sound
      picks valid with ⟨next, outcome, written⟩ | ⟨_, stale⟩
    · exact ⟨next, by simp only [IJobStore.call, methods, outcome]; rfl, written.1⟩
    · exact absurd fresh stale
  refusalKeeps filter _ _ _ _ sound revises refused := by
    rcases @call_revision filter _ _ _ _ sound revises with
      ⟨_, _, _, _, ⟨_, outcome, _⟩ | ⟨outcome, _⟩⟩ | ⟨outcome, _⟩
    · rw [outcome] at refused
      exact absurd rfl refused
    · rw [outcome]
    · rw [outcome]

end SqliteJobStore

end JobScheduler
