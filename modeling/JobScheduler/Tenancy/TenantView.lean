import JobScheduler.Persistence.SqliteLedger

/-! What a database holds of one tenant: its jobs and their history rows. A history row names
no tenant, it belongs to the tenant of its job. Queries under a filter that stays within the
tenant depend on this view alone, and each write changes the views in a way of its own.
-/

namespace JobScheduler

open Library

/-- The rows of one tenant, in the order they are stored. -/
@[ext]
structure TenantView where
  jobs : List JobRow
  history : List JobStateChangeRow
  deriving DecidableEq, Repr

namespace TenantView

/-- A job of the view as it is loaded, from the history rows of the view alone. -/
def load (view : TenantView) (row : JobRow) : JobRecord :=
  (row.toRecord ((view.history.filter (·.jobId = row.id)).map JobStateChangeRow.change)
    ).withOrderedHistory

/-- All rows of the first view are in the second, as they were. -/
structure Keeps (before after : TenantView) : Prop where
  jobs : before.jobs <+: after.jobs
  history : before.history <+: after.history

theorem Keeps.refl (view : TenantView) : view.Keeps view :=
  ⟨List.prefix_refl _, List.prefix_refl _⟩

end TenantView

namespace Database

/-- The history row belongs to a job of the tenant. -/
def belongsTo (db : Database) (tenantId : String) (entry : JobStateChangeRow) : Bool :=
  db.jobs.rows.any (fun row => row.id = entry.jobId && row.tenantId = tenantId)

def tenantView (db : Database) (tenantId : String) : TenantView where
  jobs := db.jobs.rows.filter (·.tenantId = tenantId)
  history := db.jobStateChanges.rows.filter (db.belongsTo tenantId)

/-- No row of either table mentions the value. -/
structure Unused (db : Database) (guid : Guid) : Prop where
  jobs : ∀ row ∈ db.jobs.rows, row.id ≠ guid
  history : ∀ entry ∈ db.jobStateChanges.rows, entry.id ≠ guid ∧ entry.jobId ≠ guid

end Database

/-- The filter admits rows of one tenant only. -/
def QueryFilter.Within (filter : QueryFilter) (tenantId : String) : Prop :=
  ∀ row, filter.admits row = true → row.tenantId = tenantId

namespace Database

variable {db : Database} {filter : QueryFilter} {tenantId : String}

/-- A filter within the tenant selects among the tenant's jobs. -/
theorem filteredJobs_within (within : filter.Within tenantId)
    : db.filteredJobs filter = (db.tenantView tenantId).jobs.filter filter.admits := by
  have same : ∀ row ∈ db.jobs.rows,
      filter.admits row = (filter.admits row && decide (row.tenantId = tenantId)) := by
    intro row _
    cases admitted : filter.admits row with
    | false => rfl
    | true => simp [within row admitted]
  unfold filteredJobs tenantView
  rw [List.filter_filter]
  exact List.filter_congr same

/-- The history of a tenant's job is found in the view. -/
theorem loadRow_within {row : JobRow} (member : row ∈ (db.tenantView tenantId).jobs)
    : db.loadRow row = (db.tenantView tenantId).load row := by
  obtain ⟨stored, owner⟩ := List.mem_filter.mp member
  have same : ∀ entry ∈ db.jobStateChanges.rows,
      decide (entry.jobId = row.id)
        = (decide (entry.jobId = row.id) && db.belongsTo tenantId entry) := by
    intro entry _
    by_cases related : entry.jobId = row.id
    · have belongs : db.belongsTo tenantId entry = true :=
        List.any_eq_true.mpr ⟨row, stored, by simpa [related] using owner⟩
      simp [belongs]
    · simp [related]
  simp only [loadRow, historyOf, TenantView.load, tenantView, List.filter_filter]
  rw [List.filter_congr same]

/-- Listing under a filter within the tenant loads jobs of the view. -/
theorem loadJobs_within (within : filter.Within tenantId)
    : SqliteJobStore.loadJobs filter db
      = ((db.tenantView tenantId).jobs.filter filter.admits).map
          (db.tenantView tenantId).load := by
  unfold SqliteJobStore.loadJobs
  rw [filteredJobs_within within]
  exact List.map_congr_left (fun row member =>
    loadRow_within (List.mem_of_mem_filter member))

/-- Looking a job up under a filter within the tenant looks it up in the view. -/
theorem loadJob_within (within : filter.Within tenantId) (id : Guid)
    : SqliteJobStore.loadJob filter id db
      = (((db.tenantView tenantId).jobs.filter filter.admits).find? (·.id = id)).map
          (db.tenantView tenantId).load := by
  unfold SqliteJobStore.loadJob
  rw [filteredJobs_within within]
  refine Option.map_congr ?_
  intro row found
  exact loadRow_within (List.mem_of_mem_filter (List.mem_of_find?_eq_some found))

end Database

namespace Database

section Updates

variable {db : Database} {filter : QueryFilter} {tenantId : String}
  {condition : JobRow → Bool} {setProperties : JobRow → JobRow}
  {keepsKey : ∀ row, (setProperties row).id = row.id}

/-- A bulk update that sets no tenant rewrites the jobs of every view and no history. -/
theorem tenantView_executeUpdate
    (keepsTenant : ∀ row, (setProperties row).tenantId = row.tenantId)
    : (db.executeUpdate filter condition setProperties keepsKey).2.tenantView tenantId
      = { db.tenantView tenantId with
          jobs := (db.tenantView tenantId).jobs.map (fun row =>
            if filter.admits row && condition row then setProperties row else row) } := by
  have sameTenant (row : JobRow)
      : (if filter.admits row && condition row then setProperties row else row).tenantId
        = row.tenantId := by
    by_cases selected : (filter.admits row && condition row) = true <;>
      simp [selected, keepsTenant]
  have sameId (row : JobRow)
      : (if filter.admits row && condition row then setProperties row else row).id
        = row.id := by
    by_cases selected : (filter.admits row && condition row) = true <;>
      simp [selected, keepsKey]
  refine TenantView.ext ?_ ?_
  · simp only [executeUpdate, tenantView, KeyedTable.updateWhere, List.filter_map,
      Function.comp_def, sameTenant]
  · simp only [executeUpdate, tenantView, KeyedTable.updateWhere]
    refine List.filter_congr ?_
    intro entry _
    simp only [belongsTo, List.any_map, Function.comp_def, sameTenant, sameId]

/-- A bulk update within one tenant leaves the views of the others alone. -/
theorem tenantView_executeUpdate_other {other : String} (within : filter.Within tenantId)
    (keepsTenant : ∀ row, (setProperties row).tenantId = row.tenantId)
    (different : other ≠ tenantId)
    : (db.executeUpdate filter condition setProperties keepsKey).2.tenantView other
      = db.tenantView other := by
  rw [tenantView_executeUpdate keepsTenant]
  refine TenantView.ext ?_ rfl
  have untouched : ∀ row ∈ (db.tenantView other).jobs,
      (if filter.admits row && condition row then setProperties row else row) = row := by
    intro row member
    have owner : row.tenantId = other := by simpa using (List.mem_filter.mp member).2
    have skipped : filter.admits row = false :=
      Bool.eq_false_iff.mpr (fun admitted => different (owner ▸ within row admitted))
    simp [skipped]
  exact (List.map_congr_left untouched).trans (List.map_id' _)

/-- The rows a bulk update within the tenant hits are counted in the view. -/
theorem executeUpdate_count (within : filter.Within tenantId)
    : (db.executeUpdate filter condition setProperties keepsKey).1
      = (db.tenantView tenantId).jobs.countP (fun row =>
          filter.admits row && condition row) := by
  simp only [executeUpdate, tenantView, List.countP_filter]
  refine List.countP_congr ?_
  intro row _
  cases admitted : filter.admits row with
  | false => simp
  | true => simp [within row admitted]

end Updates

/-- A job with unused identifiers is inserted, with the rows of its history. -/
theorem insertJob_rows {db : Database} {job : JobRecord} (unused : db.Unused job.id)
    (distinct : (job.history.map JobStateChange.id).Nodup)
    (unusedHistory : ∀ change ∈ job.history, db.Unused change.id)
    : ∃ next,
        db.insertJob job = .ok next
        ∧ next.jobs.rows = db.jobs.rows ++ [.ofRecord job]
        ∧ next.jobStateChanges.rows
          = db.jobStateChanges.rows ++ job.history.map (JobStateChangeRow.mk job.id) := by
  have absent : db.jobs.find? (JobRow.ofRecord job).id = none :=
    KeyedTable.find?_eq_none.mpr unused.jobs
  have inserted := KeyedTable.insert?_of_absent absent
  have fresh : ∀ change ∈ job.history,
      ∀ entry ∈ db.jobStateChanges.rows, entry.change.id ≠ change.id :=
    fun change member entry stored => ((unusedHistory change member).history entry stored).1
  obtain ⟨next, appended⟩ := @appendStateChanges_of_fresh
    { db with jobs := db.jobs.set (.ofRecord job) } job.id job.history distinct fresh
  obtain ⟨jobs, history⟩ := appendStateChanges_ok appended
  refine ⟨next, ?_, ?_, history⟩
  · simp only [insertJob, inserted, appended]
  · rw [jobs]
    exact KeyedTable.set_rows_of_absent absent

/-- The view of the job's tenant gains its row and its history rows, the other views stay as
they are: the history rows name the new job, and no older history row does.
-/
theorem tenantView_insertJob {db : Database} {job : JobRecord} (unused : db.Unused job.id)
    (distinct : (job.history.map JobStateChange.id).Nodup)
    (unusedHistory : ∀ change ∈ job.history, db.Unused change.id)
    : ∃ next,
        db.insertJob job = .ok next
        ∧ ∀ tenantId,
          next.tenantView tenantId
            = if job.tenantId = tenantId then
                { jobs := (db.tenantView tenantId).jobs ++ [.ofRecord job]
                  history := (db.tenantView tenantId).history
                    ++ job.history.map (JobStateChangeRow.mk job.id) }
              else
                db.tenantView tenantId := by
  obtain ⟨next, inserted, jobs, history⟩ := insertJob_rows unused distinct unusedHistory
  refine ⟨next, inserted, ?_⟩
  intro tenantId
  have older : ∀ entry ∈ db.jobStateChanges.rows,
      next.belongsTo tenantId entry = db.belongsTo tenantId entry := by
    intro entry stored
    have different : job.id ≠ entry.jobId := (unused.history entry stored).2.symm
    simp [belongsTo, jobs, JobRow.ofRecord, different]
  have newer : ∀ entry ∈ job.history.map (JobStateChangeRow.mk job.id),
      next.belongsTo tenantId entry = decide (job.tenantId = tenantId) := by
    intro entry member
    obtain ⟨change, -, rfl⟩ := List.mem_map.mp member
    have unrelated : ∀ row ∈ db.jobs.rows,
        row.id = job.id → row.tenantId = tenantId → job.tenantId = tenantId :=
      fun row stored same => absurd same (unused.jobs row stored)
    simpa [belongsTo, jobs, JobRow.ofRecord] using unrelated
  by_cases owner : job.tenantId = tenantId
  · simp only [tenantView, jobs, history, List.filter_append, List.filter_congr older,
      List.filter_congr newer, owner, if_true]
    simp [JobRow.ofRecord, owner]
  · simp only [tenantView, jobs, history, List.filter_append, List.filter_congr older,
      List.filter_congr newer, owner, if_false]
    simp [JobRow.ofRecord, owner]

end Database

end JobScheduler
