import JobScheduler.Library.Machine
import JobScheduler.Persistence.GuardedCalls

/-! Calls of the SQLite store whose loads and writes interleave. A load sees what is committed,
a write is one transaction; nothing but the guards of the writes orders the calls.
-/

namespace JobScheduler

open Library SqliteJobStore

namespace Database

/-- The tables fit together, and the last history row of a job is its current state change. -/
structure Intact (db : Database) : Prop extends Sound db where
  current
    : ∀ row ∈ db.jobs.rows,
        (db.historyOf row.id).getLast?.map JobStateChange.id = some row.currentStateChangeId

theorem empty_intact : Database.empty.Intact where
  toSound := empty_sound
  current _ member := absurd member List.not_mem_nil

/-- Histories grow with the table of state changes. -/
theorem historyOf_prefix {db next : Database}
    (grows : db.jobStateChanges.rows <+: next.jobStateChanges.rows) (jobId : Guid)
    : db.historyOf jobId <+: next.historyOf jobId :=
  (grows.filter _).map _

/-- A state change occurs once in a history, by the primary key. -/
theorem historyOf_distinct (db : Database) (jobId : Guid)
    : ((db.historyOf jobId).map JobStateChange.id).Nodup := by
  rw [historyOf, List.map_map]
  exact (db.jobStateChanges.distinct).sublist (List.filter_sublist.map _)

theorem mem_historyOf {db : Database} {jobId : Guid} {change : JobStateChange}
    : change ∈ db.historyOf jobId
      ↔ JobStateChangeRow.mk jobId change ∈ db.jobStateChanges.rows := by
  constructor
  · intro member
    obtain ⟨entry, listed, rfl⟩ := List.mem_map.mp member
    obtain ⟨stored, same⟩ := List.mem_filter.mp listed
    cases of_decide_eq_true same
    exact stored
  · intro stored
    exact List.mem_map.mpr ⟨_, List.mem_filter.mpr ⟨stored, decide_eq_true rfl⟩, rfl⟩

/-- Rewriting one row keeps the tables intact, if the row names the last entry. -/
theorem Intact.rewritten {db next : Database} {row written : JobRow}
    {entries : List JobStateChange} (before : db.Intact)
    (rewrites : db.RewritesRow next row written entries)
    (inOrder
      : numbered (db.historyOf row.id ++ entries) = db.historyOf row.id ++ entries)
    (idle : written.status = .running → written.runAt = none)
    (names
      : (db.historyOf row.id ++ entries).getLast?.map JobStateChange.id
        = some written.currentStateChangeId)
    : next.Intact where
  toSound := rewrites.sound before.toSound inOrder idle
  current other member := by
    rcases rewrites.mem_rows.mp member with rfl | ⟨old, different⟩
    · rw [rewrites.sameKey, rewrites.historyOf_self]
      exact names
    · rw [rewrites.historyOf_other different]
      exact before.current other old

/-- A bulk update without entries keeps the tables intact, if the row keeps what it names. -/
theorem Intact.updated {db next : Database} {row written : JobRow} (before : db.Intact)
    (rewrites : db.RewritesRow next row written [])
    (kept
      : written.status = row.status
        ∧ written.runAt = row.runAt
        ∧ written.currentStateChangeId = row.currentStateChangeId)
    : next.Intact := by
  have member := KeyedTable.find?_mem rewrites.stored
  obtain ⟨status, runAt, token⟩ := kept
  apply before.rewritten rewrites
  · rw [List.append_nil]
    exact before.inOrder row member
  · rw [status, runAt]
    exact before.idle row member
  · rw [List.append_nil, token]
    exact before.current row member

/-- An added job keeps the tables intact. -/
theorem Intact.added {db next : Database} {job : JobRecord} (before : db.Intact)
    (new : job.NewlyMade) (inserted : db.insertJob job = .ok next)
    : next.Intact
      ∧ next.jobStateChanges.rows
        = db.jobStateChanges.rows ++ job.history.map (JobStateChangeRow.mk job.id) := by
  obtain ⟨absent, jobs, rows⟩ := insertJob_ok inserted
  obtain ⟨newGuid, changedAt, reason, made, token, -⟩ := new.cases
  obtain ⟨here, elsewhere⟩ := historyOf_inserted before.toSound inserted
  have mem_rows (other : JobRow) (member : other ∈ next.jobs.rows)
      : other = .ofRecord job ∨ other ∈ db.jobs.rows ∧ other.id ≠ job.id := by
    rw [jobs] at member
    exact KeyedTable.mem_set.mp member
  refine ⟨⟨⟨?_, ?_, ?_⟩, ?_⟩, rows⟩
  · intro other member
    rcases mem_rows other member with rfl | ⟨old, different⟩
    · have same : next.historyOf (JobRow.ofRecord job).id = job.history := here
      rw [same]
      exact new.numbered
    · rw [elsewhere other.id different]
      exact before.inOrder other old
  · intro entry member
    rw [rows, List.mem_append] at member
    rcases member with old | added
    · obtain ⟨other, there, same⟩ := before.owned entry old
      refine ⟨other, ?_, same⟩
      rw [jobs]
      exact KeyedTable.mem_set.mpr
        (Or.inr ⟨there, fun equal => KeyedTable.find?_eq_none.mp absent other there equal⟩)
    · obtain ⟨change, -, rfl⟩ := List.mem_map.mp added
      refine ⟨.ofRecord job, ?_, rfl⟩
      rw [jobs]
      exact KeyedTable.mem_set.mpr (Or.inl rfl)
  · intro other member running
    rcases mem_rows other member with rfl | ⟨old, -⟩
    · rcases made with ⟨-, queued, -⟩ | ⟨_, -, scheduled, -⟩
      · cases queued.symm.trans running
      · cases scheduled.symm.trans running
    · exact before.idle other old running
  · intro other member
    rcases mem_rows other member with rfl | ⟨old, different⟩
    · have same : next.historyOf (JobRow.ofRecord job).id = job.history := here
      have named : (JobRow.ofRecord job).currentStateChangeId = newGuid := token
      rw [same, named]
      rcases made with ⟨history, -⟩ | ⟨_, history, -⟩ <;> rw [history] <;> rfl
    · rw [elsewhere other.id different]
      exact before.current other old

end Database

-----------------------------------------------------------------------------------------
-- Calls between their load and their write
-----------------------------------------------------------------------------------------

/-- A call that has loaded its job and has not written yet. -/
structure PendingWrite where
  filter : QueryFilter
  ambient : Ambient
  call : GuardedCall
  loaded : JobRecord

namespace PendingWrite

/-- The identifiers the call generates. -/
def drawn (pending : PendingWrite) : List Guid :=
  [pending.ambient.newGuid, pending.ambient.newGuidAgain]

/-- The value of `CurrentStateChangeId` the guard of the write asks for. -/
def token (pending : PendingWrite) : Guid := pending.call.expectedToken pending.loaded

def jobId (pending : PendingWrite) : Guid := pending.call.jobId pending.loaded

/-- The write, in the database it meets. -/
def run (pending : PendingWrite) (db : Database) : StoreAnswer × Database :=
  pending.call.write pending.filter pending.ambient pending.loaded db

/-- What the call has loaded is a beginning of what is stored, and the token it will compare
was committed by the time of its load.
-/
structure Tracks (pending : PendingWrite) (db : Database) : Prop where
  inOrder : pending.loaded.Numbered
  named : pending.jobId = pending.loaded.id
  begins : pending.loaded.history <+: db.historyOf pending.jobId
  committed
    : ∃ entry ∈ db.jobStateChanges.rows,
        entry.change.id = pending.token
        ∧ (entry.jobId = pending.jobId
          → pending.token ∈ pending.loaded.history.map JobStateChange.id)

/-- No identifier the call generates is stored. -/
def Unwritten (pending : PendingWrite) (db : Database) : Prop :=
  ∀ entry ∈ db.jobStateChanges.rows, entry.change.id ∉ pending.drawn

variable {pending : PendingWrite} {db : Database}

theorem Tracks.grows (tracks : pending.Tracks db) {next : Database}
    (grows : db.jobStateChanges.rows <+: next.jobStateChanges.rows)
    : pending.Tracks next where
  inOrder := tracks.inOrder
  named := tracks.named
  begins := tracks.begins.trans (Database.historyOf_prefix grows _)
  committed := by
    obtain ⟨entry, stored, names⟩ := tracks.committed
    exact ⟨entry, grows.subset stored, names⟩

/-- A job whose current state change is the token has the history that was loaded: the token
is its last entry and was loaded, and entries do not repeat.
-/
theorem Tracks.history_eq (tracks : pending.Tracks db) (intact : db.Intact) {row : JobRow}
    (member : row ∈ db.jobs.rows) (key : row.id = pending.jobId)
    (current : row.currentStateChangeId = pending.token)
    : db.historyOf row.id = pending.loaded.history := by
  obtain ⟨last, final, lastId⟩ := Option.map_eq_some_iff.mp (intact.current row member)
  rw [current] at lastId
  obtain ⟨rest, whole⟩ := key ▸ tracks.begins
  have distinct := db.historyOf_distinct row.id
  have loadedToken : pending.token ∈ pending.loaded.history.map JobStateChange.id := by
    obtain ⟨entry, stored, same, belongs⟩ := tracks.committed
    apply belongs
    have there := Database.mem_historyOf.mp (List.mem_of_getLast? final)
    have once := List.inj_on_of_nodup_map db.jobStateChanges.distinct stored there
      (same.trans lastId.symm)
    rw [once, key]
  rw [← whole] at final distinct ⊢
  cases later : rest.getLast? with
  | none => rw [List.getLast?_eq_none_iff.mp later, List.append_nil]
  | some change =>
      rw [List.getLast?_append, later, Option.some_or] at final
      cases final
      rw [List.map_append, List.nodup_append] at distinct
      have after : last.id ∈ rest.map JobStateChange.id :=
        List.mem_map_of_mem (List.mem_of_getLast? later)
      exact absurd lastId.symm (distinct.2.2 _ loadedToken _ after)

/-- The write replaced the current state change of a row that still had the loaded history. -/
structure Commits (pending : PendingWrite) (db next : Database) (updatedJob : JobRecord)
    (row : JobRow) : Prop where
  computed : pending.call.transition pending.ambient pending.loaded = .ok updatedJob
  selected : pending.call.Selects pending.filter pending.loaded row
  rewrites
    : db.RewritesRow next row (pending.call.setProperties pending.loaded updatedJob row)
        (updatedJob.history.drop pending.loaded.history.length)
  history : db.historyOf row.id = pending.loaded.history
  drawn
    : ((updatedJob.history.drop pending.loaded.history.length).map JobStateChange.id).Sublist
        pending.drawn
  names
    : ((updatedJob.history.drop pending.loaded.history.length).getLast?).map
          JobStateChange.id
        = some updatedJob.currentStateChangeId
  intact : next.Intact

/-- The row is the job's, with the token as its current state change. -/
theorem Commits.current {next : Database} {updatedJob : JobRecord} {row : JobRow}
    (commits : pending.Commits db next updatedJob row)
    : row.id = pending.jobId
      ∧ row.status = pending.call.expectedStatus pending.loaded
      ∧ row.currentStateChangeId = pending.token := by
  have current := commits.selected.2
  simp only [isCurrent, Bool.and_eq_true, decide_eq_true_eq] at current
  exact ⟨current.1.1, current.1.2, current.2⟩

/-- The guard of a call that lost the race selects no row; a write whose guard selects a row
commits, since the history there is the one it was computed from.
-/
theorem run_cases (intact : db.Intact) (tracks : pending.Tracks db)
    (unwritten : pending.Unwritten db) (distinct : pending.drawn.Nodup)
    : (∃ answer,
          pending.run db = (answer, db)
          ∧ answer.accepted = false
          ∧ ∀ updatedJob,
              pending.call.transition pending.ambient pending.loaded = .ok updatedJob
              → ∀ row ∈ db.jobs.rows,
                  ¬ pending.call.Selects pending.filter pending.loaded row)
      ∨ ∃ updatedJob row next answer,
          pending.run db = (answer, next)
          ∧ answer.accepted = true
          ∧ pending.Commits db next updatedJob row := by
  rcases pending.call.write_cases pending.filter pending.ambient pending.loaded db with
    ⟨answer, wrote, refused, unselected⟩
    | ⟨updatedJob, row, next, answer, computed, selected, wrote, accepted, rewrites⟩
  · refine Or.inl ⟨answer, wrote, refused, ?_⟩
    intro updatedJob computed row member selected
    obtain ⟨-, -, drawn, -⟩ := GuardedCall.transition_entries tracks.inOrder computed
    refine unselected updatedJob computed row member selected ⟨drawn.nodup distinct, ?_⟩
    intro change listed entry stored same
    have mine := drawn.subset (List.mem_map_of_mem listed)
    rw [← same] at mine
    exact unwritten entry stored mine
  · have current := selected.2
    simp only [isCurrent, Bool.and_eq_true, decide_eq_true_eq] at current
    obtain ⟨⟨key, status⟩, token⟩ := current
    have member := KeyedTable.find?_mem rewrites.stored
    have history := tracks.history_eq intact member key token
    obtain ⟨continued, inOrder, drawn, names⟩ :=
      GuardedCall.transition_entries tracks.inOrder computed
    obtain ⟨namesToken, namesStatus, namesRunAt, -⟩ :=
      GuardedCall.setProperties_columns computed status (intact.idle row member)
    have whole : db.historyOf row.id
        ++ updatedJob.history.drop pending.loaded.history.length = updatedJob.history := by
      rw [history]
      exact continued.symm
    have nextIntact : next.Intact := by
      apply intact.rewritten rewrites
      · rw [whole]
        exact inOrder
      · rw [namesStatus, namesRunAt]
        exact GuardedCall.transition_idle computed
      · rw [List.getLast?_append, namesToken]
        cases last : (updatedJob.history.drop pending.loaded.history.length).getLast? with
        | none =>
            rw [last] at names
            cases names
        | some change =>
            rw [last] at names
            exact names
    exact Or.inr ⟨updatedJob, row, next, answer, wrote, accepted, computed, selected,
      rewrites, history, drawn, names, nextIntact⟩

end PendingWrite

/-- The token a caller passes; a claim takes the one it loads. -/
def GuardedCall.callerToken : GuardedCall → Option Guid
  | tryClaimNextDueJob _ _ _ => none
  | markCompleted _ token | markFailed _ token _ | scheduleRetry _ token _ _ => some token

theorem GuardedCall.callerToken_cases (call : GuardedCall)
    : (∀ job, call.callerToken = some (call.expectedToken job))
      ∨ call.callerToken = none
        ∧ ∀ job, call.expectedToken job = job.currentStateChangeId := by
  cases call with
  | tryClaimNextDueJob => exact Or.inr ⟨rfl, fun _ => rfl⟩
  | markCompleted | markFailed | scheduleRetry => exact Or.inl (fun _ => rfl)

/-- The identifiers in the arguments of a call. -/
def StoreCall.generated : StoreCall → List Guid
  | .add job => job.history.map JobStateChange.id
  | _ => []

/-- The committed database, the calls between load and write by their numbers, none for those
that have written, and the identifiers generated so far.
-/
structure SplitStore where
  db : Database
  calls : List (Option PendingWrite)
  generated : List Guid

/-- A call loads, or the call of a number writes, or a call runs in one step. -/
inductive SplitInput
  | load (filter : QueryFilter) (ambient : Ambient) (call : GuardedCall)
  | write (number : Nat)
  | direct (filter : QueryFilter) (ambient : Ambient) (call : StoreCall)

namespace SplitStore

def start : SplitStore := ⟨.empty, [], []⟩

/-- The call of a number, if it has not written yet. -/
def pending (system : SplitStore) (number : Nat) : Option PendingWrite :=
  system.calls[number]?.join

def load (filter : QueryFilter) (ambient : Ambient) (call : GuardedCall)
    (system : SplitStore)
    : Option StoreAnswer × SplitStore :=
  match call.load filter system.db with
  | .error answer => (some answer, system)
  | .ok job =>
      (none, { system with
        calls := system.calls ++ [some ⟨filter, ambient, call, job⟩]
        generated := system.generated ++ [ambient.newGuid, ambient.newGuidAgain] })

def write (number : Nat) (system : SplitStore) : Option StoreAnswer × SplitStore :=
  match system.pending number with
  | none => (none, system)
  | some pending =>
      (some (pending.run system.db).1, { system with
        db := (pending.run system.db).2
        calls := system.calls.set number none })

def direct (filter : QueryFilter) (ambient : Ambient) (call : StoreCall)
    (system : SplitStore)
    : Option StoreAnswer × SplitStore :=
  (some ((methods filter).call ambient call system.db).1, { system with
    db := ((methods filter).call ambient call system.db).2
    generated := system.generated ++ call.generated })

def machine : Machine SplitStore SplitInput (Option StoreAnswer) where
  step system
    | .load filter ambient call => system.load filter ambient call
    | .write number => system.write number
    | .direct filter ambient call => system.direct filter ambient call

/-- Identifiers are generated anew, and tokens come from what is committed. Renewals and
acknowledgements are not restricted, and a call that loaded may write whenever it does.
-/
inductive Allowed (system : SplitStore) : SplitInput → Prop
  | load (filter : QueryFilter) {ambient : Ambient} {call : GuardedCall}
    (distinct : ambient.newGuid ≠ ambient.newGuidAgain)
    (fresh
      : ambient.newGuid ∉ system.generated ∧ ambient.newGuidAgain ∉ system.generated)
    (committed
      : ∀ token ∈ call.callerToken,
          ∃ entry ∈ system.db.jobStateChanges.rows, entry.change.id = token)
    : Allowed system (.load filter ambient call)
  | write (number : Nat) : Allowed system (.write number)
  | add (filter : QueryFilter) (ambient : Ambient) {job : JobRecord} (new : job.NewlyMade)
    (fresh : ∀ change ∈ job.history, change.id ∉ system.generated)
    : Allowed system (.direct filter ambient (.add job))
  | get (filter : QueryFilter) (ambient : Ambient) (id : Guid)
    : Allowed system (.direct filter ambient (.get id))
  | list (filter : QueryFilter) (ambient : Ambient)
    : Allowed system (.direct filter ambient .list)
  | renewLease (filter : QueryFilter) (ambient : Ambient) (id token : Guid)
    (renewedAt leaseExpiresAt : DateTimeOffset)
    : Allowed system (.direct filter ambient (.renewLease id token renewedAt leaseExpiresAt))
  | acknowledge (filter : QueryFilter) (ambient : Ambient) (id : Guid)
    (acknowledgedBy : String) (acknowledgedAt : DateTimeOffset)
    : Allowed system (.direct filter ambient (.acknowledge id acknowledgedBy acknowledgedAt))

/-- The second system is reached from the first, whatever order the steps come in. -/
def Reached (first second : SplitStore) : Prop := machine.Reaches Allowed first second

theorem pending_concat (db : Database) (calls : List (Option PendingWrite))
    (generated : List Guid) (added : PendingWrite) (number : Nat)
    : pending ⟨db, calls ++ [some added], generated⟩ number
      = if number = calls.length then
          some added
        else
          pending ⟨db, calls, generated⟩ number := by
  unfold pending
  by_cases last : number = calls.length
  · simp [last]
  · rw [if_neg last]
    by_cases older : number < calls.length
    · simp [List.getElem?_append_left older]
    · have beyond : calls[number]? = none := List.getElem?_eq_none (by omega)
      have beyondAll : (calls ++ [some added])[number]? = none := by
        apply List.getElem?_eq_none
        rw [List.length_append, List.length_singleton]
        omega
      rw [beyond, beyondAll]

theorem pending_set (db : Database) (calls : List (Option PendingWrite))
    (generated : List Guid) (written number : Nat)
    : pending ⟨db, calls.set written none, generated⟩ number
      = if number = written then none else pending ⟨db, calls, generated⟩ number := by
  unfold pending
  by_cases same : number = written
  · subst same
    rw [if_pos rfl]
    by_cases inside : number < calls.length <;> simp [inside]
  · rw [if_neg same, List.getElem?_set_ne (Ne.symm same)]

/-- What is stored and what is about to be written are generated once each. -/
structure Consistent (system : SplitStore) : Prop where
  intact : system.db.Intact
  known
    : ∀ entry ∈ system.db.jobStateChanges.rows, entry.change.id ∈ system.generated
  drawn
    : ∀ number pending,
        system.pending number = some pending
        → pending.drawn.Nodup
          ∧ pending.Unwritten system.db
          ∧ ∀ id ∈ pending.drawn, id ∈ system.generated
  tracked
    : ∀ number pending, system.pending number = some pending → pending.Tracks system.db
  apart
    : ∀ number other pending otherPending,
        system.pending number = some pending
        → system.pending other = some otherPending
        → number ≠ other
        → pending.drawn.Disjoint otherPending.drawn

/-- A call that has just loaded tracks the database it has read. -/
theorem tracks_of_load {db : Database} (intact : db.Intact) {filter : QueryFilter}
    {ambient : Ambient} {call : GuardedCall} {job : JobRecord}
    (loaded : call.load filter db = .ok job)
    (committed
      : ∀ token ∈ call.callerToken,
          ∃ entry ∈ db.jobStateChanges.rows, entry.change.id = token)
    : PendingWrite.Tracks ⟨filter, ambient, call, job⟩ db := by
  obtain ⟨stored, -, named, -⟩ := GuardedCall.load_ok loaded
  obtain ⟨history, inOrder⟩ := intact.toSound.history_of_found stored
  have there : call.jobId job = job.id := named
  refine ⟨inOrder, named, ?_, ?_⟩
  · have whole : job.history = db.historyOf (call.jobId job) := by rw [there, history]
    exact whole ▸ List.prefix_refl _
  · rcases call.callerToken_cases with passed | ⟨-, own⟩
    · obtain ⟨entry, found, same⟩ := committed _ (passed job)
      have token : PendingWrite.token ⟨filter, ambient, call, job⟩ = entry.change.id :=
        same.symm
      refine ⟨entry, found, same, ?_⟩
      intro belongs
      have owner : entry.jobId = job.id := belongs.trans there
      have listed : entry.change ∈ job.history := by
        rw [history, Database.mem_historyOf, ← owner]
        exact found
      rw [token]
      exact List.mem_map_of_mem listed
    · rw [Database.find?_ledger, Option.map_eq_some_iff] at stored
      obtain ⟨row, found, rfl⟩ := stored
      obtain ⟨last, final, lastId⟩ :=
        Option.map_eq_some_iff.mp (intact.current row (KeyedTable.find?_mem found))
      have token : PendingWrite.token ⟨filter, ambient, call, db.loadRow row⟩ = last.id :=
        (own _).trans lastId.symm
      have member := List.mem_of_getLast? final
      refine ⟨⟨row.id, last⟩, Database.mem_historyOf.mp member, token.symm, ?_⟩
      intro _
      rw [token]
      exact List.mem_map_of_mem (history ▸ member)

/-- A call that starts draws new identifiers. -/
theorem Consistent.load {system : SplitStore} (before : system.Consistent)
    {filter : QueryFilter} {ambient : Ambient} {call : GuardedCall}
    (allowed : system.Allowed (.load filter ambient call))
    : (system.load filter ambient call).2.Consistent := by
  cases allowed with
  | load _ distinct fresh committed =>
      unfold SplitStore.load
      cases loaded : call.load filter system.db with
      | error answer => exact before
      | ok job =>
          have new (id : Guid) (draws : id ∈ [ambient.newGuid, ambient.newGuidAgain])
              : id ∉ system.generated := by
            rcases List.mem_cons.mp draws with rfl | again
            · exact fresh.1
            · exact List.mem_singleton.mp again ▸ fresh.2
          refine ⟨before.intact, ?_, ?_, ?_, ?_⟩
          · intro entry stored
            exact List.mem_append_left _ (before.known entry stored)
          · intro number pending here
            rw [pending_concat] at here
            split_ifs at here with last
            · cases here
              refine ⟨by simpa [PendingWrite.drawn] using distinct, ?_, ?_⟩
              · intro entry stored draws
                exact new _ draws (before.known entry stored)
              · intro id draws
                exact List.mem_append_right _ draws
            · obtain ⟨once, unwritten, known⟩ := before.drawn number pending here
              exact ⟨once, unwritten, fun id draws => List.mem_append_left _ (known id draws)⟩
          · intro number pending here
            rw [pending_concat] at here
            split_ifs at here with last
            · cases here
              exact tracks_of_load before.intact loaded committed
            · exact before.tracked number pending here
          · have apartFrom (number : Nat) (pending : PendingWrite)
                (here : system.pending number = some pending)
                : pending.drawn.Disjoint [ambient.newGuid, ambient.newGuidAgain] :=
              fun id draws newlyDrawn =>
                new id newlyDrawn ((before.drawn number pending here).2.2 id draws)
            intro number other pending otherPending here there different
            rw [pending_concat] at here there
            split_ifs at here there with last otherLast otherLast
            · exact absurd (last.trans otherLast.symm) different
            · cases here
              exact fun id newlyDrawn draws =>
                apartFrom other otherPending there draws newlyDrawn
            · cases there
              exact apartFrom number pending here
            · exact before.apart number other pending otherPending here there different

/-- State changes that no remaining call is about to write may be added. -/
theorem Consistent.advance {system later : SplitStore} (before : system.Consistent)
    (intact : later.db.Intact) {added : List JobStateChangeRow}
    (rows : later.db.jobStateChanges.rows = system.db.jobStateChanges.rows ++ added)
    (known : ∀ id ∈ system.generated, id ∈ later.generated)
    (addedKnown : ∀ entry ∈ added, entry.change.id ∈ later.generated)
    (remains
      : ∀ number pending,
          later.pending number = some pending
          → system.pending number = some pending
            ∧ ∀ entry ∈ added, entry.change.id ∉ pending.drawn)
    : later.Consistent := by
  refine ⟨intact, ?_, ?_, ?_, ?_⟩
  · intro entry stored
    rw [rows, List.mem_append] at stored
    rcases stored with old | new
    · exact known _ (before.known entry old)
    · exact addedKnown entry new
  · intro number pending here
    obtain ⟨there, others⟩ := remains number pending here
    obtain ⟨once, unwritten, drawnKnown⟩ := before.drawn number pending there
    refine ⟨once, ?_, fun id draws => known id (drawnKnown id draws)⟩
    intro entry stored
    rw [rows, List.mem_append] at stored
    rcases stored with old | new
    · exact unwritten entry old
    · exact others entry new
  · intro number pending here
    have there := (remains number pending here).1
    apply (before.tracked number pending there).grows
    rw [rows]
    exact List.prefix_append _ _
  · intro number other pending otherPending here there
    exact before.apart number other pending otherPending (remains number pending here).1
      (remains other otherPending there).1

/-- A write adds state changes of its own call, or nothing. -/
theorem Consistent.run {system : SplitStore} (before : system.Consistent) {number : Nat}
    {pending : PendingWrite} (here : system.pending number = some pending)
    : (pending.run system.db).2.Intact
      ∧ ∃ added : List JobStateChangeRow,
          (pending.run system.db).2.jobStateChanges.rows
            = system.db.jobStateChanges.rows ++ added
          ∧ ∀ entry ∈ added, entry.change.id ∈ pending.drawn := by
  obtain ⟨once, unwritten, -⟩ := before.drawn number pending here
  rcases PendingWrite.run_cases before.intact (before.tracked number pending here) unwritten
      once with ⟨answer, wrote, -⟩ | ⟨updatedJob, row, next, answer, wrote, -, commits⟩
  · rw [wrote]
    exact ⟨before.intact, [], by simp, by simp⟩
  · rw [wrote]
    refine ⟨commits.intact, _, commits.rewrites.appended, ?_⟩
    intro entry member
    obtain ⟨change, listed, rfl⟩ := List.mem_map.mp member
    exact commits.drawn.subset (List.mem_map_of_mem listed)

/-- A write takes its call out of those that are pending. -/
theorem Consistent.write {system : SplitStore} (before : system.Consistent) (number : Nat)
    : (system.write number).2.Consistent
      ∧ system.db.jobStateChanges.rows
        <+: (system.write number).2.db.jobStateChanges.rows := by
  cases here : system.pending number with
  | none =>
      rw [SplitStore.write, here]
      exact ⟨before, List.prefix_refl _⟩
  | some pending =>
      rw [SplitStore.write, here]
      obtain ⟨intact, added, rows, drawn⟩ := before.run here
      have known := (before.drawn number pending here).2.2
      refine ⟨before.advance intact rows (fun _ generated => generated)
        (fun entry member => known _ (drawn entry member)) ?_, ?_⟩
      · intro other otherPending there
        rw [pending_set] at there
        split_ifs at there with same
        refine ⟨there, fun entry member draws => ?_⟩
        exact before.apart number other pending otherPending here there (Ne.symm same)
          (drawn entry member) draws
      · exact ⟨added, rows.symm⟩

/-- A call in one step adds the state changes of an added job, or none. -/
theorem direct_db {system : SplitStore} (intact : system.db.Intact) {filter : QueryFilter}
    {ambient : Ambient} {call : StoreCall}
    (allowed : system.Allowed (.direct filter ambient call))
    : ((methods filter).call ambient call system.db).2.Intact
      ∧ ∃ added : List JobStateChangeRow,
          ((methods filter).call ambient call system.db).2.jobStateChanges.rows
            = system.db.jobStateChanges.rows ++ added
          ∧ ∀ entry ∈ added,
              entry.change.id ∈ call.generated ∧ entry.change.id ∉ system.generated := by
  cases allowed with
  | @add _ _ job new fresh =>
      rcases @add_cases system.db filter ambient job with ⟨_, refused⟩ | ⟨next, added, inserted⟩
      · rw [refused]
        exact ⟨intact, [], by simp⟩
      · obtain ⟨nextIntact, rows⟩ := intact.added new inserted
        rw [added]
        refine ⟨nextIntact, _, rows, ?_⟩
        intro entry member
        obtain ⟨change, listed, rfl⟩ := List.mem_map.mp member
        exact ⟨List.mem_map_of_mem listed, fresh change listed⟩
  | get => exact ⟨intact, [], by simp [IJobStore.call, methods, SqliteJobStore.get]⟩
  | list => exact ⟨intact, [], by simp [IJobStore.call, methods, SqliteJobStore.list]⟩
  | renewLease _ _ id token renewedAt leaseExpiresAt =>
      rcases @renewLease_cases system.db filter ambient id token renewedAt leaseExpiresAt with
        refused | ⟨row, next, -, -, -, renewed, rewrites⟩
      · rw [refused]
        exact ⟨intact, [], by simp⟩
      · rw [renewed]
        exact ⟨intact.updated rewrites ⟨rfl, rfl, rfl⟩, [], by simp [rewrites.appended]⟩
  | acknowledge _ _ id acknowledgedBy acknowledgedAt =>
      rcases @acknowledge_cases system.db filter ambient id acknowledgedBy acknowledgedAt with
        refused | ⟨row, next, -, -, acknowledged, rewrites⟩
      · rw [refused]
        exact ⟨intact, [], by simp⟩
      · rw [acknowledged]
        exact ⟨intact.updated rewrites ⟨rfl, rfl, rfl⟩, [], by simp [rewrites.appended]⟩

theorem Consistent.direct {system : SplitStore} (before : system.Consistent)
    {filter : QueryFilter} {ambient : Ambient} {call : StoreCall}
    (allowed : system.Allowed (.direct filter ambient call))
    : (system.direct filter ambient call).2.Consistent
      ∧ system.db.jobStateChanges.rows
        <+: (system.direct filter ambient call).2.db.jobStateChanges.rows := by
  obtain ⟨intact, added, rows, fresh⟩ := direct_db before.intact allowed
  refine ⟨before.advance intact rows (fun _ generated => List.mem_append_left _ generated)
    (fun entry member => List.mem_append_right _ (fresh entry member).1) ?_, ⟨added, rows.symm⟩⟩
  intro number pending here
  refine ⟨here, fun entry member draws => ?_⟩
  exact (fresh entry member).2 ((before.drawn number pending here).2.2 _ draws)

/-- Every step keeps the system consistent and every stored state change. -/
theorem Consistent.step {system : SplitStore} (before : system.Consistent)
    {input : SplitInput} (allowed : system.Allowed input)
    : (machine.step system input).2.Consistent
      ∧ system.db.jobStateChanges.rows
        <+: (machine.step system input).2.db.jobStateChanges.rows := by
  cases input with
  | load filter ambient call =>
      refine ⟨before.load allowed, ?_⟩
      change _ <+: (system.load filter ambient call).2.db.jobStateChanges.rows
      unfold SplitStore.load
      cases call.load filter system.db <;> exact List.prefix_refl _
  | write number => exact before.write number
  | direct filter ambient call => exact before.direct allowed

theorem start_consistent : start.Consistent where
  intact := Database.empty_intact
  known _ stored := absurd stored List.not_mem_nil
  drawn _ _ here := by cases here
  tracked _ _ here := by cases here
  apart _ _ _ _ here := by cases here

/-- What is reached is consistent, and has kept every state change stored before. -/
theorem Consistent.reached {system later : SplitStore} (before : system.Consistent)
    (reached : Reached system later)
    : later.Consistent
      ∧ system.db.jobStateChanges.rows <+: later.db.jobStateChanges.rows := by
  induction reached with
  | refl => exact ⟨before, List.prefix_refl _⟩
  | step _ allowed ih =>
      obtain ⟨consistent, grown⟩ := ih.1.step allowed
      exact ⟨consistent, ih.2.trans grown⟩

end SplitStore

-----------------------------------------------------------------------------------------
-- Tokens that were replaced
-----------------------------------------------------------------------------------------

/-- The state change is in the job's history and is not the last one. -/
def Database.Replaced (db : Database) (jobId token : Guid) : Prop :=
  ∃ earlier later,
    (db.historyOf jobId).map JobStateChange.id = earlier ++ token :: later ∧ later ≠ []

theorem Database.Replaced.grows {db next : Database} {jobId token : Guid}
    (replaced : db.Replaced jobId token)
    (grows : db.jobStateChanges.rows <+: next.jobStateChanges.rows)
    : next.Replaced jobId token := by
  obtain ⟨earlier, later, history, nonempty⟩ := replaced
  obtain ⟨rest, whole⟩ := (Database.historyOf_prefix grows jobId).map JobStateChange.id
  refine ⟨earlier, later ++ rest, ?_, by simp [nonempty]⟩
  rw [← whole, history, List.append_assoc, List.cons_append]

/-- No row has a replaced state change as its current one, since ids do not repeat. -/
theorem Database.Replaced.not_current {db : Database} {jobId token : Guid}
    (replaced : db.Replaced jobId token) (intact : db.Intact) {row : JobRow}
    (member : row ∈ db.jobs.rows) (key : row.id = jobId)
    : row.currentStateChangeId ≠ token := by
  intro same
  obtain ⟨earlier, later, history, nonempty⟩ := replaced
  have last := intact.current row member
  have distinct := db.historyOf_distinct row.id
  rw [← List.getLast?_map, key, history, same, List.getLast?_append,
    List.getLast?_cons_of_ne_nil nonempty] at last
  rw [key, history] at distinct
  have again : token ∈ later := by
    cases final : later.getLast? with
    | none => exact absurd (List.getLast?_eq_none_iff.mp final) nonempty
    | some id =>
        rw [final] at last
        cases last
        exact List.mem_of_getLast? final
  exact (List.nodup_cons.mp (List.nodup_append.mp distinct).2.1).1 again

/-- A commit replaces the token it was guarded by. -/
theorem PendingWrite.Commits.replaced {pending : PendingWrite} {db next : Database}
    {updatedJob : JobRecord} {row : JobRow} (intact : db.Intact)
    (commits : pending.Commits db next updatedJob row)
    : next.Replaced pending.jobId pending.token := by
  obtain ⟨key, -, token⟩ := commits.current
  have member := KeyedTable.find?_mem commits.rewrites.stored
  have last := intact.current row member
  rw [token, ← List.getLast?_map, List.getLast?_eq_some_iff] at last
  obtain ⟨earlier, history⟩ := last
  refine ⟨earlier,
    (updatedJob.history.drop pending.loaded.history.length).map JobStateChange.id, ?_, ?_⟩
  · rw [← key, commits.rewrites.historyOf_self, List.map_append, history, List.append_assoc,
      List.singleton_append]
  · intro nothing
    have names := commits.names
    rw [List.map_eq_nil_iff.mp nothing] at names
    cases names

-----------------------------------------------------------------------------------------
-- Histories under concurrent calls
-----------------------------------------------------------------------------------------

/-- What the guards of the writes keep, seen from one system that calls have reached. -/
structure SplitStore.KeepsHistory (system : SplitStore) : Prop where
  sequences
    : ∀ row ∈ system.db.jobs.rows,
        (system.db.historyOf row.id).map JobStateChange.sequence
        = List.range' 1 (system.db.historyOf row.id).length
  current
    : ∀ row ∈ system.db.jobs.rows,
        (system.db.historyOf row.id).getLast?.map JobStateChange.id
        = some row.currentStateChangeId
  once : (system.db.jobStateChanges.rows.map JobStateChangeRow.id).Nodup
  kept
    : ∀ later,
        SplitStore.Reached system later
        → system.db.jobStateChanges.rows <+: later.db.jobStateChanges.rows
  /-- A write that is accepted adds all entries its transition made, after the history it was
  computed from. -/
  appended
    : ∀ number pending,
        system.pending number = some pending
        → (pending.run system.db).1.accepted = true
        → ∃ updatedJob,
            pending.call.transition pending.ambient pending.loaded = .ok updatedJob
            ∧ system.db.historyOf pending.jobId = pending.loaded.history
            ∧ (pending.run system.db).2.historyOf pending.jobId = updatedJob.history
  refused
    : ∀ number pending,
        system.pending number = some pending
        → (pending.run system.db).1.accepted = false
        → (pending.run system.db).2 = system.db
  /-- A write whose guard selects a row is accepted: no identifier is in its way. -/
  unhindered
    : ∀ number pending updatedJob,
        system.pending number = some pending
        → pending.call.transition pending.ambient pending.loaded = .ok updatedJob
        → (∃ row ∈ system.db.jobs.rows,
            pending.call.Selects pending.filter pending.loaded row)
        → (pending.run system.db).1.accepted = true
  /-- Once a write is accepted, no later one is for the same value of the same job's
  `CurrentStateChangeId`. -/
  oneWrite
    : ∀ number pending later other otherPending,
        system.pending number = some pending
        → (pending.run system.db).1.accepted = true
        → SplitStore.Reached (system.write number).2 later
        → later.pending other = some otherPending
        → otherPending.jobId = pending.jobId
        → otherPending.token = pending.token
        → (otherPending.run later.db).1.accepted = false

namespace SplitStore

variable {system : SplitStore} {number : Nat} {pending : PendingWrite}

/-- A pending call of a consistent system writes as `run_cases` says. -/
theorem Consistent.run_cases (consistent : system.Consistent)
    (here : system.pending number = some pending)
    : (∃ answer,
          pending.run system.db = (answer, system.db)
          ∧ answer.accepted = false
          ∧ ∀ updatedJob,
              pending.call.transition pending.ambient pending.loaded = .ok updatedJob
              → ∀ row ∈ system.db.jobs.rows,
                  ¬ pending.call.Selects pending.filter pending.loaded row)
      ∨ ∃ updatedJob row next answer,
          pending.run system.db = (answer, next)
          ∧ answer.accepted = true
          ∧ pending.Commits system.db next updatedJob row := by
  obtain ⟨once, unwritten, -⟩ := consistent.drawn number pending here
  exact PendingWrite.run_cases consistent.intact (consistent.tracked number pending here)
    unwritten once

/-- An accepted write commits. -/
theorem Consistent.commits (consistent : system.Consistent)
    (here : system.pending number = some pending)
    (accepted : (pending.run system.db).1.accepted = true)
    : ∃ updatedJob row,
        pending.Commits system.db (pending.run system.db).2 updatedJob row := by
  rcases consistent.run_cases here with ⟨answer, wrote, refused, -⟩
    | ⟨updatedJob, row, next, answer, wrote, -, commits⟩
  · rw [wrote, refused] at accepted
    cases accepted
  · rw [wrote]
    exact ⟨updatedJob, row, commits⟩

end SplitStore

/-- Whatever order the loads and writes of concurrent calls come in, the guards keep every
job's history intact.
-/
theorem split_writes_keep_history (system : SplitStore)
    (reached : SplitStore.Reached .start system)
    : system.KeepsHistory := by
  have consistent := (SplitStore.start_consistent.reached reached).1
  refine ⟨?_, consistent.intact.current, system.db.jobStateChanges.distinct, ?_, ?_, ?_, ?_, ?_⟩
  · intro row member
    have inOrder := consistent.intact.inOrder row member
    have counted := sequences_numbered (system.db.historyOf row.id)
    rwa [inOrder] at counted
  · intro later since
    exact (consistent.reached since).2
  · intro number pending here accepted
    obtain ⟨updatedJob, row, commits⟩ := consistent.commits here accepted
    obtain ⟨key, -, -⟩ := commits.current
    have continued := (GuardedCall.transition_entries (consistent.tracked _ _ here).inOrder
      commits.computed).1
    refine ⟨updatedJob, commits.computed, key ▸ commits.history, ?_⟩
    rw [← key, commits.rewrites.historyOf_self, commits.history]
    exact continued.symm
  · intro number pending here refused
    rcases consistent.run_cases here with ⟨answer, wrote, -⟩
      | ⟨_, _, next, answer, wrote, accepted, -⟩
    · rw [wrote]
    · rw [wrote, accepted] at refused
      cases refused
  · intro number pending updatedJob here computed selected
    obtain ⟨row, member, selects⟩ := selected
    rcases consistent.run_cases here with ⟨answer, -, -, unselected⟩
      | ⟨_, _, next, answer, wrote, accepted, -⟩
    · exact absurd selects (unselected updatedJob computed row member)
    · rw [wrote]
      exact accepted
  · intro number pending later other otherPending here accepted since there sameJob sameToken
    obtain ⟨updatedJob, row, commits⟩ := consistent.commits here accepted
    have after : (system.write number).2.db = (pending.run system.db).2 := by
      rw [SplitStore.write, here]
    obtain ⟨laterConsistent, grown⟩ := (consistent.write number).1.reached since
    have replaced := (commits.replaced consistent.intact).grows (after ▸ grown)
    rcases laterConsistent.run_cases there with ⟨answer, wrote, refused, -⟩
      | ⟨_, otherRow, _, answer, -, -, otherCommits⟩
    · rw [wrote]
      exact refused
    · obtain ⟨key, -, token⟩ := otherCommits.current
      have member := KeyedTable.find?_mem otherCommits.rewrites.stored
      exact absurd (token.trans sameToken)
        (replaced.not_current laterConsistent.intact member (key.trans sameJob))

/-- Two workers load the small job before either of them claims it. -/
def racingClaims : List SplitInput :=
  [.direct .everyRow (smallAmbient 0) (.add smallJob),
    .load .everyRow (smallAmbient 1)
      (.tryClaimNextDueJob (.ofTicks 1) "worker-1" (.ofTicks 5)),
    .load .everyRow (smallAmbient 2)
      (.tryClaimNextDueJob (.ofTicks 2) "worker-2" (.ofTicks 7)),
    .write 0,
    .write 1]

/-- The first worker gets the job and the second one nothing, and the history is intact. -/
theorem split_writes_keep_history_racing
    : (SplitStore.machine.run .start racingClaims).1
        = [some .done, none, none, some (.job (some firstSnapshot)), some (.job none)]
      ∧ (SplitStore.machine.run .start racingClaims).2.KeepsHistory := by
  refine ⟨by decide +kernel, split_writes_keep_history _ (Machine.reaches_run ?_)⟩
  refine ⟨.add _ _ smallJob_newlyMade (by decide), ?_, ?_, .write 0, .write 1, trivial⟩
  · exact .load _ (by decide) (by decide) nofun
  · exact .load _ (by decide) (by decide +kernel) nofun

end JobScheduler
