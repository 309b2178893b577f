import Mathlib.Algebra.GroupWithZero.Nat
import Mathlib.Data.List.Nodup

/-! Tables whose rows are identified by a key, kept in insertion order.
The invariant that no two rows share a key is a field, so every operation below restores it.
-/

namespace JobScheduler.Library

/-- Rows in insertion order, no two of them with the same key. -/
@[ext]
structure KeyedTable {κ ρ : Type*} (key : ρ → κ) where
  rows : List ρ
  distinct : (rows.map key).Nodup

namespace KeyedTable

variable {κ ρ : Type*} {key : ρ → κ}

/-- The table without rows. -/
def empty : KeyedTable key := ⟨[], List.nodup_nil⟩

@[simp] theorem empty_rows : (empty : KeyedTable key).rows = [] := rfl

/-- Rewriting rows in place without touching their keys. `change` is applied to the rows
that satisfy `selected`.
-/
def updateWhere (table : KeyedTable key) (selected : ρ → Bool) (change : ρ → ρ)
    (keepsKey : ∀ row, key (change row) = key row) : KeyedTable key where
  rows := table.rows.map (fun row => if selected row then change row else row)
  distinct := by
    have same : key ∘ (fun row => if selected row then change row else row) = key := by
      funext row
      by_cases picked : selected row <;> simp [picked, keepsKey]
    simpa only [List.map_map, same] using table.distinct

/-- Rewriting where nothing is selected changes nothing. -/
theorem updateWhere_of_none {table : KeyedTable key} {selected : ρ → Bool}
    {change : ρ → ρ} {keepsKey : ∀ row, key (change row) = key row}
    (none : ∀ row ∈ table.rows, selected row = false)
    : table.updateWhere selected change keepsKey = table := by
  refine KeyedTable.ext ?_
  have same : ∀ row ∈ table.rows, (if selected row then change row else row) = row := by
    intro row member
    simp [none row member]
  exact (List.map_congr_left same).trans (List.map_id' _)

variable [DecidableEq κ]

/-- The row stored under a key. -/
def find? (table : KeyedTable key) (k : κ) : Option ρ :=
  table.rows.find? (fun row => key row = k)

/-- A new row under an unused key; a used key is refused. -/
def insert? (table : KeyedTable key) (row : ρ) : Option (KeyedTable key) :=
  if fresh : key row ∉ table.rows.map key then
    some ⟨table.rows ++ [row], by
      simpa [List.nodup_append, table.distinct] using fresh⟩
  else
    none

/-- Rows inserted one after the other, all of them or none. -/
def insertAll? (table : KeyedTable key) (rows : List ρ) : Option (KeyedTable key) :=
  rows.foldlM insert? table

/-- The row replaces the one under its key, or goes to the end if there is none. -/
def set (table : KeyedTable key) (row : ρ) : KeyedTable key :=
  if fresh : key row ∉ table.rows.map key then
    ⟨table.rows ++ [row], by simpa [List.nodup_append, table.distinct] using fresh⟩
  else
    ⟨table.rows.map (fun other => if key other = key row then row else other), by
      have same : key ∘ (fun other => if key other = key row then row else other) = key := by
        funext other
        by_cases equal : key other = key row <;> simp [equal]
      simpa only [List.map_map, same] using table.distinct⟩

/-- A lookup finds exactly the member with that key, by uniqueness of keys. -/
theorem find?_eq_some {table : KeyedTable key} {k : κ} {row : ρ}
    : table.find? k = some row ↔ row ∈ table.rows ∧ key row = k := by
  constructor
  · intro found
    exact ⟨List.mem_of_find?_eq_some found, by simpa using List.find?_some found⟩
  · rintro ⟨member, rfl⟩
    cases found : table.find? (key row) with
    | none =>
        have absent := List.find?_eq_none.mp found row member
        simp at absent
    | some other =>
        have otherKey : key other = key row := by simpa using List.find?_some found
        have same := List.inj_on_of_nodup_map table.distinct
          (List.mem_of_find?_eq_some found) member otherKey
        rw [same]

/-- A lookup fails exactly when no row has that key. -/
theorem find?_eq_none {table : KeyedTable key} {k : κ}
    : table.find? k = none ↔ ∀ row ∈ table.rows, key row ≠ k := by
  simp [find?, List.find?_eq_none]

theorem find?_key {table : KeyedTable key} {k : κ} {row : ρ}
    (found : table.find? k = some row)
    : key row = k :=
  (find?_eq_some.mp found).2

theorem find?_mem {table : KeyedTable key} {k : κ} {row : ρ}
    (found : table.find? k = some row)
    : row ∈ table.rows :=
  (find?_eq_some.mp found).1

theorem find?_of_mem {table : KeyedTable key} {row : ρ} (member : row ∈ table.rows)
    : table.find? (key row) = some row :=
  find?_eq_some.mpr ⟨member, rfl⟩

@[simp] theorem find?_empty (k : κ) : (empty : KeyedTable key).find? k = none := rfl

-----------------------------------------------------------------------------------------
-- Writing one row
-----------------------------------------------------------------------------------------

theorem set_rows_of_absent {table : KeyedTable key} {row : ρ}
    (absent : table.find? (key row) = none)
    : (table.set row).rows = table.rows ++ [row] := by
  have fresh : key row ∉ table.rows.map key := by
    simpa using find?_eq_none.mp absent
  simp only [set, fresh, not_false_eq_true, dite_true]

theorem set_rows_of_present {table : KeyedTable key} {row old : ρ}
    (present : table.find? (key row) = some old)
    : (table.set row).rows
      = table.rows.map (fun other => if key other = key row then row else other) := by
  have known : ¬ key row ∉ table.rows.map key := by
    rw [not_not]
    exact List.mem_map.mpr ⟨old, find?_mem present, find?_key present⟩
  simp only [set, known, dite_false]

/-- After a write the table holds the new row and the rows under other keys. -/
theorem mem_set {table : KeyedTable key} {row other : ρ}
    : other ∈ (table.set row).rows
      ↔ other = row ∨ (other ∈ table.rows ∧ key other ≠ key row) := by
  cases found : table.find? (key row) with
  | none =>
      rw [set_rows_of_absent found, List.mem_append, List.mem_singleton]
      have absent := find?_eq_none.mp found
      constructor
      · rintro (member | rfl)
        · exact Or.inr ⟨member, absent other member⟩
        · exact Or.inl rfl
      · rintro (rfl | ⟨member, _⟩)
        · exact Or.inr rfl
        · exact Or.inl member
  | some old =>
      rw [set_rows_of_present found, List.mem_map]
      constructor
      · rintro ⟨before, member, rfl⟩
        by_cases equal : key before = key row
        · simp [equal]
        · simp [equal, member]
      · rintro (rfl | ⟨member, different⟩)
        · exact ⟨old, find?_mem found, by simp [find?_key found]⟩
        · exact ⟨other, member, by simp [different]⟩

/-- A write is read back under its key and leaves the other keys alone. -/
theorem find?_set (table : KeyedTable key) (row : ρ) (k : κ)
    : (table.set row).find? k = if key row = k then some row else table.find? k := by
  by_cases equal : key row = k
  · subst equal
    rw [if_pos rfl]
    exact find?_eq_some.mpr ⟨mem_set.mpr (Or.inl rfl), rfl⟩
  · rw [if_neg equal]
    cases found : table.find? k with
    | none =>
        refine find?_eq_none.mpr ?_
        intro other member
        rcases mem_set.mp member with rfl | ⟨old, _⟩
        · exact equal
        · exact find?_eq_none.mp found other old
    | some old =>
        obtain ⟨member, rfl⟩ := find?_eq_some.mp found
        exact find?_of_mem (mem_set.mpr (Or.inr ⟨member, fun same => equal same.symm⟩))

@[simp] theorem find?_set_self (table : KeyedTable key) (row : ρ)
    : (table.set row).find? (key row) = some row := by
  simp [find?_set]

theorem find?_set_ne {table : KeyedTable key} {row : ρ} {k : κ} (different : key row ≠ k)
    : (table.set row).find? k = table.find? k := by
  simp [find?_set, different]

-----------------------------------------------------------------------------------------
-- Rewriting selected rows
-----------------------------------------------------------------------------------------

/-- One row is counted when one is selected, since its key occurs once. -/
theorem countP_of_one {table : KeyedTable key} {selected : ρ → Bool} {row : ρ}
    (member : row ∈ table.rows) (picked : selected row = true)
    (only : ∀ other, selected other = true → key other = key row)
    : table.rows.countP selected = 1 := by
  have byKey : table.rows.countP selected
      = table.rows.countP (fun other => key other == key row) := by
    refine List.countP_congr ?_
    intro other there
    refine ⟨fun chosen => beq_iff_eq.mpr (only other chosen), ?_⟩
    intro same
    rw [List.inj_on_of_nodup_map table.distinct there member (beq_iff_eq.mp same)]
    exact picked
  have once := List.count_eq_one_of_mem table.distinct (List.mem_map_of_mem member)
  rw [List.count, List.countP_map] at once
  exact byKey.trans once

/-- Rewriting where one row is selected writes that row, by uniqueness of keys. -/
theorem updateWhere_eq_set {table : KeyedTable key} {selected : ρ → Bool}
    {change : ρ → ρ} {keepsKey : ∀ row, key (change row) = key row} {row : ρ}
    (member : row ∈ table.rows) (picked : selected row = true)
    (only : ∀ other, selected other = true → key other = key row)
    : table.updateWhere selected change keepsKey = table.set (change row) := by
  have present : table.find? (key (change row)) = some row := by
    rw [keepsKey]
    exact find?_of_mem member
  refine KeyedTable.ext ?_
  rw [set_rows_of_present present]
  refine List.map_congr_left ?_
  intro other there
  by_cases same : key other = key row
  · have equal : other = row := List.inj_on_of_nodup_map table.distinct there member same
    simp [equal, picked, keepsKey]
  · have skipped : selected other = false :=
      Bool.eq_false_iff.mpr (fun chosen => same (only other chosen))
    simp [skipped, keepsKey, same]

-----------------------------------------------------------------------------------------
-- Views of a table
-----------------------------------------------------------------------------------------

/-- The rows seen through a function that shows their keys unchanged. -/
def mapRows {σ : Type*} {shownKey : σ → κ} (table : KeyedTable key) (view : ρ → σ)
    (showsKey : ∀ row, shownKey (view row) = key row)
    : KeyedTable shownKey where
  rows := table.rows.map view
  distinct := by
    have same : shownKey ∘ view = key := funext showsKey
    simpa only [List.map_map, same] using table.distinct

section Views

variable {σ : Type*} {shownKey : σ → κ} {view later : ρ → σ}
  {showsKey : ∀ row, shownKey (view row) = key row}
  {showsLater : ∀ row, shownKey (later row) = key row}

theorem find?_mapRows (table : KeyedTable key) (k : κ)
    : (table.mapRows view showsKey).find? k = (table.find? k).map view := by
  simp only [find?, mapRows, List.find?_map]
  congr 2
  funext row
  simp [showsKey]

/-- A write shows as a write, if the view changes under the written key alone. -/
theorem mapRows_set {table : KeyedTable key} {row : ρ}
    (elsewhere : ∀ other, key other ≠ key row → later other = view other)
    : (table.set row).mapRows later showsLater
      = (table.mapRows view showsKey).set (later row) := by
  refine KeyedTable.ext ?_
  have shown := @find?_mapRows _ _ key _ _ shownKey view showsKey table (shownKey (later row))
  rw [showsLater] at shown
  cases found : table.find? (key row) with
  | none =>
      have absent : (table.mapRows view showsKey).find? (shownKey (later row)) = none := by
        rw [showsLater, shown, found]
        rfl
      have kept : ∀ other ∈ table.rows, later other = view other :=
        fun other member => elsewhere other (find?_eq_none.mp found other member)
      rw [set_rows_of_absent absent]
      simp only [mapRows, set_rows_of_absent found, List.map_append, List.map_cons,
        List.map_nil, List.map_congr_left kept]
  | some old =>
      have present : (table.mapRows view showsKey).find? (shownKey (later row))
          = some (view old) := by
        rw [showsLater, shown, found]
        rfl
      rw [set_rows_of_present present]
      simp only [mapRows, set_rows_of_present found, List.map_map]
      refine List.map_congr_left ?_
      intro other member
      by_cases same : key other = key row
      · simp [same, showsKey, showsLater]
      · simp [same, showsKey, showsLater, elsewhere other same]

end Views

/-- A view that shows all rows but one as they are writes that row. -/
theorem mapRows_eq_set {table : KeyedTable key} {view : ρ → ρ}
    {showsKey : ∀ row, key (view row) = key row} {k : κ} {row : ρ}
    (present : table.find? k = some row)
    (elsewhere : ∀ other, key other ≠ k → view other = other)
    : table.mapRows view showsKey = table.set (view row) := by
  obtain ⟨member, rfl⟩ := find?_eq_some.mp present
  have here : table.find? (key (view row)) = some row := (showsKey row).symm ▸ present
  refine KeyedTable.ext ?_
  rw [set_rows_of_present here]
  refine List.map_congr_left ?_
  intro other there
  rw [showsKey]
  by_cases same : key other = key row
  · rw [if_pos same, List.inj_on_of_nodup_map table.distinct there member same]
  · rw [if_neg same, elsewhere other same]

/-- Looking up among the rows that pass a test, by uniqueness of keys. -/
theorem find?_filter_rows (table : KeyedTable key) (test : ρ → Bool) (k : κ)
    : (table.rows.filter test).find? (fun row => key row = k)
      = (table.find? k).filter test := by
  cases found : table.find? k with
  | none =>
      have absent := find?_eq_none.mp found
      rw [Option.filter_none, List.find?_eq_none]
      intro row member
      simpa using absent row (List.mem_of_mem_filter member)
  | some row =>
      obtain ⟨member, rfl⟩ := find?_eq_some.mp found
      have unique (other : ρ) (there : other ∈ table.rows) (same : key other = key row)
          : other = row :=
        List.inj_on_of_nodup_map table.distinct there member same
      by_cases passes : test row
      · simp only [Option.filter_some, passes, if_true]
        cases picked : (table.rows.filter test).find? (fun other => key other = key row) with
        | none =>
            have none := List.find?_eq_none.mp picked row
              (List.mem_filter.mpr ⟨member, passes⟩)
            simp at none
        | some other =>
            have there := List.mem_of_mem_filter (List.mem_of_find?_eq_some picked)
            rw [unique other there (by simpa using List.find?_some picked)]
      · simp only [Option.filter_some, passes, Bool.false_eq_true, if_false]
        rw [List.find?_eq_none]
        intro other there
        obtain ⟨inside, tested⟩ := List.mem_filter.mp there
        intro same
        rw [unique other inside (by simpa using same)] at tested
        exact passes tested

/-- Writing a row that fails a test over one that passes it takes this one row from those
that pass, by uniqueness of keys.
-/
theorem filter_set_perm {table : KeyedTable key} {test : ρ → Bool} {row changed : ρ}
    (member : row ∈ table.rows) (sameKey : key changed = key row) (passes : test row = true)
    (fails : test changed = false)
    : (row :: (table.set changed).rows.filter test).Perm (table.rows.filter test) := by
  have gone : row ∉ (table.set changed).rows := by
    intro there
    rcases mem_set.mp there with same | ⟨-, different⟩
    · rw [← same, passes] at fails
      cases fails
    · exact different sameKey.symm
  refine (List.perm_ext_iff_of_nodup ?_ ?_).mpr ?_
  · refine List.nodup_cons.mpr ⟨fun there => gone (List.mem_of_mem_filter there), ?_⟩
    exact (List.Nodup.of_map _ (table.set changed).distinct).filter _
  · exact (List.Nodup.of_map _ table.distinct).filter _
  · intro other
    rw [List.mem_cons, List.mem_filter, List.mem_filter, mem_set]
    constructor
    · rintro (rfl | ⟨rfl | ⟨there, -⟩, otherPasses⟩)
      · exact ⟨member, passes⟩
      · cases fails.symm.trans otherPasses
      · exact ⟨there, otherPasses⟩
    · rintro ⟨there, otherPasses⟩
      by_cases same : key other = key row
      · exact Or.inl (List.inj_on_of_nodup_map table.distinct there member same)
      · exact Or.inr ⟨Or.inr ⟨there, sameKey ▸ same⟩, otherPasses⟩

/-- Writing one row changes a sum over the table by what that row contributes, by splitting
the rows at the one under its key.
-/
theorem sum_set {table : KeyedTable key} {row changed : ρ} (weight : ρ → Nat)
    (stored : table.find? (key changed) = some row)
    : ((table.set changed).rows.map weight).sum + weight row
      = (table.rows.map weight).sum + weight changed := by
  have sameKey := find?_key stored
  obtain ⟨before, after, split⟩ := List.append_of_mem (find?_mem stored)
  have distinct := table.distinct
  rw [split, List.map_append, List.map_cons, List.nodup_append, List.nodup_cons] at distinct
  obtain ⟨-, ⟨notAfter, -⟩, apart⟩ := distinct
  have kept (rows : List ρ) (other : ∀ row ∈ rows, key row ≠ key changed)
      : rows.map (fun old => if key old = key changed then changed else old) = rows := by
    refine (List.map_congr_left ?_).trans (List.map_id rows)
    intro old member
    rw [if_neg (other old member)]
    rfl
  have keptBefore := kept before (fun old member same =>
    apart (key old) (List.mem_map_of_mem member) (key row) List.mem_cons_self
      (same.trans sameKey.symm))
  have keptAfter := kept after (fun old member same =>
    notAfter (sameKey ▸ same ▸ List.mem_map_of_mem member))
  rw [set_rows_of_present stored, split]
  simp only [List.map_append, List.map_cons, if_pos sameKey, keptBefore, keptAfter,
    List.sum_append, List.sum_cons]
  omega

-----------------------------------------------------------------------------------------
-- Inserting rows
-----------------------------------------------------------------------------------------

theorem insert?_eq_some {table next : KeyedTable key} {row : ρ}
    : table.insert? row = some next
      ↔ key row ∉ table.rows.map key ∧ next.rows = table.rows ++ [row] := by
  by_cases fresh : key row ∉ table.rows.map key
  · simp only [insert?, fresh, not_false_eq_true, dite_true, Option.some.injEq, true_and]
    constructor
    · rintro rfl
      rfl
    · intro equal
      exact KeyedTable.ext equal.symm
  · simp only [insert?, fresh, dite_false, false_and, reduceCtorEq]

/-- Inserting several rows appends them all, by induction on the rows. -/
theorem insertAll?_rows {table next : KeyedTable key} {rows : List ρ}
    (inserted : table.insertAll? rows = some next)
    : next.rows = table.rows ++ rows := by
  induction rows generalizing table with
  | nil =>
      have same : table = next := Option.some.inj inserted
      simp [same]
  | cons row rest ih =>
      simp only [insertAll?, List.foldlM_cons, Option.bind_eq_bind,
        Option.bind_eq_some_iff] at inserted
      obtain ⟨middle, first, later⟩ := inserted
      rw [ih later, (insert?_eq_some.mp first).2]
      simp

/-- Rows with fresh and different keys are always accepted, by induction on the rows. -/
theorem insertAll?_of_fresh {table : KeyedTable key} {rows : List ρ}
    (distinct : (rows.map key).Nodup)
    (fresh : ∀ row ∈ rows, key row ∉ table.rows.map key)
    : ∃ next, table.insertAll? rows = some next := by
  induction rows generalizing table with
  | nil => exact ⟨table, rfl⟩
  | cons row rest ih =>
      obtain ⟨notLater, restDistinct⟩ := List.nodup_cons.mp distinct
      obtain ⟨middle, first⟩ : ∃ middle, table.insert? row = some middle :=
        ⟨_, by simp only [insert?, fresh row (by simp), not_false_eq_true, dite_true]; rfl⟩
      have middleRows := (insert?_eq_some.mp first).2
      obtain ⟨next, later⟩ := @ih middle restDistinct (by
        intro other member
        rw [middleRows, List.map_append, List.mem_append, not_or]
        refine ⟨fresh other (by simp [member]), ?_⟩
        intro same
        have equal : key other = key row := by simpa using same
        exact notLater (List.mem_map.mpr ⟨other, member, equal⟩))
      refine ⟨next, ?_⟩
      simp only [insertAll?, List.foldlM_cons, first, Option.bind_eq_bind, Option.bind_some]
      exact later

/-- A row under an unused key goes to the end whether it is inserted or set. -/
theorem insert?_of_absent {table : KeyedTable key} {row : ρ}
    (absent : table.find? (key row) = none)
    : table.insert? row = some (table.set row) := by
  refine insert?_eq_some.mpr ⟨?_, set_rows_of_absent absent⟩
  simpa using find?_eq_none.mp absent

end KeyedTable

end JobScheduler.Library
