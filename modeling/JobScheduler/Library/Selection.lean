import Mathlib.Data.List.Sort
import Mathlib.Data.List.MinMax

/-! Stable ordering of a list by a key, and picking its first least element.
Picking is Mathlib's `List.argmin`; only how it goes through a map is added here.
-/

namespace JobScheduler.Library

variable {α κ : Type*} [LinearOrder κ]

/-- The elements in increasing order of their keys; equal keys keep their order. -/
def orderBy (key : α → κ) (elements : List α) : List α :=
  elements.insertionSort (fun a b => key a ≤ key b)

/-- Ordering only rearranges, by Mathlib's permutation lemma for insertion sort. -/
theorem orderBy_perm (key : α → κ) (elements : List α)
    : (orderBy key elements).Perm elements :=
  List.perm_insertionSort _ elements

/-- The result is in order, since the key comparison is total and transitive. -/
theorem orderBy_pairwise (key : α → κ) (elements : List α)
    : (orderBy key elements).Pairwise (fun a b => key a ≤ key b) := by
  have total : Std.Total (fun a b : α => key a ≤ key b) := ⟨fun a b => le_total _ _⟩
  have transitive : IsTrans α (fun a b => key a ≤ key b) := ⟨fun _ _ _ => le_trans⟩
  exact List.pairwise_insertionSort _ elements

/-- Elements of different keys are ordered in one way only, however they are given. -/
theorem orderBy_of_perm {key : α → κ} {elements ordered : List α}
    (rearranged : elements.Perm ordered)
    (increasing : ordered.Pairwise (fun a b => key a < key b))
    : orderBy key elements = ordered := by
  have distinct : (ordered.map key).Nodup :=
    (List.pairwise_map.mpr increasing).imp (fun less => ne_of_lt less)
  have same := (orderBy_perm key elements).trans rearranged
  refine same.eq_of_pairwise ?_ (orderBy_pairwise key elements)
    (increasing.imp (fun less => le_of_lt less))
  intro a b left right below above
  exact List.inj_on_of_nodup_map distinct (same.subset left) right (le_antisymm below above)

/-- Picking among images picks the image of what is picked by the key of the image, by
induction on the list.
-/
theorem argmin_map {β : Type*} (view : α → β) (key : β → κ) (elements : List α)
    : (elements.map view).argmin key
      = (elements.argmin (fun element => key (view element))).map view := by
  induction elements with
  | nil => rfl
  | cons head tail ih =>
      rw [List.map_cons, List.argmin_cons, List.argmin_cons, ih]
      cases tail.argmin (fun element => key (view element)) with
      | none => rfl
      | some least =>
          simp only [Option.map_some]
          split_ifs <;> rfl

end JobScheduler.Library
