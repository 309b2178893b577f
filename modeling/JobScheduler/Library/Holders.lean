import Mathlib.Data.List.Basic
import Mathlib.Logic.Function.Basic

/-! Holders backed by a list. Every holder that holds an item finds it at an entry of its own
in the list; holders come and go, the list grows, and an entry may change with its holder.
-/

namespace JobScheduler.Library

/-- What each holder holds is listed at its entry, and no two of those who hold something
share an entry.
-/
structure Backs {Holder Item : Type*} (held : Holder → Option Item) (items : List Item)
    (entry : Holder → Nat) : Prop where
  listed : ∀ holder item, held holder = some item → items[entry holder]? = some item
  apart
    : ∀ first second,
        (held first).isSome
        → (held second).isSome
        → entry first = entry second
        → first = second

namespace Backs

variable {Holder Item : Type*} {held : Holder → Option Item}
  {items : List Item} {entry : Holder → Nat}

/-- If nothing is held, any list will do. -/
theorem ofNone (none : ∀ holder, held holder = .none) : Backs held items entry where
  listed holder item holds := by
    rw [none holder] at holds
    cases holds
  apart first second holds := by
    rw [none first] at holds
    cases holds

variable [DecidableEq Holder]

/-- A holder lets go, or keeps what it holds. -/
theorem drop (backs : Backs held items entry) (holder : Holder) {item : Option Item}
    (less : item = none ∨ item = held holder)
    : Backs (Function.update held holder item) items entry := by
  have before {other : Holder} {found : Item}
      (holds : Function.update held holder item other = some found)
      : held other = some found := by
    by_cases same : other = holder
    · subst same
      rw [Function.update_self] at holds
      rcases less with rfl | rfl
      · cases holds
      · exact holds
    · rwa [Function.update_of_ne same] at holds
  refine ⟨fun other found holds => backs.listed other found (before holds), ?_⟩
  intro first second holds otherHolds equal
  obtain ⟨one, here⟩ := Option.isSome_iff_exists.mp holds
  obtain ⟨two, there⟩ := Option.isSome_iff_exists.mp otherHolds
  exact backs.apart first second (by rw [before here]; rfl) (by rw [before there]; rfl) equal

/-- A holder is given a new item, which goes to the end of the list. -/
theorem grant (backs : Backs held items entry) (holder : Holder) (item : Item)
    : Backs (Function.update held holder (some item)) (items ++ [item])
        (Function.update entry holder items.length) := by
  have old {other : Holder} (apart : other ≠ holder) {found : Item}
      (holds : Function.update held holder (some item) other = some found)
      : items[entry other]? = some found ∧ entry other < items.length := by
    rw [Function.update_of_ne apart] at holds
    have listed := backs.listed other found holds
    exact ⟨listed, (List.getElem?_eq_some_iff.mp listed).1⟩
  refine ⟨?_, ?_⟩
  · intro other found holds
    by_cases same : other = holder
    · subst same
      rw [Function.update_self] at holds ⊢
      rw [← holds, List.getElem?_append_right (Nat.le_refl _), Nat.sub_self]
      rfl
    · obtain ⟨listed, inside⟩ := old same holds
      rwa [Function.update_of_ne same, List.getElem?_append_left inside]
  · intro first second holds otherHolds equal
    obtain ⟨one, here⟩ := Option.isSome_iff_exists.mp holds
    obtain ⟨two, there⟩ := Option.isSome_iff_exists.mp otherHolds
    by_cases same : first = holder
    · by_cases sameToo : second = holder
      · exact same.trans sameToo.symm
      · have inside := (old sameToo there).2
        rw [same, Function.update_self, Function.update_of_ne sameToo] at equal
        exact absurd equal (Nat.ne_of_gt inside)
    · have inside := (old same here).2
      by_cases sameToo : second = holder
      · rw [sameToo, Function.update_self, Function.update_of_ne same] at equal
        exact absurd equal (Nat.ne_of_lt inside)
      · rw [Function.update_of_ne same] at holds equal
        rw [Function.update_of_ne sameToo] at otherHolds equal
        exact backs.apart first second holds otherHolds equal

/-- What a holder holds changes together with its entry. -/
theorem change (backs : Backs held items entry) {holder : Holder} {item : Item}
    (holds : held holder = some item) (after : Item → Item)
    : Backs (Function.update held holder (some (after item)))
        (items.modify (entry holder) after) entry := by
  have present {other : Holder}
      (holdsAfter : (Function.update held holder (some (after item)) other).isSome)
      : (held other).isSome := by
    by_cases same : other = holder
    · rw [same, holds]
      rfl
    · rwa [Function.update_of_ne same] at holdsAfter
  refine ⟨?_, fun first second here there => backs.apart first second (present here)
    (present there)⟩
  intro other found there
  rw [List.getElem?_modify]
  by_cases same : other = holder
  · subst same
    rw [Function.update_self] at there
    rw [backs.listed other item holds, ← there]
    exact congrArg Option.some (if_pos rfl)
  · have listed := there
    rw [Function.update_of_ne same] at listed
    have apart : entry holder ≠ entry other := fun equal =>
      same (backs.apart holder other (by rw [holds]; rfl) (by rw [listed]; rfl) equal).symm
    rw [backs.listed other found listed]
    exact congrArg Option.some (if_neg apart)

end Backs

end JobScheduler.Library
