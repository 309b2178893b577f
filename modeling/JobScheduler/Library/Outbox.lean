import JobScheduler.Library.Selection
import Mathlib.Data.List.Basic

/-! Reports that are written later than what they report. A report belongs to a sender, and each
sender writes its reports in order; when it writes them is open, and reports may be lost before
they are written.
-/

namespace JobScheduler.Library

/-- Reports with their senders: those to be written, those written, oldest first, and those
lost before they were written.
-/
structure Outbox (Sender Report : Type*) where
  pending : List (Sender × Report)
  written : List (Sender × Report)
  lost : List (Sender × Report)

namespace Outbox

variable {Sender Report : Type*}

def empty : Outbox Sender Report := ⟨[], [], []⟩

/-- Everything that was reported, in whatever order. -/
def all (outbox : Outbox Sender Report) : List (Sender × Report) :=
  outbox.written ++ outbox.pending ++ outbox.lost

/-- A sender has more to write. -/
def report (sender : Sender) (reports : List Report) (outbox : Outbox Sender Report)
    : Outbox Sender Report :=
  { outbox with pending := outbox.pending ++ reports.map (fun entry => (sender, entry)) }

/-- What was not written never will be. -/
def lose (outbox : Outbox Sender Report) : Outbox Sender Report :=
  { outbox with pending := [], lost := outbox.lost ++ outbox.pending }

variable [DecidableEq Sender]

/-- The entries of one sender. -/
def of (sender : Sender) (entries : List (Sender × Report)) : List (Sender × Report) :=
  entries.filter (fun entry => entry.1 = sender)

/-- A sender writes the oldest of its reports, if there is one. -/
def write (sender : Sender) (outbox : Outbox Sender Report) : Outbox Sender Report :=
  match outbox.pending.find? (fun entry => entry.1 = sender) with
  | none => outbox
  | some entry =>
      { outbox with
        pending := outbox.pending.eraseP (fun entry => entry.1 = sender)
        written := outbox.written ++ [entry] }

/-- The entry that is written is the first one of its sender. -/
theorem pending_split {sender : Sender} {outbox : Outbox Sender Report}
    {entry : Sender × Report}
    (found : outbox.pending.find? (fun entry => entry.1 = sender) = some entry)
    : entry.1 = sender
      ∧ ∃ before after,
          outbox.pending = before ++ entry :: after
          ∧ of sender before = []
          ∧ outbox.pending.eraseP (fun entry => entry.1 = sender) = before ++ after := by
  obtain ⟨its, before, after, split, others⟩ := List.find?_eq_some_iff_append.mp found
  refine ⟨by simpa using its, before, after, split, ?_, ?_⟩
  · refine List.filter_eq_nil_iff.mpr ?_
    intro other member
    simpa using others other member
  · rw [split, List.eraseP_append_right _ (by simpa using others)]
    simp [by simpa using its]

/-- The reports made so far, oldest first, are accounted for: each of them is to be written,
written or lost, and what a sender has written and is still to write stands in their order.
-/
structure Accounts (outbox : Outbox Sender Report) (reported : List (Sender × Report)) : Prop
    where
  complete : outbox.all.Perm reported
  inOrder
    : ∀ sender,
        (of sender outbox.written ++ of sender outbox.pending).Sublist (of sender reported)

namespace Accounts

variable {outbox : Outbox Sender Report} {reported : List (Sender × Report)}

theorem empty : (Outbox.empty : Outbox Sender Report).Accounts [] where
  complete := .nil
  inOrder _ := .slnil

theorem report (accounts : outbox.Accounts reported) (sender : Sender) (reports : List Report)
    : (outbox.report sender reports).Accounts
        (reported ++ reports.map (fun entry => (sender, entry))) where
  complete := by
    refine .trans ?_ (accounts.complete.append_right _)
    simp only [all, Outbox.report, List.append_assoc]
    exact (List.perm_append_comm.append_left _).append_left _
  inOrder other := by
    have before := accounts.inOrder other
    simp only [of, Outbox.report, List.filter_append, ← List.append_assoc] at before ⊢
    exact before.append_right _

/-- Writing moves a report, and no sender's reports change their order. -/
theorem write (accounts : outbox.Accounts reported) (sender : Sender)
    : (outbox.write sender).Accounts reported := by
  unfold Outbox.write
  split
  · exact accounts
  · rename_i entry found
    obtain ⟨own, before, after, split, others, rest⟩ := pending_split found
    refine ⟨.trans ?_ accounts.complete, ?_⟩
    · simp only [all]
      rw [rest, split]
      refine List.Perm.append_right _ ?_
      rw [List.append_assoc, List.singleton_append]
      exact List.perm_middle.symm.append_left _
    · intro other
      have same
          : of other (outbox.written ++ [entry]) ++ of other (before ++ after)
            = of other outbox.written ++ of other outbox.pending := by
        rw [split]
        simp only [of, List.filter_append, List.append_assoc] at others ⊢
        congr 1
        by_cases its : entry.1 = other
        · rw [← its, own, others, List.filter_cons_of_pos (by simpa using own)]
          simp [own]
        · simp [its]
      rw [rest, same]
      exact accounts.inOrder other

theorem lose (accounts : outbox.Accounts reported) : outbox.lose.Accounts reported where
  complete := by
    refine .trans ?_ accounts.complete
    simp only [all, Outbox.lose, List.append_nil, List.append_assoc]
    exact List.perm_append_comm.append_left _
  inOrder sender := by
    refine .trans ?_ (accounts.inOrder sender)
    simp only [Outbox.lose, of, List.filter_nil, List.append_nil]
    exact List.sublist_append_left _ _

end Accounts

end Outbox

end JobScheduler.Library
