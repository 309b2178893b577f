import JobScheduler.Library.Machine

/-! Simulation between machines, with stuttering: each allowed step of the first is matched by
at most one allowed step of the second. Whole runs are then matched by runs that are no longer,
and what is reached is matched by what is reached.
-/

namespace JobScheduler.Library.Machine

variable {State Input Output : Type*}

/-- At most one allowed input leads from the first state to the second. -/
def Moves (machine : Machine State Input Output) (allowed : State → Input → Prop)
    (state next : State) : Prop :=
  next = state ∨ ∃ input, allowed state input ∧ next = (machine.step state input).2

variable {machine : Machine State Input Output} {allowed : State → Input → Prop}

theorem Moves.stay (state : State) : machine.Moves allowed state state := Or.inl rfl

theorem Moves.step {state : State} {input : Input} (permitted : allowed state input)
    : machine.Moves allowed state (machine.step state input).2 :=
  Or.inr ⟨input, permitted, rfl⟩

theorem Moves.reaches {state next : State} (moves : machine.Moves allowed state next)
    : machine.Reaches allowed state next := by
  rcases moves with rfl | ⟨input, permitted, rfl⟩
  · exact .refl _
  · exact (Reaches.refl state).step permitted

/-- Each allowed step from related states is matched, and the states stay related. -/
def Simulates {Twin TwinInput TwinOutput : Type*} (machine : Machine State Input Output)
    (allowed : State → Input → Prop) (other : Machine Twin TwinInput TwinOutput)
    (permitted : Twin → TwinInput → Prop) (Related : State → Twin → Prop) : Prop :=
  ∀ state twin input,
    Related state twin
    → allowed state input
    → ∃ next,
        other.Moves permitted twin next ∧ Related (machine.step state input).2 next

namespace Simulates

variable {Twin TwinInput TwinOutput : Type*} {other : Machine Twin TwinInput TwinOutput}
  {permitted : Twin → TwinInput → Prop} {Related : State → Twin → Prop}

/-- A run is matched by a run that is no longer, by induction on its inputs. -/
theorem run (simulates : machine.Simulates allowed other permitted Related) {state : State}
    {twin : Twin} {inputs : List Input} (related : Related state twin)
    (steps : machine.AlongSteps allowed state inputs)
    : ∃ moves,
        moves.length ≤ inputs.length
        ∧ other.AlongSteps permitted twin moves
        ∧ Related (machine.run state inputs).2 (other.run twin moves).2 := by
  induction inputs generalizing state twin with
  | nil => exact ⟨[], Nat.le_refl _, trivial, related⟩
  | cons input rest ih =>
      obtain ⟨next, moved, after⟩ := simulates state twin input related steps.1
      obtain ⟨moves, short, along, final⟩ := ih after steps.2
      rcases moved with rfl | ⟨move, allows, rfl⟩
      · exact ⟨moves, Nat.le_succ_of_le short, along, final⟩
      · exact ⟨move :: moves, Nat.succ_le_succ short, ⟨allows, along⟩, final⟩

end Simulates

end JobScheduler.Library.Machine
