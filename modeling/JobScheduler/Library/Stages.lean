import JobScheduler.Library.Machine

/-! Runs through stages. The inputs of many parties come between each other, and each party gets
through the stages of its own work whatever the others do.
-/

namespace JobScheduler.Library.Machine

variable {State Input Output : Type*} {machine : Machine State Input Output}

/-- Inputs that satisfy `Q` meet states that satisfy `P`, if every input keeps `P`. -/
theorem alongSteps_of_kept {P : State → Prop} {Q : Input → Prop}
    (kept : ∀ state input, P state → P (machine.step state input).2)
    {state : State} {inputs : List Input} (initially : P state)
    (each : ∀ input ∈ inputs, Q input)
    : machine.AlongSteps (fun state input => P state ∧ Q input) state inputs := by
  induction inputs generalizing state with
  | nil => trivial
  | cons input rest ih =>
      exact ⟨⟨initially, each input List.mem_cons_self⟩,
        ih (kept state input initially)
          (fun other member => each other (List.mem_cons_of_mem input member))⟩

/-- Where no input leads back to an earlier stage, and the input for the present stage leads to
a later one, a run that contains the inputs for the stages from the first on, in their order and
between any others, gets past all of them. By induction on the inputs, with the first of those
stages that is still ahead.
-/
theorem past_stages {stage : State → Nat} {stageOf : Input → Option Nat}
    {allowed : State → Input → Prop}
    (kept : ∀ state input, allowed state input → stage state ≤ stage (machine.step state input).2)
    (passed
      : ∀ state input,
          allowed state input
          → stageOf input = some (stage state)
          → stage state < stage (machine.step state input).2)
    {state : State} {inputs : List Input} {first count : Nat}
    (steps : machine.AlongSteps allowed state inputs) (behind : first ≤ stage state)
    (contained : (List.range' first count).Sublist (inputs.filterMap stageOf))
    : first + count ≤ stage (machine.run state inputs).2 := by
  induction inputs generalizing state first count with
  | nil =>
      have none : count = 0 := List.range'_eq_nil_iff.mp (List.sublist_nil.mp contained)
      rw [none]
      exact behind
  | cons input rest ih =>
      have later := kept state input steps.1
      cases own : stageOf input with
      | none =>
          rw [List.filterMap_cons_none own] at contained
          exact ih steps.2 (Nat.le_trans behind later) contained
      | some reached =>
          rw [List.filterMap_cons_some own] at contained
          rcases List.sublist_cons_iff.mp contained with ahead | ⟨others, split, ahead⟩
          · exact ih steps.2 (Nat.le_trans behind later) ahead
          · obtain ⟨rfl, positive, rfl⟩ := List.range'_eq_cons_iff.mp split
            have past : first + 1 ≤ stage (machine.step state input).2 := by
              rcases Nat.lt_or_eq_of_le behind with further | here
              · exact Nat.lt_of_lt_of_le further later
              · rw [here] at own ⊢
                exact passed state input steps.1 own
            have finished := ih steps.2 past ahead
            simp only [run_cons]
            omega

end JobScheduler.Library.Machine
