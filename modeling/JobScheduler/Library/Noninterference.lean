import JobScheduler.Library.Machine

/-! Runs as an observer sees them. If the inputs of others leave alone what the observer's own
inputs depend on, a run answers the observer as if only its own inputs had been made.
-/

namespace JobScheduler.Library

namespace Machine

variable {State Input Output : Type*} (machine : Machine State Input Output)

/-- The answers of a run to the inputs that are the observer's. -/
def observed (mine : Input → Bool) : State → List Input → List Output
  | _, [] => []
  | state, input :: rest =>
      if mine input then
        (machine.step state input).1 :: observed mine (machine.step state input).2 rest
      else
        observed mine (machine.step state input).2 rest

/-- Two states are alike to an observer: its own allowed inputs get equal answers in both and
lead to states that are alike again, and the inputs of others keep the first state alike to
the second.
-/
structure Unwinds (allowed : State → Input → Prop) (mine : Input → Bool)
    (Alike : State → State → Prop) : Prop where
  own
    : ∀ state twin input,
        Alike state twin
        → allowed state input
        → mine input = true
        → (machine.step state input).1 = (machine.step twin input).1
          ∧ Alike (machine.step state input).2 (machine.step twin input).2
  other
    : ∀ state twin input,
        Alike state twin
        → allowed state input
        → mine input = false
        → Alike (machine.step state input).2 twin

variable {machine}

/-- The observer is answered as in the run without the inputs of others, by induction on the
inputs.
-/
theorem Unwinds.observed_eq {allowed : State → Input → Prop} {mine : Input → Bool}
    {Alike : State → State → Prop} (unwinds : machine.Unwinds allowed mine Alike)
    {state twin : State} {inputs : List Input} (alike : Alike state twin)
    (steps : machine.AlongSteps allowed state inputs)
    : machine.observed mine state inputs = (machine.run twin (inputs.filter mine)).1 := by
  induction inputs generalizing state twin with
  | nil => rfl
  | cons input rest ih =>
      cases own : mine input with
      | true =>
          obtain ⟨answers, next⟩ := unwinds.own state twin input alike steps.1 own
          rw [observed, if_pos own, List.filter_cons_of_pos own, run_cons, answers,
            ih next steps.2]
      | false =>
          have next := unwinds.other state twin input alike steps.1 own
          rw [observed, if_neg (by simp [own]), List.filter_cons_of_neg (by simp [own]),
            ih next steps.2]

/-- The run and the one without the inputs of others end alike, by induction on the inputs. -/
theorem Unwinds.alike_run {allowed : State → Input → Prop} {mine : Input → Bool}
    {Alike : State → State → Prop} (unwinds : machine.Unwinds allowed mine Alike)
    {state twin : State} {inputs : List Input} (alike : Alike state twin)
    (steps : machine.AlongSteps allowed state inputs)
    : Alike (machine.run state inputs).2 (machine.run twin (inputs.filter mine)).2 := by
  induction inputs generalizing state twin with
  | nil => exact alike
  | cons input rest ih =>
      cases own : mine input with
      | true =>
          rw [List.filter_cons_of_pos own, run_cons, run_cons]
          exact ih (unwinds.own state twin input alike steps.1 own).2 steps.2
      | false =>
          rw [List.filter_cons_of_neg (by simp [own]), run_cons]
          exact ih (unwinds.other state twin input alike steps.1 own) steps.2

end Machine

end JobScheduler.Library
