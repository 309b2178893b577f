import Mathlib.Logic.Basic

/-! Deterministic machines that answer each input and move to a next state.
Runs over lists of inputs, properties that hold along a run, states reached through allowed
inputs, and the two rules used on them: preservation of an invariant and lockstep agreement.
-/

namespace JobScheduler.Library

/-- A machine answers an input in a state and moves to the next state. -/
structure Machine (State Input Output : Type*) where
  step : State → Input → Output × State

namespace Machine

variable {State Input Output : Type*} (machine : Machine State Input Output)

/-- The answers to a list of inputs, and the state after the last of them. -/
def run : State → List Input → List Output × State
  | state, [] => ([], state)
  | state, input :: rest =>
      let (answer, next) := machine.step state input
      let (answers, final) := run next rest
      (answer :: answers, final)

/-- `P` holds in every state of the run, the first and the last included. -/
def Along (P : State → Prop) : State → List Input → Prop
  | state, [] => P state
  | state, input :: rest => P state ∧ Along P (machine.step state input).2 rest

/-- `Q` holds of every input of the run in the state it meets. -/
def AlongSteps (Q : State → Input → Prop) : State → List Input → Prop
  | _, [] => True
  | state, input :: rest =>
      Q state input ∧ AlongSteps Q (machine.step state input).2 rest

/-- Whether a condition holds along a run is decided step by step. -/
instance decidableAlongSteps {Q : State → Input → Prop}
    [∀ state input, Decidable (Q state input)]
    : ∀ (state : State) (inputs : List Input), Decidable (machine.AlongSteps Q state inputs)
  | _, [] => inferInstanceAs (Decidable True)
  | state, input :: rest =>
      have : Decidable (machine.AlongSteps Q (machine.step state input).2 rest) :=
        decidableAlongSteps _ rest
      inferInstanceAs (Decidable (_ ∧ _))

/-- The second state is reached from the first through allowed inputs. -/
inductive Reaches (allowed : State → Input → Prop) : State → State → Prop
  | refl (state) : Reaches allowed state state
  | step {start state input} (before : Reaches allowed start state)
    (permitted : allowed state input)
    : Reaches allowed start (machine.step state input).2

variable {machine}

@[simp] theorem run_nil (state : State) : machine.run state [] = ([], state) := rfl

@[simp] theorem run_cons (state : State) (input : Input) (rest : List Input)
    : machine.run state (input :: rest)
      = ((machine.step state input).1 :: (machine.run (machine.step state input).2 rest).1,
          (machine.run (machine.step state input).2 rest).2) :=
  rfl

/-- Reaching composes, by induction on the second part. -/
theorem Reaches.trans {allowed : State → Input → Prop} {first second third : State}
    (head : machine.Reaches allowed first second)
    (tail : machine.Reaches allowed second third)
    : machine.Reaches allowed first third := by
  induction tail with
  | refl => exact head
  | step _ permitted ih => exact ih.step permitted

/-- Fewer allowed inputs reach fewer states. -/
theorem Reaches.mono {allowed more : State → Input → Prop} {first second : State}
    (reached : machine.Reaches allowed first second)
    (weaker : ∀ state input, allowed state input → more state input)
    : machine.Reaches more first second := by
  induction reached with
  | refl => exact .refl _
  | step _ permitted ih => exact ih.step (weaker _ _ permitted)

/-- A property that every allowed input preserves holds wherever it is reached from a
state with the property.
-/
theorem Reaches.preserves {allowed : State → Input → Prop} {P : State → Prop}
    {first second : State} (reached : machine.Reaches allowed first second)
    (preserved
      : ∀ state input, P state → allowed state input → P (machine.step state input).2)
    (initially : P first)
    : P second := by
  induction reached with
  | refl => exact initially
  | step _ permitted ih => exact preserved _ _ ih permitted

/-- A property preserved by inputs that satisfy `Q` holds along every run of such inputs. -/
theorem along_of_preserved {P : State → Prop} {Q : State → Input → Prop}
    (preserved : ∀ state input, P state → Q state input → P (machine.step state input).2)
    {state : State} {inputs : List Input} (initially : P state)
    (steps : machine.AlongSteps Q state inputs)
    : machine.Along P state inputs := by
  induction inputs generalizing state with
  | nil => exact initially
  | cons input rest ih =>
      exact ⟨initially, ih (preserved _ _ initially steps.1) steps.2⟩

/-- A property of a run holds in its first state. -/
theorem Along.head {P : State → Prop} {state : State} {inputs : List Input}
    (states : machine.Along P state inputs)
    : P state := by
  cases inputs with
  | nil => exact states
  | cons => exact states.1

/-- A weaker property holds along the same run, by induction on its inputs. -/
theorem Along.imp {P Q : State → Prop} (weaker : ∀ state, P state → Q state)
    {state : State} {inputs : List Input} (states : machine.Along P state inputs)
    : machine.Along Q state inputs := by
  induction inputs generalizing state with
  | nil => exact weaker _ states
  | cons input rest ih => exact ⟨weaker _ states.1, ih states.2⟩

/-- Two conditions on the steps of a run are one, by induction on its inputs. -/
theorem AlongSteps.and {Q R : State → Input → Prop} {state : State} {inputs : List Input}
    (first : machine.AlongSteps Q state inputs) (second : machine.AlongSteps R state inputs)
    : machine.AlongSteps (fun state input => Q state input ∧ R state input) state inputs := by
  induction inputs generalizing state with
  | nil => trivial
  | cons input rest ih => exact ⟨⟨first.1, second.1⟩, ih first.2 second.2⟩

/-- Step conditions may be weakened and combined with an invariant of the run. -/
theorem AlongSteps.imp {P : State → Prop} {Q R : State → Input → Prop}
    (weaker : ∀ state input, P state → Q state input → R state input)
    {state : State} {inputs : List Input}
    (states : machine.Along P state inputs) (steps : machine.AlongSteps Q state inputs)
    : machine.AlongSteps R state inputs := by
  induction inputs generalizing state with
  | nil => trivial
  | cons input rest ih =>
      exact ⟨weaker _ _ states.1 steps.1, ih states.2 steps.2⟩

/-- The final state of a run of allowed inputs is reached. -/
theorem reaches_run {allowed : State → Input → Prop} {state : State} {inputs : List Input}
    (steps : machine.AlongSteps allowed state inputs)
    : machine.Reaches allowed state (machine.run state inputs).2 := by
  induction inputs generalizing state with
  | nil => exact .refl _
  | cons input rest ih =>
      exact ((Reaches.refl state).step steps.1).trans (ih steps.2)

/-- Both states answer every list of inputs in the same way. -/
def Equivalent (machine : Machine State Input Output) (state twin : State) : Prop :=
  ∀ inputs, (machine.run state inputs).1 = (machine.run twin inputs).1

theorem Equivalent.refl (state : State) : machine.Equivalent state state := fun _ => rfl

/-- Equivalent states answer one input equally and move to equivalent states. -/
theorem Equivalent.step {state twin : State} (same : machine.Equivalent state twin)
    (input : Input)
    : (machine.step state input).1 = (machine.step twin input).1
      ∧ machine.Equivalent (machine.step state input).2 (machine.step twin input).2 := by
  refine ⟨?_, ?_⟩
  · have answers := same [input]
    simpa using answers
  · intro rest
    have answers := same (input :: rest)
    rw [run_cons, run_cons] at answers
    exact (List.cons.inj answers).2

/-- Machines kept in a relation by every allowed input, with equal answers, answer
whole runs equally.
-/
theorem run_answers_eq {Other : Type*} {other : Machine Other Input Output}
    {allowed : State → Input → Prop} {Related : State → Other → Prop}
    (lockstep
      : ∀ state twin input,
          Related state twin
          → allowed state input
          → (machine.step state input).1 = (other.step twin input).1
            ∧ Related (machine.step state input).2 (other.step twin input).2)
    {state : State} {twin : Other} {inputs : List Input} (related : Related state twin)
    (steps : machine.AlongSteps allowed state inputs)
    : (machine.run state inputs).1 = (other.run twin inputs).1 := by
  induction inputs generalizing state twin with
  | nil => rfl
  | cons input rest ih =>
      obtain ⟨answers, next⟩ := lockstep state twin input related steps.1
      rw [run_cons, run_cons, answers, ih next steps.2]

end Machine

end JobScheduler.Library
