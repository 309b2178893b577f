import Mathlib.Logic.Function.Basic
import Mathlib.Data.List.Basic

/-! Expression trees over parameter objects, with lambdas that bind several parameters, and
their values under any meaning of the operators. An operator is given the outcomes of its
operands, so strict, conditional and coalescing operators are all covered, and so are
operands that throw. Renaming the parameters of a tree, binders included, keeps its value as
long as no two parameters become one.
-/

namespace JobScheduler.Library

/-- An expression tree. Every node other than a parameter, a boolean constant, a lambda or a
short-circuit connective is an operator with its operands.
-/
inductive Expression (Parameter Operator : Type*)
  | parameter (name : Parameter)
  | constant (value : Bool)
  | lambda (binders : List Parameter) (body : Expression Parameter Operator)
  | andAlso (left right : Expression Parameter Operator)
  | orElse (left right : Expression Parameter Operator)
  | operation (operator : Operator) (operands : List (Expression Parameter Operator))

/-- What the operators of a language mean, and how its values hold booleans and lambdas. -/
structure Interpretation (Operator Value Error : Type*) where
  apply : Operator → List (Except Error Value) → Except Error Value
  closure : (List Value → Except Error Value) → Value
  ofBool : Bool → Value
  truth : Value → Bool
  truth_ofBool : ∀ value, truth (ofBool value) = value
  /-- The outcome of a parameter that no binder has bound. -/
  unbound : Error

namespace Expression

variable {Parameter Renamed Operator Value Error : Type*}

mutual

/-- All parameters of a tree, those of its binders included. -/
def parameters : Expression Parameter Operator → List Parameter
  | parameter name => [name]
  | constant _ => []
  | lambda binders body => binders ++ body.parameters
  | andAlso left right => left.parameters ++ right.parameters
  | orElse left right => left.parameters ++ right.parameters
  | operation _ operands => parametersOf operands

def parametersOf : List (Expression Parameter Operator) → List Parameter
  | [] => []
  | operand :: rest => operand.parameters ++ parametersOf rest

end

mutual

/-- The tree with every parameter replaced, those of its binders included. -/
def rename (replace : Parameter → Renamed)
    : Expression Parameter Operator → Expression Renamed Operator
  | parameter name => .parameter (replace name)
  | constant value => .constant value
  | lambda binders body => .lambda (binders.map replace) (body.rename replace)
  | andAlso left right => .andAlso (left.rename replace) (right.rename replace)
  | orElse left right => .orElse (left.rename replace) (right.rename replace)
  | operation operator operands => .operation operator (renameAll replace operands)

def renameAll (replace : Parameter → Renamed)
    : List (Expression Parameter Operator) → List (Expression Renamed Operator)
  | [] => []
  | operand :: rest => operand.rename replace :: renameAll replace rest

end

mutual

/-- The parameters of a renamed tree, one kind of node at a time. -/
theorem parameters_rename (replace : Parameter → Renamed)
    (tree : Expression Parameter Operator)
    : (tree.rename replace).parameters = tree.parameters.map replace := by
  cases tree with
  | parameter name => rfl
  | constant value => rfl
  | lambda binders body =>
      simp only [rename, parameters, parameters_rename replace body, List.map_append]
  | andAlso left right =>
      simp only [rename, parameters, parameters_rename replace left,
        parameters_rename replace right, List.map_append]
  | orElse left right =>
      simp only [rename, parameters, parameters_rename replace left,
        parameters_rename replace right, List.map_append]
  | operation operator operands =>
      simp only [rename, parameters, parametersOf_rename replace operands]

theorem parametersOf_rename (replace : Parameter → Renamed)
    (operands : List (Expression Parameter Operator))
    : parametersOf (renameAll replace operands) = (parametersOf operands).map replace := by
  cases operands with
  | nil => rfl
  | cons operand rest =>
      simp only [renameAll, parametersOf, parameters_rename replace operand,
        parametersOf_rename replace rest, List.map_append]

end

/-- What each parameter stands for; looking up one that is not bound throws. -/
abbrev Environment (Parameter Value Error : Type*) : Type _ := Parameter → Except Error Value

section Evaluation

variable [DecidableEq Parameter] [DecidableEq Renamed]

/-- The binders of a lambda stand for its arguments, the first one for a repeated binder. -/
def bindAll (environment : Environment Parameter Value Error)
    : List Parameter → List Value → Environment Parameter Value Error
  | binder :: binders, value :: values =>
      Function.update (bindAll environment binders values) binder (.ok value)
  | _, _ => environment

variable (interpretation : Interpretation Operator Value Error)

mutual

/-- The value of a tree, or the exception its evaluation throws. -/
def evaluate (environment : Environment Parameter Value Error)
    : Expression Parameter Operator → Except Error Value
  | parameter name => environment name
  | constant value => .ok (interpretation.ofBool value)
  | lambda binders body =>
      .ok (interpretation.closure
        (fun values => evaluate (bindAll environment binders values) body))
  | andAlso left right => do
      if interpretation.truth (← evaluate environment left) then
        evaluate environment right
      else
        return interpretation.ofBool false
  | orElse left right => do
      if interpretation.truth (← evaluate environment left) then
        return interpretation.ofBool true
      else
        evaluate environment right
  | operation operator operands =>
      interpretation.apply operator (evaluateAll environment operands)

def evaluateAll (environment : Environment Parameter Value Error)
    : List (Expression Parameter Operator) → List (Except Error Value)
  | [] => []
  | operand :: rest => evaluate environment operand :: evaluateAll environment rest

end

/-- Whether a tree of type boolean holds. -/
def holds (environment : Environment Parameter Value Error)
    (tree : Expression Parameter Operator)
    : Except Error Bool :=
  (tree.evaluate interpretation environment).map interpretation.truth

/-- `AndAlso` looks at its right operand if the left one holds. -/
theorem holds_andAlso (environment : Environment Parameter Value Error)
    (left right : Expression Parameter Operator)
    : (left.andAlso right).holds interpretation environment
      = (do
          if ← left.holds interpretation environment then
            right.holds interpretation environment
          else
            return false) := by
  simp only [holds, evaluate]
  cases left.evaluate interpretation environment with
  | error exception => rfl
  | ok value =>
      change Except.map interpretation.truth
          (if interpretation.truth value then _ else pure _)
        = if interpretation.truth value then _ else pure false
      cases interpretation.truth value with
      | true => rfl
      | false => exact congrArg Except.ok (interpretation.truth_ofBool false)

/-- `OrElse` looks at its right operand if the left one does not hold. -/
theorem holds_orElse (environment : Environment Parameter Value Error)
    (left right : Expression Parameter Operator)
    : (left.orElse right).holds interpretation environment
      = (do
          if ← left.holds interpretation environment then
            return true
          else
            right.holds interpretation environment) := by
  simp only [holds, evaluate]
  cases left.evaluate interpretation environment with
  | error exception => rfl
  | ok value =>
      change Except.map interpretation.truth
          (if interpretation.truth value then pure _ else _)
        = if interpretation.truth value then pure true else _
      cases interpretation.truth value with
      | true => exact congrArg Except.ok (interpretation.truth_ofBool true)
      | false => rfl

-----------------------------------------------------------------------------------------
-- Renaming keeps the value
-----------------------------------------------------------------------------------------

/-- Renamed binders bind what the binders bound, by induction on the binders. -/
theorem bindAll_map {replace : Parameter → Renamed}
    {environment : Environment Parameter Value Error}
    {renamed : Environment Renamed Value Error} {binders : List Parameter}
    {values : List Value} {name : Parameter}
    (apart : ∀ binder ∈ binders, replace binder = replace name → binder = name)
    (agrees : renamed (replace name) = environment name)
    : bindAll renamed (binders.map replace) values (replace name)
      = bindAll environment binders values name := by
  induction binders generalizing values with
  | nil => cases values <;> exact agrees
  | cons binder rest ih =>
      cases values with
      | nil => exact agrees
      | cons value values =>
          simp only [List.map_cons, bindAll, Function.update_apply]
          by_cases same : name = binder
          · rw [if_pos same, if_pos (congrArg replace same)]
          · have different : replace name ≠ replace binder := by
              intro equal
              exact same (apart binder (List.mem_cons_self ..) equal.symm).symm
            rw [if_neg same, if_neg different]
            apply ih
            intro other member
            exact apart other (List.mem_cons_of_mem _ member)

variable {replace : Parameter → Renamed} {interpretation}

mutual

/-- A renaming that keeps the parameters of a tree apart keeps its value, one kind of node at
a time. Under a lambda the environments agree on the arguments as well.
-/
theorem evaluate_rename {environment : Environment Parameter Value Error}
    {renamed : Environment Renamed Value Error} (tree : Expression Parameter Operator)
    (apart : ∀ a ∈ tree.parameters, ∀ b ∈ tree.parameters, replace a = replace b → a = b)
    (agrees : ∀ name ∈ tree.parameters, renamed (replace name) = environment name)
    : (tree.rename replace).evaluate interpretation renamed
      = tree.evaluate interpretation environment := by
  cases tree with
  | parameter name => exact agrees name (List.mem_singleton_self name)
  | constant value => rfl
  | lambda binders body =>
      simp only [parameters, List.mem_append] at apart agrees
      simp only [rename, evaluate, Except.ok.injEq]
      congr 1
      funext values
      apply evaluate_rename body
      · intro a inBody b alsoInBody
        exact apart a (Or.inr inBody) b (Or.inr alsoInBody)
      · intro name inBody
        apply bindAll_map
        · intro binder bound
          exact apart binder (Or.inl bound) name (Or.inr inBody)
        · exact agrees name (Or.inr inBody)
  | andAlso left right | orElse left right =>
      simp only [parameters, List.mem_append] at apart agrees
      simp only [rename, evaluate,
        evaluate_rename left
          (fun a inLeft b alsoInLeft => apart a (Or.inl inLeft) b (Or.inl alsoInLeft))
          (fun name inLeft => agrees name (Or.inl inLeft)),
        evaluate_rename right
          (fun a inRight b alsoInRight => apart a (Or.inr inRight) b (Or.inr alsoInRight))
          (fun name inRight => agrees name (Or.inr inRight))]
  | operation operator operands =>
      simp only [rename, evaluate, evaluateAll_rename operands apart agrees]

theorem evaluateAll_rename {environment : Environment Parameter Value Error}
    {renamed : Environment Renamed Value Error}
    (operands : List (Expression Parameter Operator))
    (apart
      : ∀ a ∈ parametersOf operands, ∀ b ∈ parametersOf operands,
          replace a = replace b → a = b)
    (agrees : ∀ name ∈ parametersOf operands, renamed (replace name) = environment name)
    : evaluateAll interpretation renamed (renameAll replace operands)
      = evaluateAll interpretation environment operands := by
  cases operands with
  | nil => rfl
  | cons operand rest =>
      simp only [parametersOf, List.mem_append] at apart agrees
      simp only [renameAll, evaluateAll,
        evaluate_rename operand
          (fun a here b alsoHere => apart a (Or.inl here) b (Or.inl alsoHere))
          (fun name here => agrees name (Or.inl here)),
        evaluateAll_rename rest
          (fun a later b alsoLater => apart a (Or.inr later) b (Or.inr alsoLater))
          (fun name later => agrees name (Or.inr later))]

end

/-- Replacing one parameter by another that the tree does not mention: what held of the first
holds of the second.
-/
theorem holds_replaced {source target : Parameter}
    {tree : Expression Parameter Operator}
    (unmentioned : target ∈ tree.parameters → target = source)
    (environment : Environment Parameter Value Error) (value : Except Error Value)
    : (tree.rename (fun name => if name = source then target else name)).holds interpretation
        (Function.update environment target value)
      = tree.holds interpretation (Function.update environment source value) := by
  unfold holds
  rw [evaluate_rename tree]
  · intro a inTree b alsoInTree same
    by_cases first : a = source
    · by_cases second : b = source
      · exact first.trans second.symm
      · rw [if_pos first, if_neg second] at same
        exact absurd (same.symm.trans (unmentioned (same ▸ alsoInTree))) second
    · by_cases second : b = source
      · rw [if_neg first, if_pos second] at same
        exact absurd (same.trans (unmentioned (same ▸ inTree))) first
      · rwa [if_neg first, if_neg second] at same
  · intro name inTree
    by_cases replaced : name = source
    · rw [if_pos replaced, replaced, Function.update_self, Function.update_self]
    · have kept : name ≠ target := by
        intro same
        exact replaced (same.trans (unmentioned (same ▸ inTree)))
      rw [if_neg replaced, Function.update_of_ne kept, Function.update_of_ne replaced]

end Evaluation

end Expression

end JobScheduler.Library
