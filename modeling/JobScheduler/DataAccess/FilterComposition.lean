import JobScheduler.Library.Expressions
import JobScheduler.DataAccess.DataAccessPolicy

/-! The composition of data-access rules on the expression trees that the rules build. Two
lambdas are combined under the parameter of the first: the parameter of the second is
replaced in its body. What the composed lambda does to an entity is told from what the
filters do, whatever the trees are made of.
-/

namespace JobScheduler

open Library

/-- A parameter of an expression tree is an object of its own, whatever its name. -/
structure ParameterExpression where
  reference : Nat
  deriving DecidableEq, Repr

/-- `Expression<Func<TEntity, bool>>`: a lambda with one parameter. -/
structure FilterExpression (Operator : Type) where
  parameter : ParameterExpression
  body : Expression ParameterExpression Operator

/-- A rule that builds its filter as an expression tree. -/
structure ExpressionRule (Operator : Type) where
  kind : DataAccessRuleKind
  buildFilter : DataAccessPolicyContext → FilterExpression Operator

namespace ParameterReplacingExpressionVisitor

def visitParameter (source target node : ParameterExpression) : ParameterExpression :=
  if node = source then target else node

/-- The base visitor rebuilds every node from its visited children, and a lambda from its
visited parameters too.
-/
def visit {Operator : Type} (source target : ParameterExpression)
    (node : Expression ParameterExpression Operator)
    : Expression ParameterExpression Operator :=
  node.rename (visitParameter source target)

end ParameterReplacingExpressionVisitor

namespace FilterExpression

variable {Operator : Type}

def combine (left right : FilterExpression Operator)
    (merge
      : Expression ParameterExpression Operator
        → Expression ParameterExpression Operator
        → Expression ParameterExpression Operator)
    : FilterExpression Operator :=
  let parameter := left.parameter
  let rightBody :=
    ParameterReplacingExpressionVisitor.visit right.parameter parameter right.body
  ⟨parameter, merge left.body rightBody⟩

/-- `Aggregate` without a seed; an empty array is `null` before it. -/
def combineAll
    (merge
      : Expression ParameterExpression Operator
        → Expression ParameterExpression Operator
        → Expression ParameterExpression Operator)
    : List (FilterExpression Operator) → Option (FilterExpression Operator)
  | [] => none
  | first :: rest => some (rest.foldl (fun left right => combine left right merge) first)

def combineAnd : List (FilterExpression Operator) → Option (FilterExpression Operator) :=
  combineAll .andAlso

def combineOr : List (FilterExpression Operator) → Option (FilterExpression Operator) :=
  combineAll .orElse

/-- `_ => true`, with the parameter object that this evaluation of the lambda creates. -/
def allowAll (newParameter : ParameterExpression) : FilterExpression Operator :=
  ⟨newParameter, .constant true⟩

/-- `Where(rule => rule.Kind == kind).Select(rule => rule.BuildFilter(context))`. -/
def filtersOf (kind : DataAccessRuleKind) (rules : List (ExpressionRule Operator))
    (context : DataAccessPolicyContext)
    : List (FilterExpression Operator) :=
  (rules.filter (·.kind = kind)).map (fun rule => rule.buildFilter context)

/-- `DataAccessRuleExpressionComposer.Compose`. -/
def compose (newParameter : ParameterExpression) (rules : List (ExpressionRule Operator))
    (context : DataAccessPolicyContext)
    : Except SchedulerException (FilterExpression Operator) :=
  if rules.isEmpty then
    .error (.invalidOperation
      "Data access policy for JobRecord must define at least one rule.")
  else
    let boundaries := filtersOf .boundary rules context
    let grants := filtersOf .grant rules context
    let filter := (combineAnd boundaries).getD (allowAll newParameter)
    match combineOr grants with
    | none => .ok filter
    | some grantFilter => .ok (combine filter grantFilter .andAlso)

-----------------------------------------------------------------------------------------
-- Evaluation of a filter
-----------------------------------------------------------------------------------------

section Evaluation

variable {Value Error : Type} (interpretation : Interpretation Operator Value Error)

/-- What the lambda answers for an entity. -/
def evaluate (entity : Value) (filter : FilterExpression Operator) : Except Error Bool :=
  filter.body.holds interpretation
    (Function.update (fun _ => .error interpretation.unbound) filter.parameter (.ok entity))

end Evaluation

/-- The tree mentions the parameter as its own one only. -/
def KeepsApart (filter : FilterExpression Operator) (parameter : ParameterExpression) : Prop :=
  parameter ∈ filter.body.parameters → parameter = filter.parameter

/-- Every filter has its own parameter object: no other tree mentions it, neither freely nor
in a nested lambda. Two filters may be the same tree.
-/
def OwnParameters (filters : List (FilterExpression Operator)) : Prop :=
  ∀ left ∈ filters, ∀ right ∈ filters, right.KeepsApart left.parameter

/-- A nested lambda over the parameter of another filter would capture the entity: next to
`x => x`, the filter `y => any(x => y)` becomes `any(x => x)`.
-/
example
    : let left : FilterExpression String := ⟨⟨0⟩, .parameter ⟨0⟩⟩
      let right : FilterExpression String :=
        ⟨⟨1⟩, .operation "any" [.lambda [⟨0⟩] (.parameter ⟨1⟩)]⟩
      ¬ right.KeepsApart left.parameter
      ∧ (combine left right .andAlso).body
        = .andAlso (.parameter ⟨0⟩) (.operation "any" [.lambda [⟨0⟩] (.parameter ⟨0⟩)]) := by
  refine ⟨?_, rfl⟩
  unfold KeepsApart
  decide

/-- A parameter created after the filters is not mentioned by them. -/
def NewParameter (filters : List (FilterExpression Operator))
    (newParameter : ParameterExpression)
    : Prop :=
  ∀ filter ∈ filters,
    newParameter ≠ filter.parameter ∧ newParameter ∉ filter.body.parameters

variable {Value Error : Type} {interpretation : Interpretation Operator Value Error}
  {left right : FilterExpression Operator}

/-- The replaced body holds of the parameter of the left lambda. -/
theorem holds_visit (apart : right.KeepsApart left.parameter) (entity : Value)
    : (ParameterReplacingExpressionVisitor.visit right.parameter left.parameter
          right.body).holds interpretation
        (Function.update (fun _ => .error interpretation.unbound) left.parameter (.ok entity))
      = right.evaluate interpretation entity :=
  Expression.holds_replaced apart _ _

theorem evaluate_combine_andAlso (apart : right.KeepsApart left.parameter) (entity : Value)
    : (combine left right .andAlso).evaluate interpretation entity
      = (do
          if ← left.evaluate interpretation entity then
            right.evaluate interpretation entity
          else
            return false) := by
  rw [← holds_visit apart]
  exact Expression.holds_andAlso interpretation _ _ _

theorem evaluate_combine_orElse (apart : right.KeepsApart left.parameter) (entity : Value)
    : (combine left right .orElse).evaluate interpretation entity
      = (do
          if ← left.evaluate interpretation entity then
            return true
          else
            right.evaluate interpretation entity) := by
  rw [← holds_visit apart]
  exact Expression.holds_orElse interpretation _ _ _

/-- A parameter that two trees keep apart is kept apart by their combination. -/
theorem KeepsApart.combine {parameter : ParameterExpression}
    {merge
      : Expression ParameterExpression Operator
        → Expression ParameterExpression Operator
        → Expression ParameterExpression Operator}
    (merges : ∀ a b, (merge a b).parameters = a.parameters ++ b.parameters)
    (apartLeft : left.KeepsApart parameter) (apartRight : right.KeepsApart parameter)
    : (combine left right merge).KeepsApart parameter := by
  intro mentioned
  rcases List.mem_append.mp (merges _ _ ▸ mentioned) with inLeft | inRight
  · exact apartLeft inLeft
  · rw [ParameterReplacingExpressionVisitor.visit, Expression.parameters_rename] at inRight
    obtain ⟨name, inBody, replaced⟩ := List.mem_map.mp inRight
    unfold ParameterReplacingExpressionVisitor.visitParameter at replaced
    by_cases source : name = right.parameter
    · rw [if_pos source] at replaced
      exact replaced.symm
    · rw [if_neg source] at replaced
      exact absurd (replaced.trans (apartRight (replaced ▸ inBody))) source

/-- The same for a whole aggregation, by induction on the filters. -/
theorem KeepsApart.foldl {parameter : ParameterExpression}
    {merge
      : Expression ParameterExpression Operator
        → Expression ParameterExpression Operator
        → Expression ParameterExpression Operator}
    (merges : ∀ a b, (merge a b).parameters = a.parameters ++ b.parameters)
    {first : FilterExpression Operator} {rest : List (FilterExpression Operator)}
    (apartFirst : first.KeepsApart parameter)
    (apartRest : ∀ filter ∈ rest, filter.KeepsApart parameter)
    : (rest.foldl (fun left right => FilterExpression.combine left right merge)
        first).KeepsApart parameter := by
  induction rest generalizing first with
  | nil => exact apartFirst
  | cons next rest ih =>
      apply ih
      · exact apartFirst.combine merges (apartRest next (List.mem_cons_self ..))
      · intro filter member
        exact apartRest filter (List.mem_cons_of_mem _ member)

/-- An aggregation keeps the parameter of its first lambda. -/
theorem parameter_foldl
    {merge
      : Expression ParameterExpression Operator
        → Expression ParameterExpression Operator
        → Expression ParameterExpression Operator}
    {first : FilterExpression Operator} {rest : List (FilterExpression Operator)}
    : (rest.foldl (fun left right => combine left right merge) first).parameter
      = first.parameter := by
  induction rest generalizing first with
  | nil => rfl
  | cons next rest ih => exact ih

-----------------------------------------------------------------------------------------
-- Aggregations
-----------------------------------------------------------------------------------------

/-- The conjunction asks its filters one after the other while they hold, by induction on the
filters.
-/
theorem evaluate_foldl_andAlso {first : FilterExpression Operator}
    {rest : List (FilterExpression Operator)}
    (apart : ∀ filter ∈ rest, filter.KeepsApart first.parameter) (entity : Value)
    : (rest.foldl (fun left right => combine left right .andAlso) first).evaluate
        interpretation entity
      = (first :: rest).allM (evaluate interpretation entity) := by
  induction rest generalizing first with
  | nil =>
      simp only [List.foldl_nil, List.allM_cons, List.allM_nil]
      cases first.evaluate interpretation entity with
      | error exception => rfl
      | ok answer => cases answer <;> rfl
  | cons next rest ih =>
      rw [List.foldl_cons, @ih (combine first next .andAlso)
          (fun filter member => apart filter (List.mem_cons_of_mem _ member)),
        List.allM_cons, evaluate_combine_andAlso (apart next (List.mem_cons_self ..)),
        List.allM_cons, List.allM_cons]
      cases first.evaluate interpretation entity with
      | error exception => rfl
      | ok answer => cases answer <;> rfl

/-- The disjunction asks its filters one after the other until one holds, by induction on the
filters.
-/
theorem evaluate_foldl_orElse {first : FilterExpression Operator}
    {rest : List (FilterExpression Operator)}
    (apart : ∀ filter ∈ rest, filter.KeepsApart first.parameter) (entity : Value)
    : (rest.foldl (fun left right => combine left right .orElse) first).evaluate
        interpretation entity
      = (first :: rest).anyM (evaluate interpretation entity) := by
  induction rest generalizing first with
  | nil =>
      simp only [List.foldl_nil, List.anyM_cons, List.anyM_nil]
      cases first.evaluate interpretation entity with
      | error exception => rfl
      | ok answer => cases answer <;> rfl
  | cons next rest ih =>
      rw [List.foldl_cons, @ih (combine first next .orElse)
          (fun filter member => apart filter (List.mem_cons_of_mem _ member)),
        List.anyM_cons, evaluate_combine_orElse (apart next (List.mem_cons_self ..)),
        List.anyM_cons, List.anyM_cons]
      cases first.evaluate interpretation entity with
      | error exception => rfl
      | ok answer => cases answer <;> rfl

-----------------------------------------------------------------------------------------
-- The composed lambda
-----------------------------------------------------------------------------------------

/-- What a policy says of an entity: every boundary has to hold, and one of the grants, if
there are any. The filters are asked in order, and no more of them than it takes.
-/
def verdict {Filter Error : Type} (test : Filter → Except Error Bool)
    (boundaries grants : List Filter)
    : Except Error Bool := do
  if ← boundaries.allM test then
    if grants.isEmpty then return true else grants.anyM test
  else
    return false

section Composed

variable {rules : List (ExpressionRule Operator)} {context : DataAccessPolicyContext}
  {newParameter : ParameterExpression}

/-- The filters of all rules. -/
def filters (rules : List (ExpressionRule Operator)) (context : DataAccessPolicyContext)
    : List (FilterExpression Operator) :=
  rules.map (fun rule => rule.buildFilter context)

theorem filtersOf_subset {kind : DataAccessRuleKind} {filter : FilterExpression Operator}
    (member : filter ∈ filtersOf kind rules context)
    : filter ∈ filters rules context := by
  obtain ⟨rule, ofKind, rfl⟩ := List.mem_map.mp member
  exact List.mem_map_of_mem (List.mem_of_mem_filter ofKind)

/-- The conjunction of the boundaries, with the parameter of the first one or the new one. -/
theorem evaluate_boundaries (own : OwnParameters (filters rules context)) (entity : Value)
    : ((combineAnd (filtersOf .boundary rules context)).getD
          (allowAll newParameter)).evaluate interpretation entity
      = (filtersOf .boundary rules context).allM (evaluate interpretation entity) := by
  cases boundaries : filtersOf .boundary rules context with
  | nil => exact congrArg Except.ok (interpretation.truth_ofBool true)
  | cons first rest =>
      have inRules (filter : FilterExpression Operator) (member : filter ∈ first :: rest)
          : filter ∈ filters rules context :=
        filtersOf_subset (boundaries ▸ member)
      apply evaluate_foldl_andAlso
      intro filter member
      exact own first (inRules first (List.mem_cons_self ..)) filter
        (inRules filter (List.mem_cons_of_mem _ member))

/-- The trees of the grants do not mention the parameter of the boundaries. -/
theorem grants_apart (own : OwnParameters (filters rules context))
    (created : NewParameter (filters rules context) newParameter)
    {grant : FilterExpression Operator} (member : grant ∈ filtersOf .grant rules context)
    : grant.KeepsApart
        ((combineAnd (filtersOf .boundary rules context)).getD
          (allowAll newParameter)).parameter := by
  cases boundaries : filtersOf .boundary rules context with
  | nil =>
      intro mentioned
      exact absurd mentioned (created grant (filtersOf_subset member)).2
  | cons first rest =>
      have kept : ((combineAnd (first :: rest)).getD
          (allowAll newParameter)).parameter = first.parameter :=
        parameter_foldl
      rw [kept]
      have inBoundaries : first ∈ filtersOf .boundary rules context :=
        boundaries ▸ List.mem_cons_self ..
      exact own first (filtersOf_subset inBoundaries) grant (filtersOf_subset member)

/-- The composed lambda gives the verdict of the filters, by the aggregations of the two
kinds of rules.
-/
theorem evaluate_compose (someRule : rules ≠ [])
    (own : OwnParameters (filters rules context))
    (created : NewParameter (filters rules context) newParameter)
    : ∃ filter,
        compose newParameter rules context = .ok filter
        ∧ ∀ {Value Error : Type} (interpretation : Interpretation Operator Value Error)
            (entity : Value),
            filter.evaluate interpretation entity
            = verdict (evaluate interpretation entity)
                (filtersOf .boundary rules context) (filtersOf .grant rules context) := by
  have nonempty : rules.isEmpty = false := by
    rw [List.isEmpty_eq_false_iff]
    exact someRule
  simp only [compose, nonempty, Bool.false_eq_true, if_false]
  cases grants : filtersOf .grant rules context with
  | nil =>
      refine ⟨_, rfl, ?_⟩
      intro Value Error interpretation entity
      rw [evaluate_boundaries own, verdict]
      cases (filtersOf .boundary rules context).allM (evaluate interpretation entity) with
      | error exception => rfl
      | ok answer => cases answer <;> rfl
  | cons first rest =>
      refine ⟨_, rfl, ?_⟩
      intro Value Error interpretation entity
      have apart (grant : FilterExpression Operator) (member : grant ∈ first :: rest)
          : grant.KeepsApart
              ((combineAnd (filtersOf .boundary rules context)).getD
                (allowAll newParameter)).parameter :=
        grants_apart own created (grants ▸ member)
      have inRules (grant : FilterExpression Operator) (member : grant ∈ first :: rest)
          : grant ∈ filters rules context :=
        filtersOf_subset (grants ▸ member)
      have combined : (rest.foldl (fun left right => combine left right .orElse)
            first).KeepsApart
          ((combineAnd (filtersOf .boundary rules context)).getD
            (allowAll newParameter)).parameter :=
        KeepsApart.foldl (fun _ _ => rfl) (apart first (List.mem_cons_self ..))
          (fun filter member => apart filter (List.mem_cons_of_mem _ member))
      rw [evaluate_combine_andAlso combined, evaluate_boundaries own,
        evaluate_foldl_orElse (fun filter member =>
          own first (inRules first (List.mem_cons_self ..)) filter
            (inRules filter (List.mem_cons_of_mem _ member)))]
      rfl

end Composed

end FilterExpression

end JobScheduler
