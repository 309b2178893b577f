import JobScheduler.DataAccess.FilterComposition

/-! The law of filter composition: the composed lambda admits an entity if all boundaries do
and one of the grants does, in whatever order the rules come, and another boundary never
admits more. The policies of the other modules, whose filters are functions, compute the same
as the trees.
-/

namespace JobScheduler

open Library

section Verdicts

variable {Filter Error : Type} {test : Filter → Except Error Bool} {filters : List Filter}

/-- Filters that answer are all asked without an exception, by induction on the list. -/
theorem allM_of_answers {answer : Filter → Bool}
    (answers : ∀ filter ∈ filters, test filter = .ok (answer filter))
    : filters.allM test = .ok (filters.all answer) := by
  induction filters with
  | nil => rfl
  | cons filter rest ih =>
      have later := ih (fun other member => answers other (List.mem_cons_of_mem _ member))
      rw [List.allM_cons, answers filter (List.mem_cons_self ..), later, List.all_cons]
      cases answer filter <;> rfl

theorem anyM_of_answers {answer : Filter → Bool}
    (answers : ∀ filter ∈ filters, test filter = .ok (answer filter))
    : filters.anyM test = .ok (filters.any answer) := by
  induction filters with
  | nil => rfl
  | cons filter rest ih =>
      have later := ih (fun other member => answers other (List.mem_cons_of_mem _ member))
      rw [List.anyM_cons, answers filter (List.mem_cons_self ..), later, List.any_cons]
      cases answer filter <;> rfl

/-- A conjunction holds if every filter of it holds, by induction on the list. -/
theorem allM_eq_true
    : filters.allM test = .ok true ↔ ∀ filter ∈ filters, test filter = .ok true := by
  induction filters with
  | nil => exact ⟨fun _ _ member => absurd member (List.not_mem_nil), fun _ => rfl⟩
  | cons filter rest ih =>
      rw [List.allM_cons, List.forall_mem_cons, ← ih]
      cases test filter with
      | error exception => exact ⟨nofun, nofun⟩
      | ok answer =>
          cases answer with
          | true => exact ⟨fun later => ⟨rfl, later⟩, And.right⟩
          | false => exact ⟨nofun, nofun⟩

/-- An entity is admitted if all boundaries hold and the grants do not object. -/
theorem verdict_eq_true {boundaries grants : List Filter}
    : FilterExpression.verdict test boundaries grants = .ok true
      ↔ (∀ boundary ∈ boundaries, test boundary = .ok true)
        ∧ (grants = [] ∨ grants.anyM test = .ok true) := by
  rw [← allM_eq_true, FilterExpression.verdict]
  cases boundaries.allM test with
  | error exception =>
      constructor
      · intro admitted
        cases admitted
      · intro both
        cases both.1
  | ok answer =>
      cases answer with
      | false =>
          constructor
          · intro admitted
            cases admitted
          · intro both
            cases both.1
      | true =>
          cases grants with
          | nil =>
              constructor
              · intro _
                exact ⟨rfl, Or.inl rfl⟩
              · intro _
                rfl
          | cons first rest =>
              constructor
              · intro granted
                exact ⟨rfl, Or.inr granted⟩
              · intro both
                exact both.2.resolve_left (List.cons_ne_nil first rest)

/-- Filters that answer give their conjunction, and the disjunction of the grants if there
are any.
-/
theorem verdict_of_answers {boundaries grants : List Filter} {answer : Filter → Bool}
    (bounded : ∀ filter ∈ boundaries, test filter = .ok (answer filter))
    (granted : ∀ filter ∈ grants, test filter = .ok (answer filter))
    : FilterExpression.verdict test boundaries grants
      = .ok (boundaries.all answer && (grants.isEmpty || grants.any answer)) := by
  rw [FilterExpression.verdict, allM_of_answers bounded, anyM_of_answers granted]
  cases boundaries.all answer with
  | false => rfl
  | true => cases grants.isEmpty <;> rfl

end Verdicts

section Law

variable {Operator : Type}

/-- There is a rule, every filter has a parameter object of its own, and the parameter that a
policy without boundaries creates is new.
-/
structure Composable (rules : List (ExpressionRule Operator))
    (context : DataAccessPolicyContext) (newParameter : ParameterExpression) : Prop where
  someRule : rules ≠ []
  own : FilterExpression.OwnParameters (FilterExpression.filters rules context)
  created
    : FilterExpression.NewParameter (FilterExpression.filters rules context) newParameter

namespace FilterExpression

variable {Value Error : Type} (interpretation : Interpretation Operator Value Error)
  (entity : Value)

/-- The lambda answers for the entity, and does not throw. -/
def Answers (filter : FilterExpression Operator) : Prop :=
  ∃ answer, filter.evaluate interpretation entity = .ok answer

/-- The lambda answers that the entity is admitted. -/
def admits (filter : FilterExpression Operator) : Bool :=
  match filter.evaluate interpretation entity with
  | .ok answer => answer
  | .error _ => false

theorem Answers.evaluate_eq {filter : FilterExpression Operator}
    (answers : filter.Answers interpretation entity)
    : filter.evaluate interpretation entity = .ok (filter.admits interpretation entity) := by
  obtain ⟨answer, evaluated⟩ := answers
  rw [admits, evaluated]

end FilterExpression

/-- What the composed lambda of the rules does. -/
structure CompositionLaw (rules : List (ExpressionRule Operator))
    (context : DataAccessPolicyContext) (composed : FilterExpression Operator) : Prop where
  /-- In general the filters are asked in order, until the verdict is certain. -/
  sequential
    : ∀ {Value Error : Type} (interpretation : Interpretation Operator Value Error)
        (entity : Value),
        composed.evaluate interpretation entity
        = FilterExpression.verdict (FilterExpression.evaluate interpretation entity)
            (FilterExpression.filtersOf .boundary rules context)
            (FilterExpression.filtersOf .grant rules context)
  /-- Where no filter throws, it is the conjunction of all boundaries, and if there are grants,
  of these with the disjunction of the grants. -/
  conjunction
    : ∀ {Value Error : Type} (interpretation : Interpretation Operator Value Error)
        (entity : Value),
        (∀ filter ∈ FilterExpression.filters rules context,
          filter.Answers interpretation entity)
        → composed.evaluate interpretation entity
          = .ok
              ((FilterExpression.filtersOf .boundary rules context).all
                  (FilterExpression.admits interpretation entity)
                && ((FilterExpression.filtersOf .grant rules context).isEmpty
                  || (FilterExpression.filtersOf .grant rules context).any
                    (FilterExpression.admits interpretation entity)))
  /-- Where no filter throws, the order of the rules makes no difference. -/
  reordered
    : ∀ {others : List (ExpressionRule Operator)} {newParameter : ParameterExpression},
        others.Perm rules
        → Composable others context newParameter
        → ∃ again,
            FilterExpression.compose newParameter others context = .ok again
            ∧ ∀ {Value Error : Type} (interpretation : Interpretation Operator Value Error)
                (entity : Value),
                (∀ filter ∈ FilterExpression.filters rules context,
                  filter.Answers interpretation entity)
                → again.evaluate interpretation entity
                  = composed.evaluate interpretation entity
  /-- One more boundary, anywhere in the list, admits nothing that was not admitted. -/
  narrowed
    : ∀ {before after : List (ExpressionRule Operator)} {boundary : ExpressionRule Operator}
        {newParameter : ParameterExpression},
        rules = before ++ after
        → boundary.kind = .boundary
        → Composable (before ++ boundary :: after) context newParameter
        → ∃ narrower,
            FilterExpression.compose newParameter (before ++ boundary :: after) context
              = .ok narrower
            ∧ ∀ {Value Error : Type} (interpretation : Interpretation Operator Value Error)
                (entity : Value),
                narrower.evaluate interpretation entity = .ok true
                → composed.evaluate interpretation entity = .ok true

namespace FilterExpression

variable {rules others before after : List (ExpressionRule Operator)}
  {boundary : ExpressionRule Operator} {context : DataAccessPolicyContext}

theorem filtersOf_perm (same : others.Perm rules) (kind : DataAccessRuleKind)
    : (filtersOf kind others context).Perm (filtersOf kind rules context) :=
  (same.filter _).map _

/-- Another boundary is no grant. -/
theorem grants_insert (bounds : boundary.kind = .boundary)
    : filtersOf .grant (before ++ boundary :: after) context
      = filtersOf .grant (before ++ after) context := by
  have skipped : decide (boundary.kind = .grant) = false := by
    rw [bounds]
    rfl
  simp only [filtersOf, List.filter_append, List.filter_cons, skipped, Bool.false_eq_true,
    if_false]

/-- The boundaries stay boundaries next to another one. -/
theorem boundaries_insert {filter : FilterExpression Operator}
    (member : filter ∈ filtersOf .boundary (before ++ after) context)
    : filter ∈ filtersOf .boundary (before ++ boundary :: after) context := by
  obtain ⟨rule, bounding, rfl⟩ := List.mem_map.mp member
  obtain ⟨there, kind⟩ := List.mem_filter.mp bounding
  refine List.mem_map_of_mem (List.mem_filter.mpr ⟨?_, kind⟩)
  rcases List.mem_append.mp there with first | last
  · exact List.mem_append_left _ first
  · exact List.mem_append_right _ (List.mem_cons_of_mem _ last)

/-- The verdict where no filter throws. -/
theorem verdict_filtersOf {Value Error : Type}
    {interpretation : Interpretation Operator Value Error} {entity : Value}
    (answers : ∀ filter ∈ filters rules context, filter.Answers interpretation entity)
    : verdict (evaluate interpretation entity) (filtersOf .boundary rules context)
        (filtersOf .grant rules context)
      = .ok
          ((filtersOf .boundary rules context).all (admits interpretation entity)
            && ((filtersOf .grant rules context).isEmpty
              || (filtersOf .grant rules context).any (admits interpretation entity))) := by
  apply verdict_of_answers
  · intro filter member
    exact (answers filter (filtersOf_subset member)).evaluate_eq
  · intro filter member
    exact (answers filter (filtersOf_subset member)).evaluate_eq

/-- Rules in another order give the same verdict where no filter throws. -/
theorem verdict_perm {Value Error : Type}
    {interpretation : Interpretation Operator Value Error} {entity : Value}
    (same : others.Perm rules)
    (answers : ∀ filter ∈ filters rules context, filter.Answers interpretation entity)
    : verdict (evaluate interpretation entity) (filtersOf .boundary others context)
        (filtersOf .grant others context)
      = verdict (evaluate interpretation entity) (filtersOf .boundary rules context)
          (filtersOf .grant rules context) := by
  have otherAnswers : ∀ filter ∈ filters others context,
      filter.Answers interpretation entity := by
    intro filter member
    exact answers filter ((same.map _).subset member)
  have boundaries : (filtersOf .boundary others context).Perm (filtersOf .boundary rules context) :=
    filtersOf_perm same .boundary
  have grants : (filtersOf .grant others context).Perm (filtersOf .grant rules context) :=
    filtersOf_perm same .grant
  rw [verdict_filtersOf otherAnswers, verdict_filtersOf answers, boundaries.all_eq,
    grants.any_eq, grants.isEmpty_eq]

/-- Under one more boundary the verdict is positive in fewer cases. -/
theorem verdict_insert {Error : Type} {test : FilterExpression Operator → Except Error Bool}
    (bounds : boundary.kind = .boundary)
    (admitted
      : verdict test (filtersOf .boundary (before ++ boundary :: after) context)
          (filtersOf .grant (before ++ boundary :: after) context)
        = .ok true)
    : verdict test (filtersOf .boundary (before ++ after) context)
        (filtersOf .grant (before ++ after) context)
      = .ok true := by
  obtain ⟨bounded, granted⟩ := verdict_eq_true.mp admitted
  rw [grants_insert bounds] at granted
  refine verdict_eq_true.mpr ⟨?_, granted⟩
  intro filter member
  exact bounded filter (boundaries_insert member)

end FilterExpression

/-- The composed lambda of rules with parameters of their own is sound and complete. -/
theorem compose_sound_and_complete {rules : List (ExpressionRule Operator)}
    {context : DataAccessPolicyContext} {newParameter : ParameterExpression}
    (composable : Composable rules context newParameter)
    : ∃ composed,
        FilterExpression.compose newParameter rules context = .ok composed
        ∧ CompositionLaw rules context composed := by
  obtain ⟨composed, made, sequential⟩ :=
    FilterExpression.evaluate_compose composable.someRule composable.own composable.created
  refine ⟨composed, made, sequential, ?_, ?_, ?_⟩
  · intro Value Error interpretation entity answers
    rw [sequential, FilterExpression.verdict_filtersOf answers]
  · intro others newParameter same composable
    obtain ⟨again, made, alsoSequential⟩ :=
      FilterExpression.evaluate_compose composable.someRule composable.own composable.created
    refine ⟨again, made, ?_⟩
    intro Value Error interpretation entity answers
    rw [alsoSequential, sequential, FilterExpression.verdict_perm same answers]
  · rintro before after boundary newParameter rfl bounds composable
    obtain ⟨narrower, made, alsoSequential⟩ :=
      FilterExpression.evaluate_compose composable.someRule composable.own composable.created
    refine ⟨narrower, made, ?_⟩
    intro Value Error interpretation entity admitted
    rw [alsoSequential] at admitted
    rw [sequential]
    exact FilterExpression.verdict_insert bounds admitted

end Law

/-- Numbers, their comparison, and `Any` over a captured array. -/
inductive SmallOperator
  | number (value : Nat)
  | equal
  | any (numbers : List Nat)
  deriving DecidableEq

inductive SmallValue
  | bool (value : Bool)
  | number (value : Nat)
  | predicate (run : Nat → Except String Bool)

def SmallValue.truth : SmallValue → Bool
  | .bool value => value
  | _ => false

def smallLanguage : Interpretation SmallOperator SmallValue String where
  apply
    | .number value, [] => .ok (.number value)
    | .equal, [.ok (.number left), .ok (.number right)] => .ok (.bool (left = right))
    | .any numbers, [.ok (.predicate run)] => (numbers.anyM run).map .bool
    | _, _ => .error "type"
  closure run := .predicate (fun value => (run [.number value]).map SmallValue.truth)
  ofBool := .bool
  truth := SmallValue.truth
  truth_ofBool _ := rfl
  unbound := "scope"

/-- `x => x == 3` as a boundary; `y => numbers.Any(z => z == y)`, twice the same tree, and
`w => w == 4` as grants.
-/
def smallRules : List (ExpressionRule SmallOperator) :=
  let inNumbers : ExpressionRule SmallOperator :=
    ⟨.grant, fun _ =>
      ⟨⟨1⟩, .operation (.any [3, 5])
        [.lambda [⟨2⟩] (.operation .equal [.parameter ⟨2⟩, .parameter ⟨1⟩])]⟩⟩
  [inNumbers,
    ⟨.boundary, fun _ =>
      ⟨⟨0⟩, .operation .equal [.parameter ⟨0⟩, .operation (.number 3) []]⟩⟩,
    inNumbers,
    ⟨.grant, fun _ =>
      ⟨⟨3⟩, .operation .equal [.parameter ⟨3⟩, .operation (.number 4) []]⟩⟩]

def smallContext : DataAccessPolicyContext where
  actor := ⟨"reader", "tenant-small", [], by decide, by decide⟩
  scope := .allTenants
  operation := .read

/-- The composed lambda of the small rules admits three, and not five. -/
theorem compose_sound_and_complete_small
    : ∃ composed,
        FilterExpression.compose ⟨9⟩ smallRules smallContext = .ok composed
        ∧ composed.evaluate smallLanguage (.number 3) = .ok true
        ∧ composed.evaluate smallLanguage (.number 5) = .ok false := by
  have composable : Composable smallRules smallContext ⟨9⟩ := by
    refine ⟨List.cons_ne_nil _ _, ?_, ?_⟩
    · unfold FilterExpression.OwnParameters FilterExpression.KeepsApart
      decide
    · unfold FilterExpression.NewParameter
      decide
  obtain ⟨composed, made, law⟩ := compose_sound_and_complete composable
  exact ⟨composed, made, (law.sequential smallLanguage (.number 3)).trans rfl,
    (law.sequential smallLanguage (.number 5)).trans rfl⟩

-----------------------------------------------------------------------------------------
-- Filters as functions
-----------------------------------------------------------------------------------------

namespace DataAccessRuleExpressionComposer

variable {Entity : Type}

/-- Combined functions answer the conjunction, by induction on the filters. -/
theorem foldl_combine_and {first : DataAccessFilter Entity}
    {rest : List (DataAccessFilter Entity)} (context : DataAccessPolicyContext)
    (entity : Entity)
    : rest.foldl (combine and) first context entity
      = (first :: rest).all (fun filter => filter context entity) := by
  induction rest generalizing first with
  | nil => simp
  | cons next rest ih => simp [ih, combine, Bool.and_assoc]

theorem foldl_combine_or {first : DataAccessFilter Entity}
    {rest : List (DataAccessFilter Entity)} (context : DataAccessPolicyContext)
    (entity : Entity)
    : rest.foldl (combine or) first context entity
      = (first :: rest).any (fun filter => filter context entity) := by
  induction rest generalizing first with
  | nil => simp
  | cons next rest ih => simp [ih, combine, Bool.or_assoc]

/-- The composed function, for all rule lists. -/
theorem compose_eq {rules : List (IDataAccessRule Entity)} (someRule : rules ≠ [])
    : ∃ filter,
        compose rules = .ok filter
        ∧ ∀ context entity,
            filter context entity
            = ((rules.filter (·.kind = .boundary)).all
                  (fun rule => rule.buildFilter context entity)
                && ((rules.filter (·.kind = .grant)).isEmpty
                  || (rules.filter (·.kind = .grant)).any
                    (fun rule => rule.buildFilter context entity))) := by
  have nonempty : rules.isEmpty = false := by
    rw [List.isEmpty_eq_false_iff]
    exact someRule
  have bounded (context : DataAccessPolicyContext) (entity : Entity)
      : ((combineAnd ((rules.filter (·.kind = .boundary)).map
            IDataAccessRule.buildFilter)).getD allowAll) context entity
        = (rules.filter (·.kind = .boundary)).all
            (fun rule => rule.buildFilter context entity) := by
    cases rules.filter (·.kind = .boundary) with
    | nil => rfl
    | cons first rest =>
        refine (foldl_combine_and context entity).trans ?_
        rw [← List.map_cons, List.all_map]
        rfl
  simp only [compose, nonempty, Bool.false_eq_true, if_false]
  cases grants : rules.filter (·.kind = .grant) with
  | nil =>
      refine ⟨_, rfl, ?_⟩
      intro context entity
      rw [bounded]
      simp
  | cons first rest =>
      refine ⟨_, rfl, ?_⟩
      intro context entity
      have granted := @foldl_combine_or Entity first.buildFilter
        (rest.map IDataAccessRule.buildFilter) context entity
      rw [← List.map_cons, List.any_map] at granted
      rw [combine, bounded, granted]
      rfl

end DataAccessRuleExpressionComposer

section Meaning

variable {Operator Value Error Entity : Type}
  (interpretation : DataAccessPolicyContext → Interpretation Operator Value Error)
  (ofEntity : Entity → Value)

/-- The function a tree stands for. The tree is built in one context and evaluated in others;
it admits nothing where it throws.
-/
def ExpressionRule.meaning (builtWith : DataAccessPolicyContext)
    (rule : ExpressionRule Operator)
    : IDataAccessRule Entity where
  kind := rule.kind
  buildFilter context entity :=
    (rule.buildFilter builtWith).admits (interpretation context) (ofEntity entity)

/-- Composing trees and composing the functions they stand for is the same, where no filter
throws.
-/
theorem compose_meaning {rules : List (ExpressionRule Operator)}
    {builtWith : DataAccessPolicyContext} {newParameter : ParameterExpression}
    (composable : Composable rules builtWith newParameter)
    : ∃ composed filter,
        FilterExpression.compose newParameter rules builtWith = .ok composed
        ∧ DataAccessRuleExpressionComposer.compose
            (rules.map (ExpressionRule.meaning interpretation ofEntity builtWith))
          = .ok filter
        ∧ ∀ context entity,
            (∀ tree ∈ FilterExpression.filters rules builtWith,
              tree.Answers (interpretation context) (ofEntity entity))
            → composed.evaluate (interpretation context) (ofEntity entity)
              = .ok (filter context entity) := by
  obtain ⟨composed, made, sequential⟩ :=
    FilterExpression.evaluate_compose composable.someRule composable.own composable.created
  have someRule : rules.map (ExpressionRule.meaning interpretation ofEntity builtWith) ≠ [] := by
    simpa using composable.someRule
  obtain ⟨filter, madeToo, answer⟩ := DataAccessRuleExpressionComposer.compose_eq someRule
  refine ⟨composed, filter, made, madeToo, ?_⟩
  intro context entity answers
  have ofKind (kind : DataAccessRuleKind)
      : (rules.map (ExpressionRule.meaning interpretation ofEntity builtWith)).filter
          (·.kind = kind)
        = (rules.filter (·.kind = kind)).map
            (ExpressionRule.meaning interpretation ofEntity builtWith) := by
    rw [List.filter_map]
    rfl
  rw [sequential, FilterExpression.verdict_filtersOf answers, answer, ofKind, ofKind]
  simp only [FilterExpression.filtersOf, List.all_map, List.any_map, List.isEmpty_map]
  rfl

end Meaning

-----------------------------------------------------------------------------------------
-- The rules of jobs as trees
-----------------------------------------------------------------------------------------

/-- The members and the comparison in the lambdas of the rules. -/
inductive JobFilterOperator
  | includesAllTenants
  | currentTenantId
  | currentActorId
  | canManageEmailJobs
  | canReadAllTenantsJobs
  | canExecuteJobs
  | tenantId
  | createdByActorId
  | equal
  deriving DecidableEq, Repr

inductive JobFilterValue (Entity : Type)
  | bool (value : Bool)
  | text (value : Option String)
  | entity (value : Entity)
  | delegate (run : Entity → Except SchedulerException Bool)

def JobFilterValue.truth {Entity : Type} : JobFilterValue Entity → Bool
  | .bool value => value
  | _ => false

section JobRules

variable {Entity : Type}

/-- The lambdas capture the context, so their members are read when they are evaluated. -/
def jobFilterLanguage (Entity : Type) [ITenantScoped Entity] [IActorOwned Entity]
    (context : DataAccessPolicyContext)
    : Interpretation JobFilterOperator (JobFilterValue Entity) SchedulerException where
  apply
    | .includesAllTenants, [] => .ok (.bool context.includesAllTenants)
    | .currentTenantId, [] => .ok (.text context.currentTenantId)
    | .currentActorId, [] => .ok (.text (some context.currentActorId))
    | .canManageEmailJobs, [] => .ok (.bool context.canManageEmailJobs)
    | .canReadAllTenantsJobs, [] => .ok (.bool context.canReadAllTenantsJobs)
    | .canExecuteJobs, [] => .ok (.bool context.canExecuteJobs)
    | .tenantId, [.ok (.entity value)] => .ok (.text (some (ITenantScoped.tenantId value)))
    | .createdByActorId, [.ok (.entity value)] =>
        .ok (.text (some (IActorOwned.createdByActorId value)))
    | .equal, [.ok (.text left), .ok (.text right)] => .ok (.bool (left = right))
    | _, _ => .error (.invalidOperation "The operand has another type.")
  closure run := .delegate (fun entity => (run [.entity entity]).map JobFilterValue.truth)
  ofBool := .bool
  truth := JobFilterValue.truth
  truth_ofBool _ := rfl
  unbound := .invalidOperation "The parameter is not in scope."

namespace ExpressionRule

variable (parameter : ParameterExpression)

def tenantBoundaryRule : ExpressionRule JobFilterOperator where
  kind := .boundary
  buildFilter _ :=
    ⟨parameter,
      .orElse (.operation .includesAllTenants [])
        (.operation .equal
          [.operation .tenantId [.parameter parameter], .operation .currentTenantId []])⟩

def ownerGrantRule : ExpressionRule JobFilterOperator where
  kind := .grant
  buildFilter _ :=
    ⟨parameter,
      .operation .equal
        [.operation .createdByActorId [.parameter parameter], .operation .currentActorId []]⟩

def emailManageGrantRule : ExpressionRule JobFilterOperator where
  kind := .grant
  buildFilter _ := ⟨parameter, .operation .canManageEmailJobs []⟩

def globalReadGrantRule : ExpressionRule JobFilterOperator where
  kind := .grant
  buildFilter _ := ⟨parameter, .operation .canReadAllTenantsJobs []⟩

def executeGrantRule : ExpressionRule JobFilterOperator where
  kind := .grant
  buildFilter _ := ⟨parameter, .operation .canExecuteJobs []⟩

end ExpressionRule

/-- The rule lists of `JobDataAccessPolicy`; each lambda gets a parameter object of its own. -/
def jobExpressionRules (operation : DataAccessOperation)
    (boundary owner manager last : ParameterExpression)
    : List (ExpressionRule JobFilterOperator) :=
  [.tenantBoundaryRule boundary, .ownerGrantRule owner, .emailManageGrantRule manager,
    match operation with
    | .read => .globalReadGrantRule last
    | .mutate => .executeGrantRule last]

variable [ITenantScoped Entity] [IActorOwned Entity]

/-- The lambda answers what the rule's function answers, for every entity. -/
structure ExpressionRule.Computes (tree : ExpressionRule JobFilterOperator)
    (rule : IDataAccessRule Entity) : Prop where
  kind : tree.kind = rule.kind
  evaluates
    : ∀ builtWith context entity,
        (tree.buildFilter builtWith).evaluate (jobFilterLanguage Entity context)
          (.entity entity)
        = .ok (rule.buildFilter context entity)

namespace ExpressionRule

variable (parameter : ParameterExpression)

theorem tenantBoundaryRule_computes
    : (tenantBoundaryRule parameter).Computes (JobScheduler.tenantBoundaryRule Entity) where
  kind := rfl
  evaluates builtWith context entity := by
    simp only [FilterExpression.evaluate, tenantBoundaryRule, Expression.holds,
      Expression.evaluate, Expression.evaluateAll, Function.update_self]
    simp only [jobFilterLanguage, JobFilterValue.truth, JobScheduler.tenantBoundaryRule]
    cases context.includesAllTenants with
    | true => rfl
    | false => rfl

theorem ownerGrantRule_computes
    : (ownerGrantRule parameter).Computes (JobScheduler.ownerGrantRule Entity) where
  kind := rfl
  evaluates builtWith context entity := by
    simp only [FilterExpression.evaluate, ownerGrantRule, Expression.holds,
      Expression.evaluate, Expression.evaluateAll, Function.update_self]
    simp only [jobFilterLanguage, JobFilterValue.truth, JobScheduler.ownerGrantRule, Except.map,
      Option.some.injEq]

theorem emailManageGrantRule_computes
    : (emailManageGrantRule parameter).Computes
        (JobScheduler.emailManageGrantRule Entity) where
  kind := rfl
  evaluates _ _ _ := rfl

theorem globalReadGrantRule_computes
    : (globalReadGrantRule parameter).Computes (JobScheduler.globalReadGrantRule Entity) where
  kind := rfl
  evaluates _ _ _ := rfl

theorem executeGrantRule_computes
    : (executeGrantRule parameter).Computes (JobScheduler.executeGrantRule Entity) where
  kind := rfl
  evaluates _ _ _ := rfl

variable {parameter}

theorem Computes.meaning {tree : ExpressionRule JobFilterOperator}
    {rule : IDataAccessRule Entity} (computes : tree.Computes rule)
    (builtWith : DataAccessPolicyContext)
    : tree.meaning (jobFilterLanguage Entity) .entity builtWith = rule := by
  cases rule with
  | mk kind buildFilter =>
      unfold ExpressionRule.meaning
      congr 1
      · exact computes.kind
      · funext context entity
        rw [FilterExpression.admits, computes.evaluates]

/-- Trees that compute functions stand for them, and never throw, by induction on the rules. -/
theorem Computes.all {trees : List (ExpressionRule JobFilterOperator)}
    {rules : List (IDataAccessRule Entity)} (builtWith : DataAccessPolicyContext)
    (computes : List.Forall₂ Computes trees rules)
    : trees.map (ExpressionRule.meaning (jobFilterLanguage Entity) .entity builtWith) = rules
      ∧ ∀ tree ∈ FilterExpression.filters trees builtWith, ∀ context (entity : Entity),
          tree.Answers (jobFilterLanguage Entity context) (.entity entity) := by
  induction computes with
  | nil => exact ⟨rfl, nofun⟩
  | cons first _ ih =>
      refine ⟨by rw [List.map_cons, first.meaning, ih.1], ?_⟩
      rw [FilterExpression.filters, List.map_cons, List.forall_mem_cons]
      exact ⟨fun context entity => ⟨_, first.evaluates builtWith context entity⟩, ih.2⟩

end ExpressionRule

/-- The trees of a policy's rules compute the policy's functions, rule by rule. -/
theorem jobExpressionRules_compute (operation : DataAccessOperation)
    (boundary owner manager last : ParameterExpression)
    : ∃ operationRules,
        (jobDataAccessPolicy Entity).rulesByOperation operation = some operationRules
        ∧ List.Forall₂ ExpressionRule.Computes
            (jobExpressionRules operation boundary owner manager last)
            ((jobDataAccessPolicy Entity).commonRules ++ operationRules) := by
  have bounds := @ExpressionRule.tenantBoundaryRule_computes Entity _ _ boundary
  have owns := @ExpressionRule.ownerGrantRule_computes Entity _ _ owner
  have manages := @ExpressionRule.emailManageGrantRule_computes Entity _ _ manager
  cases operation with
  | read =>
      have reads := @ExpressionRule.globalReadGrantRule_computes Entity _ _ last
      exact ⟨_, rfl, .cons bounds (.cons owns (.cons manages (.cons reads .nil)))⟩
  | mutate =>
      have executes := @ExpressionRule.executeGrantRule_computes Entity _ _ last
      exact ⟨_, rfl, .cons bounds (.cons owns (.cons manages (.cons executes .nil)))⟩

omit [ITenantScoped Entity] [IActorOwned Entity] in
/-- The lambdas of a policy's rules mention their own parameters only. -/
theorem jobExpressionRules_composable (builtWith : DataAccessPolicyContext)
    {operation : DataAccessOperation}
    {boundary owner manager last newParameter : ParameterExpression}
    (created : newParameter ∉ [boundary, owner, manager, last])
    : Composable (jobExpressionRules operation boundary owner manager last) builtWith
        newParameter := by
  have closed
      : ∀ filter
          ∈ FilterExpression.filters (jobExpressionRules operation boundary owner manager last)
              builtWith,
          filter.parameter ∈ [boundary, owner, manager, last]
          ∧ ∀ name ∈ filter.body.parameters, name = filter.parameter := by
    intro filter member
    cases operation with
    | read | mutate =>
        simp only [FilterExpression.filters, jobExpressionRules, List.map_cons, List.map_nil,
          List.mem_cons, List.not_mem_nil, or_false] at member
        rcases member with rfl | rfl | rfl | rfl
        · exact ⟨by simp [ExpressionRule.tenantBoundaryRule], by
            simp [ExpressionRule.tenantBoundaryRule, Expression.parameters,
              Expression.parametersOf]⟩
        · exact ⟨by simp [ExpressionRule.ownerGrantRule], by
            simp [ExpressionRule.ownerGrantRule, Expression.parameters,
              Expression.parametersOf]⟩
        · exact ⟨by simp [ExpressionRule.emailManageGrantRule], nofun⟩
        · exact ⟨by simp [ExpressionRule.globalReadGrantRule,
            ExpressionRule.executeGrantRule], nofun⟩
  refine ⟨List.cons_ne_nil _ _, ?_, ?_⟩
  · intro left _ right inRight mentioned
    exact (closed right inRight).2 _ mentioned
  · intro filter member
    obtain ⟨own, only⟩ := closed filter member
    have different : newParameter ≠ filter.parameter := by
      intro same
      exact created (same ▸ own)
    exact ⟨different, fun mentioned => different (only _ mentioned)⟩

/-- The composed lambda of the job policy computes the policy's filter. -/
theorem compose_jobExpressionRules (builtWith : DataAccessPolicyContext)
    {boundary owner manager last newParameter : ParameterExpression}
    (created : newParameter ∉ [boundary, owner, manager, last])
    : ∃ composed filter,
        FilterExpression.compose newParameter
            (jobExpressionRules builtWith.operation boundary owner manager last) builtWith
          = .ok composed
        ∧ (jobDataAccessPolicy Entity).buildFilter builtWith = .ok filter
        ∧ ∀ context entity,
            composed.evaluate (jobFilterLanguage Entity context) (.entity entity)
            = .ok (filter context entity) := by
  obtain ⟨operationRules, found, computes⟩ :=
    @jobExpressionRules_compute Entity _ _ builtWith.operation boundary owner manager last
  obtain ⟨composed, filter, made, functions, evaluates⟩ :=
    compose_meaning (jobFilterLanguage Entity) JobFilterValue.entity
      (@jobExpressionRules_composable builtWith builtWith.operation _ _ _ _ _ created)
  obtain ⟨sameRules, answers⟩ := ExpressionRule.Computes.all builtWith computes
  refine ⟨composed, filter, made, ?_, ?_⟩
  · rw [DataAccessPolicy.buildFilter, found, ← functions, sameRules]
  · intro context entity
    exact evaluates context entity (fun tree member => answers tree member context entity)

end JobRules

end JobScheduler
