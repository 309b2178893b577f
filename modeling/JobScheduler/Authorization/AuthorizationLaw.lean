import Mathlib.Data.Multiset.Lattice
import JobScheduler.Authorization.AuthorizationRules

/-! The law behind the evaluation of rules. Decisions are ordered by strength, `Skip` below
`Allow` below `Deny`, and a loop over rules decides as the strongest of them does. The order
and the grouping of grant rules then have no influence.
-/

namespace JobScheduler

namespace JobAuthorizationDecision

/-- A denial outweighs everything, and skipping outweighs nothing. -/
def strength : JobAuthorizationDecision → Nat
  | .skip => 0
  | .allow => 1
  | .deny => 2

theorem strength_injective : Function.Injective strength := by
  intro a b same
  cases a <;> cases b <;> first | rfl | cases same

instance : LinearOrder JobAuthorizationDecision :=
  LinearOrder.lift' strength strength_injective

instance : BoundedOrder JobAuthorizationDecision where
  bot := .skip
  bot_le _ := Nat.zero_le _
  top := .deny
  le_top decision := by cases decision <;> decide

/-- The strongest of the decisions, whatever their order; `Skip` when there are none. -/
def strongest (decisions : List JobAuthorizationDecision) : JobAuthorizationDecision :=
  (decisions : Multiset JobAuthorizationDecision).sup

@[simp] theorem strongest_nil : strongest [] = .skip := rfl

@[simp] theorem strongest_cons (decision : JobAuthorizationDecision)
    (decisions : List JobAuthorizationDecision)
    : strongest (decision :: decisions) = decision ⊔ strongest decisions := by
  rw [strongest, ← Multiset.cons_coe, Multiset.sup_cons]
  rfl

theorem strongest_append (left right : List JobAuthorizationDecision)
    : strongest (left ++ right) = strongest left ⊔ strongest right := by
  rw [strongest, ← Multiset.coe_add, Multiset.sup_add]
  rfl

theorem strongest_perm {left right : List JobAuthorizationDecision}
    (same : left.Perm right)
    : strongest left = strongest right :=
  congrArg Multiset.sup (Multiset.coe_eq_coe.mpr same)

/-- One denial decides, by induction on the decisions. -/
theorem strongest_eq_deny {decisions : List JobAuthorizationDecision}
    : strongest decisions = .deny ↔ .deny ∈ decisions := by
  induction decisions with
  | nil => decide
  | cons decision rest ih =>
      rw [strongest_cons, List.mem_cons, ← ih]
      generalize strongest rest = others
      cases decision <;> cases others <;> decide

/-- Without a denial one `Allow` decides, by induction on the decisions. -/
theorem strongest_eq_allow {decisions : List JobAuthorizationDecision}
    : strongest decisions = .allow ↔ .deny ∉ decisions ∧ .allow ∈ decisions := by
  induction decisions with
  | nil => decide
  | cons decision rest ih =>
      rw [strongest_cons, List.mem_cons, List.mem_cons]
      by_cases denied : .deny ∈ rest
      · rw [strongest_eq_deny.mpr denied]
        simp only [denied, or_true, not_true_eq_false, false_and, iff_false]
        cases decision <;> decide
      · have others : strongest rest ≠ .deny := strongest_eq_deny.not.mpr denied
        have allowed : .allow ∈ rest ↔ strongest rest = .allow := by
          rw [ih]
          exact (and_iff_right denied).symm
        rw [allowed]
        simp only [denied, or_false]
        generalize strongest rest = weight at others
        revert others
        cases decision <;> cases weight <;> decide

end JobAuthorizationDecision

/-- The decision of a rule about an actor. -/
def IJobAuthorizationRule.decides (actor : JobActor) (rule : IJobAuthorizationRule)
    : JobAuthorizationDecision :=
  (rule.evaluate actor).decision

open JobAuthorizationDecision

/-- The loop over rules decides as the strongest rule, by induction on the rules; what
`anyAllow` remembers counts as one more `Allow`.
-/
theorem evaluateInOrder_decision (actor : JobActor) (anyAllow : Bool)
    (rules : List IJobAuthorizationRule)
    : (evaluateInOrder actor anyAllow rules).decision
      = (if anyAllow then .allow else .skip) ⊔ strongest (rules.map (·.decides actor)) := by
  induction rules generalizing anyAllow with
  | nil => cases anyAllow <;> rfl
  | cons rule rest ih =>
      rw [List.map_cons, strongest_cons, evaluateInOrder]
      by_cases denies : (rule.evaluate actor).decision = .deny
      · have decided : rule.decides actor = ⊤ := denies
        simp only [denies, if_true, decided, top_sup_eq, sup_top_eq]
        rfl
      · simp only [denies, if_false, ih]
        rw [← sup_assoc]
        congr 1
        change _ = _ ⊔ (rule.evaluate actor).decision
        revert denies
        cases anyAllow <;> cases (rule.evaluate actor).decision <;> decide

-----------------------------------------------------------------------------------------
-- Trees of rules
-----------------------------------------------------------------------------------------

/-- A rule of the kind `Grant`: a single one, or `AnyOf` over at least one of them. -/
inductive GrantRule
  | single (evaluate : JobActor → JobAuthorizationResult)
  | anyOf (first : GrantRule) (rest : List GrantRule)

namespace GrantRule

mutual
/-- The rule object the source evaluates. -/
def toRule : GrantRule → IJobAuthorizationRule
  | single evaluate => ⟨.grant, evaluate⟩
  | anyOf first rest =>
      ⟨.grant, fun actor => evaluateInOrder actor false (first.toRule :: toRules rest)⟩

def toRules : List GrantRule → List IJobAuthorizationRule
  | [] => []
  | rule :: rest => rule.toRule :: toRules rest
end

mutual
/-- The single rules of the tree, in order. -/
def leaves : GrantRule → List IJobAuthorizationRule
  | single evaluate => [⟨.grant, evaluate⟩]
  | anyOf first rest => first.leaves ++ leavesOf rest

def leavesOf : List GrantRule → List IJobAuthorizationRule
  | [] => []
  | rule :: rest => rule.leaves ++ leavesOf rest
end

theorem toRules_eq (rules : List GrantRule) : toRules rules = rules.map toRule := by
  induction rules with
  | nil => rfl
  | cons rule rest ih => rw [toRules, ih, List.map_cons]

theorem leavesOf_eq (rules : List GrantRule) : leavesOf rules = rules.flatMap leaves := by
  induction rules with
  | nil => rfl
  | cons rule rest ih => rw [leavesOf, ih, List.flatMap_cons]

/-- An `AnyOf` rule is what the constructor makes of its rules. -/
theorem toRule_anyOf (first : GrantRule) (rest : List GrantRule)
    : anyOfJobAuthorizationRule ((first :: rest).map toRule)
      = .ok (anyOf first rest).toRule := by
  rw [List.map_cons, ← toRules_eq, toRule]
  rfl

mutual
/-- A tree decides as the strongest of its leaves, by induction on the tree. -/
theorem decides_eq (actor : JobActor) (rule : GrantRule)
    : rule.toRule.decides actor = strongest (rule.leaves.map (·.decides actor)) := by
  cases rule with
  | single evaluate =>
      rw [leaves, toRule, List.map_singleton, strongest_cons, strongest_nil]
      exact (sup_bot_eq _).symm
  | anyOf first rest =>
      rw [leaves, toRule, IJobAuthorizationRule.decides, evaluateInOrder_decision,
        List.map_cons, strongest_cons, decides_eq actor first, decidesAll_eq actor rest,
        List.map_append, strongest_append]
      exact bot_sup_eq _
termination_by sizeOf rule

theorem decidesAll_eq (actor : JobActor) (rules : List GrantRule)
    : strongest ((toRules rules).map (·.decides actor))
      = strongest ((leavesOf rules).map (·.decides actor)) := by
  cases rules with
  | nil => rfl
  | cons rule rest =>
      rw [toRules, leavesOf, List.map_cons, strongest_cons, decides_eq actor rule,
        decidesAll_eq actor rest, List.map_append, strongest_append]
termination_by sizeOf rules
end

mutual
/-- Every leaf of a grant rule is a grant rule, by induction on the tree. -/
theorem leaves_grant (rule : GrantRule) : ∀ leaf ∈ rule.leaves, leaf.kind = .grant := by
  cases rule with
  | single evaluate =>
      intro leaf member
      rw [List.mem_singleton.mp member]
  | anyOf first rest =>
      intro leaf member
      rcases List.mem_append.mp member with here | there
      · exact leaves_grant first leaf here
      · exact leavesOf_grant rest leaf there
termination_by sizeOf rule

theorem leavesOf_grant (rules : List GrantRule)
    : ∀ leaf ∈ leavesOf rules, leaf.kind = .grant := by
  cases rules with
  | nil => simp [leavesOf]
  | cons rule rest =>
      intro leaf member
      rcases List.mem_append.mp member with here | there
      · exact leaves_grant rule leaf here
      · exact leavesOf_grant rest leaf there
termination_by sizeOf rules
end

end GrantRule

/-- A rule of either kind; `AnyOf` builds grant rules only. -/
inductive AuthorizationRuleTree
  | deny (evaluate : JobActor → JobAuthorizationResult)
  | grant (rule : GrantRule)

namespace AuthorizationRuleTree

def toRule : AuthorizationRuleTree → IJobAuthorizationRule
  | deny evaluate => ⟨.deny, evaluate⟩
  | grant rule => rule.toRule

def leaves : AuthorizationRuleTree → List IJobAuthorizationRule
  | deny evaluate => [⟨.deny, evaluate⟩]
  | grant rule => rule.leaves

/-- The rules of one kind decide as their leaves of that kind, tree by tree. -/
theorem strongest_ofKind (actor : JobActor) (kind : JobAuthorizationRuleKind)
    (rules : List AuthorizationRuleTree)
    : strongest (((rules.map toRule).filter (·.kind = kind)).map (·.decides actor))
      = strongest (((rules.flatMap leaves).filter (·.kind = kind)).map (·.decides actor)) := by
  induction rules with
  | nil => rfl
  | cons rule rest ih =>
      have here : strongest (([rule.toRule].filter (·.kind = kind)).map (·.decides actor))
          = strongest ((rule.leaves.filter (·.kind = kind)).map (·.decides actor)) := by
        cases rule with
        | deny evaluate => rfl
        | grant rule =>
            have kinds := rule.leaves_grant
            have top : rule.toRule.kind = .grant := by cases rule <;> rfl
            cases kind with
            | deny =>
                have none : rule.leaves.filter (·.kind = .deny) = [] := by
                  rw [List.filter_eq_nil_iff]
                  intro leaf member
                  simp [kinds leaf member]
                simp [leaves, toRule, none, top]
            | grant =>
                have all : rule.leaves.filter (·.kind = .grant) = rule.leaves := by
                  rw [List.filter_eq_self]
                  intro leaf member
                  simp [kinds leaf member]
                rw [leaves, all, ← GrantRule.decides_eq]
                simp only [toRule, top, decide_true, List.filter_cons_of_pos,
                  List.filter_nil, List.map_cons, List.map_nil, strongest_cons,
                  strongest_nil]
                exact sup_bot_eq _
      rw [List.map_cons, List.flatMap_cons, List.filter_append, List.map_append,
        strongest_append, ← ih, ← here, ← strongest_append, ← List.map_append,
        ← List.filter_append, List.singleton_append]

end AuthorizationRuleTree

namespace JobAuthorizationRuleEvaluator

theorem evaluateRulesByKind_decision (actor : JobActor) (rules : List IJobAuthorizationRule)
    (kind : JobAuthorizationRuleKind)
    : (evaluateRulesByKind actor rules kind).decision
      = strongest ((rules.filter (·.kind = kind)).map (·.decides actor)) := by
  rw [evaluateRulesByKind, evaluateInOrder_decision]
  exact bot_sup_eq _

/-- The evaluator allows exactly when no rule of either kind denies and some grant rule
allows; otherwise it denies.
-/
theorem evaluate_decision (actor : JobActor) (rules : List IJobAuthorizationRule)
    : (evaluate actor rules).decision
      = if strongest ((rules.filter (·.kind = .deny)).map (·.decides actor)) ≠ .deny
          ∧ strongest ((rules.filter (·.kind = .grant)).map (·.decides actor)) = .allow then
          .allow
        else
          .deny := by
  rw [← evaluateRulesByKind_decision, ← evaluateRulesByKind_decision, evaluate]
  cases boundary : (evaluateRulesByKind actor rules .deny).decision <;>
    cases grant : (evaluateRulesByKind actor rules .grant).decision <;>
    simp [boundary, grant, JobAuthorizationResult.allow, JobAuthorizationResult.deny]

/-- Single rules are authorized when none denies and a grant rule allows. -/
theorem evaluate_isAuthorized (actor : JobActor) (rules : List IJobAuthorizationRule)
    : (evaluate actor rules).isAuthorized = true
      ↔ (∀ rule ∈ rules, rule.decides actor ≠ .deny)
        ∧ ∃ rule ∈ rules, rule.kind = .grant ∧ rule.decides actor = .allow := by
  have ofKind (kind : JobAuthorizationRuleKind) (decision : JobAuthorizationDecision)
      : decision ∈ (rules.filter (·.kind = kind)).map (·.decides actor)
        ↔ ∃ rule ∈ rules, rule.kind = kind ∧ rule.decides actor = decision := by
    simp [and_assoc]
  rw [JobAuthorizationResult.isAuthorized, decide_eq_true_iff, evaluate_decision,
    Ne.ite_eq_left_iff (by decide), ne_eq, strongest_eq_deny, strongest_eq_allow, ofKind,
    ofKind, ofKind]
  constructor
  · rintro ⟨noDeny, noDenyingGrant, granted⟩
    refine ⟨?_, granted⟩
    intro rule member denies
    cases kind : rule.kind with
    | deny => exact noDeny ⟨rule, member, kind, denies⟩
    | grant => exact noDenyingGrant ⟨rule, member, kind, denies⟩
  · rintro ⟨noDeny, granted⟩
    refine ⟨?_, ?_, granted⟩
    · rintro ⟨rule, member, -, denies⟩
      exact noDeny rule member denies
    · rintro ⟨rule, member, -, denies⟩
      exact noDeny rule member denies

/-- The decision does not depend on the order of the rules. -/
theorem evaluate_decision_perm (actor : JobActor) {rules twin : List IJobAuthorizationRule}
    (same : rules.Perm twin)
    : (evaluate actor rules).decision = (evaluate actor twin).decision := by
  rw [evaluate_decision, evaluate_decision, strongest_perm ((same.filter _).map _),
    strongest_perm ((same.filter (fun rule => rule.kind = .grant)).map _)]

/-- Trees of rules are decided as the list of all their leaves. -/
theorem evaluate_leaves (actor : JobActor) (rules : List AuthorizationRuleTree)
    : (evaluate actor (rules.map AuthorizationRuleTree.toRule)).decision
      = (evaluate actor (rules.flatMap AuthorizationRuleTree.leaves)).decision := by
  rw [evaluate_decision, evaluate_decision, AuthorizationRuleTree.strongest_ofKind,
    AuthorizationRuleTree.strongest_ofKind]

/-- Trees with the same leaves up to order are decided alike. -/
theorem evaluate_regrouped (actor : JobActor) {rules twin : List AuthorizationRuleTree}
    (same
      : (rules.flatMap AuthorizationRuleTree.leaves).Perm
          (twin.flatMap AuthorizationRuleTree.leaves))
    : (evaluate actor (rules.map AuthorizationRuleTree.toRule)).decision
      = (evaluate actor (twin.map AuthorizationRuleTree.toRule)).decision := by
  rw [evaluate_leaves, evaluate_leaves, evaluate_decision_perm actor same]

end JobAuthorizationRuleEvaluator

open JobAuthorizationRuleEvaluator

/-- The decision law. The evaluator authorizes exactly when no leaf of any rule denies and a
leaf of the kind `Grant` allows. Hence rule trees with the same leaves are decided alike,
and in particular the order of the list, the order inside an `AnyOf`, and the grouping by
`AnyOf` do not matter.
-/
theorem evaluate_authorizes_iff (actor : JobActor) (rules : List AuthorizationRuleTree)
    : ((evaluate actor (rules.map AuthorizationRuleTree.toRule)).isAuthorized = true
        ↔ (∀ leaf ∈ rules.flatMap AuthorizationRuleTree.leaves,
            (leaf.evaluate actor).decision ≠ .deny)
          ∧ ∃ leaf ∈ rules.flatMap AuthorizationRuleTree.leaves,
              leaf.kind = .grant ∧ (leaf.evaluate actor).decision = .allow)
      ∧ (∀ twin : List AuthorizationRuleTree,
          (rules.flatMap AuthorizationRuleTree.leaves).Perm
              (twin.flatMap AuthorizationRuleTree.leaves)
          → (evaluate actor (rules.map AuthorizationRuleTree.toRule)).decision
            = (evaluate actor (twin.map AuthorizationRuleTree.toRule)).decision)
      ∧ (∀ twin : List AuthorizationRuleTree,
          rules.Perm twin
          → (evaluate actor (rules.map AuthorizationRuleTree.toRule)).decision
            = (evaluate actor (twin.map AuthorizationRuleTree.toRule)).decision)
      ∧ (∀ (before after : List AuthorizationRuleTree) (first other : GrantRule)
            (rest others : List GrantRule),
          rules = before ++ .grant (.anyOf first rest) :: after
          → (first :: rest).Perm (other :: others)
          → (evaluate actor (rules.map AuthorizationRuleTree.toRule)).decision
            = (evaluate actor
                ((before ++ .grant (.anyOf other others) :: after).map
                  AuthorizationRuleTree.toRule)).decision)
      ∧ ∀ (before after : List AuthorizationRuleTree) (first : GrantRule)
            (rest : List GrantRule),
          rules = before ++ .grant (.anyOf first rest) :: after
          → (evaluate actor (rules.map AuthorizationRuleTree.toRule)).decision
            = (evaluate actor
                ((before ++ (first :: rest).map AuthorizationRuleTree.grant ++ after).map
                  AuthorizationRuleTree.toRule)).decision := by
  have leavesOfAnyOf (first : GrantRule) (rest : List GrantRule)
      : (GrantRule.anyOf first rest).leaves = (first :: rest).flatMap GrantRule.leaves := by
    rw [GrantRule.leaves, GrantRule.leavesOf_eq, List.flatMap_cons]
  refine ⟨?_, ?_, ?_, ?_, ?_⟩
  · rw [JobAuthorizationResult.isAuthorized, evaluate_leaves]
    exact evaluate_isAuthorized actor _
  · exact fun twin same => evaluate_regrouped actor same
  · exact fun twin same => evaluate_regrouped actor (same.flatMap_right _)
  · rintro before after first other rest others rfl same
    apply evaluate_regrouped
    simp only [List.flatMap_append, List.flatMap_cons, AuthorizationRuleTree.leaves,
      leavesOfAnyOf]
    apply List.Perm.append_left
    apply List.Perm.append_right
    simpa only [List.flatMap_cons] using same.flatMap_right GrantRule.leaves
  · rintro before after first rest rfl
    apply evaluate_regrouped
    have spread : ((first :: rest).map AuthorizationRuleTree.grant).flatMap
          AuthorizationRuleTree.leaves
        = (first :: rest).flatMap GrantRule.leaves := by
      rw [List.flatMap_map]
      rfl
    rw [List.flatMap_append, List.flatMap_append, List.flatMap_append, List.flatMap_cons,
      spread, AuthorizationRuleTree.leaves, leavesOfAnyOf, List.append_assoc]

/-- A rule that skips every actor but the owner, and there is none. -/
def noOwnerRule : GrantRule := .single (ownerActorJobAuthorizationRule none).evaluate

/-- The rule workers are authorized by. -/
def executeRule : GrantRule :=
  .single (permissionJobAuthorizationRule JobPermissions.execute).evaluate

def workerActor : JobActor :=
  ⟨"night-worker", "operations", [JobPermissions.execute], by decide, by decide⟩

/-- A worker is authorized by its permission inside an `AnyOf`, as by the rules alone. -/
theorem evaluate_authorizes_iff_anyOf
    : (evaluate workerActor
        ([AuthorizationRuleTree.grant (.anyOf noOwnerRule [executeRule])].map
          AuthorizationRuleTree.toRule)).isAuthorized = true
      ∧ (evaluate workerActor
          ([AuthorizationRuleTree.grant (.anyOf noOwnerRule [executeRule])].map
            AuthorizationRuleTree.toRule)).decision
        = (evaluate workerActor
            ([AuthorizationRuleTree.grant executeRule, .grant noOwnerRule].map
              AuthorizationRuleTree.toRule)).decision := by
  obtain ⟨law, regrouped, -⟩ := evaluate_authorizes_iff workerActor
    [.grant (.anyOf noOwnerRule [executeRule])]
  refine ⟨?_, regrouped _ (List.Perm.swap _ _ [])⟩
  refine law.mpr ⟨?_, ?_⟩
  · intro leaf member
    rcases List.mem_cons.mp member with rfl | other
    · decide
    · rw [List.mem_singleton.mp other]
      decide
  · exact ⟨_, List.mem_cons_of_mem _ (List.mem_singleton.mpr rfl), rfl, by decide⟩

end JobScheduler
