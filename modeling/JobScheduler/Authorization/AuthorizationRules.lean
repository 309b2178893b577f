import JobScheduler.Authorization.JobActor

/-! Authorization rules and their evaluation. A rule decides about an actor; rules of the
kind `Deny` are asked first, and authorizing takes an allowing rule of the kind `Grant`.
-/

namespace JobScheduler

inductive JobAuthorizationDecision
  | allow
  | skip
  | deny
  deriving DecidableEq, Repr

structure JobAuthorizationResult where
  decision : JobAuthorizationDecision
  errorMessage : Option String
  deriving DecidableEq, Repr

namespace JobAuthorizationResult

def isAuthorized (result : JobAuthorizationResult) : Bool := result.decision = .allow

def allow : JobAuthorizationResult := ⟨.allow, none⟩

def skip : JobAuthorizationResult := ⟨.skip, none⟩

def deny (errorMessage : Option String) : JobAuthorizationResult := ⟨.deny, errorMessage⟩

end JobAuthorizationResult

inductive JobAuthorizationRuleKind
  | deny
  | grant
  deriving DecidableEq, Repr

structure IJobAuthorizationRule where
  kind : JobAuthorizationRuleKind
  evaluate : JobActor → JobAuthorizationResult

/-- The second constructor argument of the rules, a message, is dropped by them. -/
def permissionJobAuthorizationRule (permission : String) : IJobAuthorizationRule where
  kind := .grant
  evaluate actor := if actor.hasPermission permission then .allow else .skip

def ownerActorJobAuthorizationRule (ownerActorId : Option String)
    : IJobAuthorizationRule where
  kind := .grant
  evaluate actor :=
    if ownerActorId.any (fun owner => !isNullOrWhiteSpace owner && owner = actor.id) then
      .allow
    else
      .skip

/-- The loop over rules: the first denial is the result, else one `Allow` is enough. -/
def evaluateInOrder (actor : JobActor) (anyAllow : Bool)
    : List IJobAuthorizationRule → JobAuthorizationResult
  | [] => if anyAllow then .allow else .skip
  | rule :: rest =>
      let result := rule.evaluate actor
      if result.decision = .deny then
        result
      else
        evaluateInOrder actor (anyAllow || result.decision = .allow) rest

def anyOfJobAuthorizationRule (rules : List IJobAuthorizationRule)
    : Except SchedulerException IJobAuthorizationRule :=
  if rules.isEmpty then
    .error (.argument "At least one authorization rule is required." "rules")
  else
    .ok ⟨.grant, fun actor => evaluateInOrder actor false rules⟩

namespace JobAuthorizationRuleEvaluator

def evaluateRulesByKind (actor : JobActor) (rules : List IJobAuthorizationRule)
    (kind : JobAuthorizationRuleKind)
    : JobAuthorizationResult :=
  evaluateInOrder actor false (rules.filter (·.kind = kind))

def evaluate (actor : JobActor) (rules : List IJobAuthorizationRule)
    : JobAuthorizationResult :=
  let boundaryDecision := evaluateRulesByKind actor rules .deny
  if boundaryDecision.decision = .deny then
    boundaryDecision
  else
    let grantDecision := evaluateRulesByKind actor rules .grant
    if grantDecision.decision = .deny then
      grantDecision
    else if grantDecision.decision = .allow then
      .allow
    else
      .deny none

/-- A single permission rule authorizes the actors with the permission, and denies the
others without a message.
-/
theorem evaluate_permission (actor : JobActor) (permission : String)
    : evaluate actor [permissionJobAuthorizationRule permission]
      = if actor.hasPermission permission then .allow else .deny none := by
  by_cases granted : actor.hasPermission permission <;>
    simp [evaluate, evaluateRulesByKind, evaluateInOrder, permissionJobAuthorizationRule,
      granted, JobAuthorizationResult.allow, JobAuthorizationResult.skip]

end JobAuthorizationRuleEvaluator

end JobScheduler
