import Mathlib.Data.List.Basic

/-! `MutationDependencyBoundaryAnalyzer`, as far as it analyzes the constructors of a type.
The symbols are Roslyn's; the model takes what they report as a parameter, since a type may
occur in the type arguments of its own interfaces.
-/

namespace JobScheduler

/-- Where a symbol is declared. -/
structure Location where
  path : String
  position : Nat
  deriving DecidableEq, Repr

inductive TypeKind
  | array
  | classKind
  | delegate
  | enum
  | interface
  | pointer
  | struct
  | typeParameter
  deriving DecidableEq, Repr

structure NamespaceSymbol where
  displayString : String
  isGlobalNamespace : Bool
  deriving DecidableEq, Repr

structure ParameterSymbol (Symbol : Type) where
  type : Symbol
  locations : List Location

structure MethodSymbol (Symbol : Type) where
  isImplicitlyDeclared : Bool
  parameters : List (ParameterSymbol Symbol)
  locations : List Location

/-- What Roslyn reports of type symbols. The display strings are those of
`FullyQualifiedFormat` and `MinimallyQualifiedFormat`.
-/
structure TypeSymbols (Symbol : Type) where
  isNamedType : Symbol → Bool
  typeKind : Symbol → TypeKind
  isAbstract : Symbol → Bool
  locations : Symbol → List Location
  name : Symbol → String
  containingNamespace : Symbol → NamespaceSymbol
  fullyQualified : Symbol → String
  minimallyQualified : Symbol → String
  isGenericType : Symbol → Bool
  originalDefinition : Symbol → Symbol
  typeArguments : Symbol → List Symbol
  allInterfaces : Symbol → List Symbol
  instanceConstructors : Symbol → List (MethodSymbol Symbol)

inductive DiagnosticSeverity
  | hidden
  | info
  | warning
  | error
  deriving DecidableEq, Repr

structure DiagnosticDescriptor where
  id : String
  title : String
  messageFormat : String
  category : String
  defaultSeverity : DiagnosticSeverity
  isEnabledByDefault : Bool
  description : String
  deriving DecidableEq, Repr

structure Diagnostic where
  descriptor : DiagnosticDescriptor
  location : Option Location
  messageArgs : List String
  deriving DecidableEq, Repr

namespace MutationDependencyBoundaryAnalyzer

def mutationDependencyDiagnosticId : String := "JSP0001"

def serviceLocatorDiagnosticId : String := "JSP0002"

def mutationDependencyRule : DiagnosticDescriptor where
  id := mutationDependencyDiagnosticId
  title := "Mutation dependency is outside the allowed layer"
  messageFormat :=
    "Type '\x7b0\x7d' cannot depend on mutation service '\x7b1\x7d'; route through action handlers "
      ++ "instead"
  category := "Architecture"
  defaultSeverity := .error
  isEnabledByDefault := true
  description :=
    "Prevents direct mutation dependencies outside the allowed architectural layers."

def serviceLocatorRule : DiagnosticDescriptor where
  id := serviceLocatorDiagnosticId
  title := "Service locator access is outside the allowed layer"
  messageFormat := "Type '\x7b0\x7d' cannot use service locator access via '\x7b1\x7d'"
  category := "Architecture"
  defaultSeverity := .error
  isEnabledByDefault := true
  description :=
    "Prevents container access outside composition root and designated dispatcher types."

def forbiddenMutationTypeNames : List String :=
  ["JobSchedulerPrototype.Jobs.IJobStore", "JobSchedulerPrototype.Jobs.IJobLifecycleService",
    "JobSchedulerPrototype.Jobs.JobSchedulerDbContext"]

def forbiddenServiceLocatorTypeNames : List String :=
  ["System.IServiceProvider", "Microsoft.Extensions.DependencyInjection.IServiceScopeFactory"]

/-- `Replace("global::", string.Empty)`, on characters. -/
def withoutGlobal : List Char → List Char
  | 'g' :: 'l' :: 'o' :: 'b' :: 'a' :: 'l' :: ':' :: ':' :: rest => withoutGlobal rest
  | char :: rest => char :: withoutGlobal rest
  | [] => []

section Analysis

variable {Symbol : Type} (symbols : TypeSymbols Symbol)

def normalizeTypeName (type : Symbol) : String :=
  String.ofList (withoutGlobal (symbols.fullyQualified type).toList)

/-- The first type argument is looked at under an original definition that has one. -/
def isForbiddenMutationType (type : Symbol) : Bool :=
  if normalizeTypeName symbols type ∈ forbiddenMutationTypeNames then
    true
  else if symbols.isNamedType type
      && symbols.isGenericType type
      && normalizeTypeName symbols (symbols.originalDefinition type)
        = "Microsoft.EntityFrameworkCore.IDbContextFactory<TContext>" then
    (symbols.typeArguments type).head?.any (fun context =>
      normalizeTypeName symbols context = "JobSchedulerPrototype.Jobs.JobSchedulerDbContext")
  else
    false

def isForbiddenServiceLocatorType (type : Symbol) : Bool :=
  normalizeTypeName symbols type ∈ forbiddenServiceLocatorTypeNames

/-- `Implements`. -/
def implementsNamed (type : Symbol) (interfaceName : String) : Bool :=
  (symbols.allInterfaces type).any (fun interfaceSymbol =>
    normalizeTypeName symbols interfaceSymbol = interfaceName)

/-- A construction of the generic interface of action handlers. -/
def isJobActionHandler (interfaceSymbol : Symbol) : Bool :=
  symbols.isGenericType interfaceSymbol
  && symbols.name (symbols.originalDefinition interfaceSymbol) = "IJobActionHandler"
  && (symbols.containingNamespace (symbols.originalDefinition interfaceSymbol)).displayString
    = "JobSchedulerPrototype.Jobs"

def isMutationAllowedType (type : Symbol) : Bool :=
  if implementsNamed symbols type "JobSchedulerPrototype.Jobs.IJobStore"
      || implementsNamed symbols type "JobSchedulerPrototype.Jobs.IJobLifecycleService" then
    true
  else
    (symbols.allInterfaces type).any (isJobActionHandler symbols)

def isProgramType (type : Symbol) : Bool :=
  symbols.name type = "Program" && (symbols.containingNamespace type).isGlobalNamespace

def isServiceLocatorAllowedType (type : Symbol) : Bool :=
  isProgramType symbols type
  || implementsNamed symbols type "JobSchedulerPrototype.Jobs.IJobActionDispatcher"

/-- The diagnostic of a rule about a parameter of a constructor. -/
def parameterDiagnostic (rule : DiagnosticDescriptor) (type : Symbol)
    (constructor : MethodSymbol Symbol) (parameter : ParameterSymbol Symbol) : Diagnostic :=
  ⟨rule, parameter.locations.head?.or constructor.locations.head?,
    [symbols.minimallyQualified type, symbols.minimallyQualified parameter.type]⟩

/-- What the loop over the parameters of a constructor reports for one of them. -/
def analyzeParameter (mutationAllowed serviceLocatorAllowed : Bool) (type : Symbol)
    (constructor : MethodSymbol Symbol) (parameter : ParameterSymbol Symbol)
    : List Diagnostic :=
  (if !mutationAllowed && isForbiddenMutationType symbols parameter.type then
    [parameterDiagnostic symbols mutationDependencyRule type constructor parameter]
  else
    [])
  ++ if !serviceLocatorAllowed && isForbiddenServiceLocatorType symbols parameter.type then
    [parameterDiagnostic symbols serviceLocatorRule type constructor parameter]
  else
    []

/-- The diagnostics `AnalyzeType` reports for a symbol, in order. -/
def analyzeType (type : Symbol) : List Diagnostic :=
  if !symbols.isNamedType type
      || symbols.typeKind type ≠ .classKind
      || symbols.isAbstract type
      || symbols.locations type = [] then
    []
  else
    let mutationAllowed := isMutationAllowedType symbols type
    let serviceLocatorAllowed := isServiceLocatorAllowedType symbols type
    if mutationAllowed && serviceLocatorAllowed then
      []
    else
      (symbols.instanceConstructors type).flatMap (fun constructor =>
        if constructor.isImplicitlyDeclared then
          []
        else
          constructor.parameters.flatMap
            (analyzeParameter symbols mutationAllowed serviceLocatorAllowed type constructor))

/-- The types `AnalyzeType` looks into: classes declared in source that can be made. -/
def IsAnalyzed (type : Symbol) : Prop :=
  symbols.isNamedType type = true
  ∧ symbols.typeKind type = .classKind
  ∧ symbols.isAbstract type = false
  ∧ symbols.locations type ≠ []

/-- Every diagnostic is about a parameter of an explicit constructor of an analyzed class. -/
theorem mem_analyzeType {type : Symbol} {diagnostic : Diagnostic}
    : diagnostic ∈ analyzeType symbols type
      ↔ IsAnalyzed symbols type
        ∧ ∃ constructor ∈ symbols.instanceConstructors type,
            constructor.isImplicitlyDeclared = false
            ∧ ∃ parameter ∈ constructor.parameters,
                diagnostic ∈ analyzeParameter symbols (isMutationAllowedType symbols type)
                  (isServiceLocatorAllowedType symbols type) type constructor parameter := by
  unfold analyzeType
  by_cases analyzed : IsAnalyzed symbols type
  · obtain ⟨named, isClass, concrete, declared⟩ := analyzed
    simp only [IsAnalyzed, named, isClass, concrete, declared, Bool.not_true, ne_eq,
      not_true_eq_false, not_false_eq_true, decide_false, Bool.or_false, Bool.false_eq_true,
      if_false, and_true, true_and]
    split
    next allowed =>
      -- nothing is forbidden to a type that is in both layers
      obtain ⟨mutationAllowed, serviceLocatorAllowed⟩ := Bool.and_eq_true_iff.mp allowed
      simp [analyzeParameter, mutationAllowed, serviceLocatorAllowed]
    next =>
      simp only [List.mem_flatMap]
      refine exists_congr fun constructor => and_congr_right fun _ => ?_
      cases constructor.isImplicitlyDeclared with
      | false => simp only [Bool.false_eq_true, if_false, List.mem_flatMap, true_and]
      | true => simp
  · have skipped : (!symbols.isNamedType type
        || symbols.typeKind type ≠ .classKind
        || symbols.isAbstract type
        || symbols.locations type = []) = true := by
      by_contra kept
      apply analyzed
      simpa [IsAnalyzed, and_assoc] using kept
    rw [if_pos skipped]
    simp [analyzed]

end Analysis

end MutationDependencyBoundaryAnalyzer

end JobScheduler
