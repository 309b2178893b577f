import JobScheduler.Analyzers.MutationDependencyBoundaryAnalyzer

/-! The constructors of a class as a boundary for mutation services. A service can be asked
for under the name of one of the four guarded types, under the name of a type that derives
from one of them, and as a sequence; the analyzer reports the first of these ways only.
-/

namespace JobScheduler

/-- The interfaces of a type: those it declares, those of its interfaces and those of its
base type.
-/
inductive HasInterface {Symbol : Type} (baseType : Symbol → Option Symbol)
    (interfaces : Symbol → List Symbol) : Symbol → Symbol → Prop
  | declared {type interfaceSymbol : Symbol} (listed : interfaceSymbol ∈ interfaces type)
    : HasInterface baseType interfaces type interfaceSymbol
  | ofInterface {type declared interfaceSymbol : Symbol} (listed : declared ∈ interfaces type)
    (inherited : HasInterface baseType interfaces declared interfaceSymbol)
    : HasInterface baseType interfaces type interfaceSymbol
  | ofBase {type base interfaceSymbol : Symbol} (derives : baseType type = some base)
    (inherited : HasInterface baseType interfaces base interfaceSymbol)
    : HasInterface baseType interfaces type interfaceSymbol

/-- The symbols of a compilation as Roslyn documents them: all interfaces of a type are found
along its declarations, and a constructed sequence is displayed with its element type.
-/
structure CompilationSymbols (Symbol : Type) extends TypeSymbols Symbol where
  baseType : Symbol → Option Symbol
  interfaces : Symbol → List Symbol
  allInterfaces_iff
    : ∀ type interfaceSymbol,
        interfaceSymbol ∈ allInterfaces type
        ↔ HasInterface baseType interfaces type interfaceSymbol
  enumerableDisplay
    : ∀ type element,
        isNamedType type = true
        → isGenericType type = true
        → fullyQualified (originalDefinition type)
          = "global::System.Collections.Generic.IEnumerable<T>"
        → typeArguments type = [element]
        → fullyQualified type
          = "global::System.Collections.Generic.IEnumerable<" ++ fullyQualified element ++ ">"

namespace CompilationSymbols

open MutationDependencyBoundaryAnalyzer

variable {Symbol : Type} (symbols : CompilationSymbols Symbol)

abbrev fullName (type : Symbol) : String := normalizeTypeName symbols.toTypeSymbols type

/-- The four types the boundary is about, by their names. -/
inductive NamedMutationService : Symbol → Prop
  | jobStore {type : Symbol}
    (named : symbols.fullName type = "JobSchedulerPrototype.Jobs.IJobStore")
    : NamedMutationService type
  | jobLifecycleService {type : Symbol}
    (named : symbols.fullName type = "JobSchedulerPrototype.Jobs.IJobLifecycleService")
    : NamedMutationService type
  | jobSchedulerDbContext {type : Symbol}
    (named : symbols.fullName type = "JobSchedulerPrototype.Jobs.JobSchedulerDbContext")
    : NamedMutationService type
  | dbContextFactory {type context : Symbol} {others : List Symbol}
    (isNamed : symbols.isNamedType type = true) (generic : symbols.isGenericType type = true)
    (constructed
      : symbols.fullName (symbols.originalDefinition type)
        = "Microsoft.EntityFrameworkCore.IDbContextFactory<TContext>")
    (arguments : symbols.typeArguments type = context :: others)
    (named : symbols.fullName context = "JobSchedulerPrototype.Jobs.JobSchedulerDbContext")
    : NamedMutationService type

/-- One of the four types, or a type that derives from one along any chain of base types and
interfaces.
-/
inductive MutationType : Symbol → Prop
  | named {type : Symbol} (service : symbols.NamedMutationService type) : MutationType type
  | derived {type base : Symbol} (derives : symbols.baseType type = some base)
    (service : MutationType base)
    : MutationType type
  | implementing {type declared : Symbol} (listed : declared ∈ symbols.interfaces type)
    (service : MutationType declared)
    : MutationType type

/-- `IEnumerable<T>` for the given `T`. -/
structure SequenceOf (type element : Symbol) : Prop where
  isNamed : symbols.isNamedType type = true
  generic : symbols.isGenericType type = true
  constructed
    : symbols.fullyQualified (symbols.originalDefinition type)
      = "global::System.Collections.Generic.IEnumerable<T>"
  arguments : symbols.typeArguments type = [element]

/-- What the container resolves to mutation services: a mutation type, or sequences of such
types, nested to any depth.
-/
inductive MutationService : Symbol → Prop
  | single {type : Symbol} (service : symbols.MutationType type) : MutationService type
  | sequence {type element : Symbol} (sequence : symbols.SequenceOf type element)
    (service : MutationService element)
    : MutationService type

/-- The class implements none of the interfaces of the allowed layers. -/
structure OutsideLayers (type : Symbol) : Prop where
  noStore
    : ∀ interfaceSymbol,
        HasInterface symbols.baseType symbols.interfaces type interfaceSymbol
        → symbols.fullName interfaceSymbol ≠ "JobSchedulerPrototype.Jobs.IJobStore"
  noLifecycleService
    : ∀ interfaceSymbol,
        HasInterface symbols.baseType symbols.interfaces type interfaceSymbol
        → symbols.fullName interfaceSymbol ≠ "JobSchedulerPrototype.Jobs.IJobLifecycleService"
  noActionHandler
    : ∀ interfaceSymbol,
        HasInterface symbols.baseType symbols.interfaces type interfaceSymbol
        → isJobActionHandler symbols.toTypeSymbols interfaceSymbol = false

/-- The iteration for the parameter reports the mutation rule, and `AnalyzeType` with it. -/
def ReportsMutation (type : Symbol) (constructor : MethodSymbol Symbol)
    (parameter : ParameterSymbol Symbol) : Prop :=
  ∃ diagnostic
      ∈ analyzeParameter symbols.toTypeSymbols
          (isMutationAllowedType symbols.toTypeSymbols type)
          (isServiceLocatorAllowedType symbols.toTypeSymbols type) type constructor parameter,
    diagnostic ∈ analyzeType symbols.toTypeSymbols type
    ∧ diagnostic.descriptor.id = "JSP0001"

variable {symbols}

/-- The check of a parameter's type finds the four types by name and no others. -/
theorem isForbiddenMutationType_iff {type : Symbol}
    : isForbiddenMutationType symbols.toTypeSymbols type = true
      ↔ symbols.NamedMutationService type := by
  unfold isForbiddenMutationType
  constructor
  · intro forbidden
    split at forbidden
    next listed =>
      simp only [forbiddenMutationTypeNames, List.mem_cons, List.not_mem_nil, or_false]
        at listed
      rcases listed with named | named | named
      · exact .jobStore named
      · exact .jobLifecycleService named
      · exact .jobSchedulerDbContext named
    next =>
      split at forbidden
      next constructed =>
        simp only [Bool.and_eq_true, decide_eq_true_eq] at constructed
        obtain ⟨⟨isNamed, generic⟩, definition⟩ := constructed
        cases arguments : symbols.typeArguments type with
        | nil => simp [arguments] at forbidden
        | cons context others =>
            have named : symbols.fullName context
                = "JobSchedulerPrototype.Jobs.JobSchedulerDbContext" := by
              simpa [arguments] using forbidden
            exact .dbContextFactory isNamed generic definition arguments named
      next => cases forbidden
  · intro service
    split
    next => rfl
    next unlisted =>
      cases service with
      | jobStore named => simp [forbiddenMutationTypeNames, named] at unlisted
      | jobLifecycleService named => simp [forbiddenMutationTypeNames, named] at unlisted
      | jobSchedulerDbContext named => simp [forbiddenMutationTypeNames, named] at unlisted
      | dbContextFactory isNamed generic constructed arguments named =>
          simp only [isNamed, generic, constructed, arguments]
          simpa using named

/-- A sequence is none of the four types: its name starts differently. -/
theorem SequenceOf.not_named {type element : Symbol}
    (sequence : symbols.SequenceOf type element)
    : ¬ symbols.NamedMutationService type := by
  have display := symbols.enumerableDisplay type element sequence.isNamed sequence.generic
    sequence.constructed sequence.arguments
  have start : (symbols.fullName type).toList.head? = some 'S' := by
    simp only [fullName, normalizeTypeName, display, String.toList_ofList, String.toList_append]
    rfl
  intro service
  cases service with
  | jobStore named =>
      rw [named] at start
      exact absurd start (by decide)
  | jobLifecycleService named =>
      rw [named] at start
      exact absurd start (by decide)
  | jobSchedulerDbContext named =>
      rw [named] at start
      exact absurd start (by decide)
  | dbContextFactory _ _ constructed =>
      simp only [fullName, normalizeTypeName, sequence.constructed] at constructed
      exact absurd constructed (by decide +kernel)

/-- The check of the declaring class looks through all interfaces, as it should. -/
theorem OutsideLayers.not_allowed {type : Symbol} (outside : symbols.OutsideLayers type)
    : isMutationAllowedType symbols.toTypeSymbols type = false := by
  have none (name : String)
      (absent
        : ∀ interfaceSymbol,
            HasInterface symbols.baseType symbols.interfaces type interfaceSymbol
            → symbols.fullName interfaceSymbol ≠ name)
      : implementsNamed symbols.toTypeSymbols type name = false := by
    rw [implementsNamed, List.any_eq_false]
    intro interfaceSymbol member
    simpa using absent interfaceSymbol ((symbols.allInterfaces_iff _ _).mp member)
  unfold isMutationAllowedType
  rw [none _ outside.noStore, none _ outside.noLifecycleService]
  simp only [Bool.or_false, Bool.false_eq_true, if_false, List.any_eq_false]
  intro interfaceSymbol member
  simpa using outside.noActionHandler interfaceSymbol
    ((symbols.allInterfaces_iff _ _).mp member)

/-- In an iteration the mutation rule is reported once, for a forbidden type. -/
theorem mutation_mem_analyzeParameter {mutationAllowed serviceLocatorAllowed : Bool}
    {type : Symbol} {constructor : MethodSymbol Symbol} {parameter : ParameterSymbol Symbol}
    {diagnostic : Diagnostic} (reported : diagnostic.descriptor.id = "JSP0001")
    : diagnostic
          ∈ analyzeParameter symbols.toTypeSymbols mutationAllowed serviceLocatorAllowed type
              constructor parameter
      ↔ mutationAllowed = false
        ∧ symbols.NamedMutationService parameter.type
        ∧ diagnostic
          = parameterDiagnostic symbols.toTypeSymbols mutationDependencyRule type constructor
              parameter := by
  have other
      : diagnostic
        ≠ parameterDiagnostic symbols.toTypeSymbols serviceLocatorRule type constructor
            parameter := by
    rintro rfl
    have different : serviceLocatorRule.id ≠ "JSP0001" := by decide
    exact different reported
  rw [← isForbiddenMutationType_iff, analyzeParameter, List.mem_append]
  constructor
  · rintro (mutation | locator)
    · split at mutation
      next forbidden =>
        obtain ⟨outside, named⟩ := Bool.and_eq_true_iff.mp forbidden
        exact ⟨by simpa using outside, named, List.mem_singleton.mp mutation⟩
      next => cases mutation
    · split at locator
      next => exact absurd (List.mem_singleton.mp locator) other
      next => cases locator
  · rintro ⟨outside, named, same⟩
    refine Or.inl ?_
    rw [outside, named, same]
    exact List.mem_singleton_self _

/-- A class outside the layers is reported exactly if one of its explicit constructors asks
for one of the four types by name.
-/
theorem analyzeType_reports_iff {type : Symbol}
    (analyzed : IsAnalyzed symbols.toTypeSymbols type) (outside : symbols.OutsideLayers type)
    : (∃ diagnostic ∈ analyzeType symbols.toTypeSymbols type,
        diagnostic.descriptor.id = "JSP0001")
      ↔ ∃ constructor ∈ symbols.instanceConstructors type,
          constructor.isImplicitlyDeclared = false
          ∧ ∃ parameter ∈ constructor.parameters,
              symbols.NamedMutationService parameter.type := by
  constructor
  · rintro ⟨diagnostic, member, reported⟩
    obtain ⟨-, constructor, there, explicit, parameter, listed, made⟩ :=
      (mem_analyzeType _).mp member
    obtain ⟨-, named, -⟩ := (mutation_mem_analyzeParameter reported).mp made
    exact ⟨constructor, there, explicit, parameter, listed, named⟩
  · rintro ⟨constructor, there, explicit, parameter, listed, named⟩
    refine ⟨_, (mem_analyzeType _).mpr ⟨analyzed, constructor, there, explicit, parameter, listed,
      (mutation_mem_analyzeParameter ?_).mpr ⟨outside.not_allowed, named, rfl⟩⟩, ?_⟩
    · rfl
    · rfl

/-- For a class outside the layers and a parameter that is a mutation service, the rule is
reported exactly if the type of the parameter is one of the four by its name. What passes are
the sequences and the types that derive from one of the four.
-/
theorem reportsMutation_iff {type : Symbol}
    (analyzed : IsAnalyzed symbols.toTypeSymbols type) (outside : symbols.OutsideLayers type)
    {constructor : MethodSymbol Symbol}
    (member : constructor ∈ symbols.instanceConstructors type)
    (explicit : constructor.isImplicitlyDeclared = false) {parameter : ParameterSymbol Symbol}
    (listed : parameter ∈ constructor.parameters)
    (service : symbols.MutationService parameter.type)
    : (symbols.ReportsMutation type constructor parameter
        ↔ symbols.NamedMutationService parameter.type)
      ∧ (¬ symbols.ReportsMutation type constructor parameter
        ↔ (∃ element, symbols.SequenceOf parameter.type element)
          ∨ symbols.MutationType parameter.type
            ∧ ¬ symbols.NamedMutationService parameter.type) := by
  have reports : symbols.ReportsMutation type constructor parameter
      ↔ symbols.NamedMutationService parameter.type := by
    constructor
    · rintro ⟨diagnostic, made, -, reported⟩
      exact ((mutation_mem_analyzeParameter reported).mp made).2.1
    · intro named
      have made := (@mutation_mem_analyzeParameter _ symbols _
        (isServiceLocatorAllowedType symbols.toTypeSymbols type) type constructor _ _ rfl).mpr
        ⟨outside.not_allowed, named, rfl⟩
      exact ⟨_, made, (mem_analyzeType _).mpr
        ⟨analyzed, constructor, member, explicit, parameter, listed, made⟩, rfl⟩
  refine ⟨reports, ?_⟩
  rw [reports]
  constructor
  · intro unnamed
    cases service with
    | single derived => exact Or.inr ⟨derived, unnamed⟩
    | sequence sequence => exact Or.inl ⟨_, sequence⟩
  · rintro (⟨element, sequence⟩ | ⟨-, unnamed⟩)
    · exact sequence.not_named
    · exact unnamed

end CompilationSymbols

/-- The symbols of a small compilation: two page models, and what their constructors name. -/
inductive PageSymbol
  | reportModel
  | statusModel
  | jobStore
  | sqliteJobStore
  | jobStores
  | enumerable
  | elementType
  | untypedEnumerable
  | object
  deriving DecidableEq

namespace PageSymbol

def fullyQualified : PageSymbol → String
  | reportModel => "global::JobSchedulerPrototype.Pages.ReportModel"
  | statusModel => "global::JobSchedulerPrototype.Pages.StatusModel"
  | jobStore => "global::JobSchedulerPrototype.Jobs.IJobStore"
  | sqliteJobStore => "global::JobSchedulerPrototype.Jobs.SqliteJobStore"
  | jobStores =>
      "global::System.Collections.Generic.IEnumerable<global::JobSchedulerPrototype.Jobs.IJobStore>"
  | enumerable => "global::System.Collections.Generic.IEnumerable<T>"
  | elementType => "T"
  | untypedEnumerable => "global::System.Collections.IEnumerable"
  | object => "object"

def baseType : PageSymbol → Option PageSymbol
  | reportModel | statusModel | sqliteJobStore => some object
  | _ => none

def interfaces : PageSymbol → List PageSymbol
  | sqliteJobStore => [jobStore]
  | jobStores | enumerable => [untypedEnumerable]
  | _ => []

/-- No type has interfaces beyond those it declares. -/
theorem hasInterface_iff (type interfaceSymbol : PageSymbol)
    : interfaceSymbol ∈ type.interfaces
      ↔ HasInterface baseType interfaces type interfaceSymbol := by
  constructor
  · exact .declared
  · intro found
    induction found with
    | declared listed => exact listed
    | @ofInterface type declared interfaceSymbol listed _ ih =>
        cases type <;> simp [interfaces] at listed <;> subst listed <;> cases ih
    | @ofBase type base interfaceSymbol derives _ ih =>
        cases type <;> simp [baseType] at derives <;> subst derives <;> cases ih

/-- The report model asks for the concrete store, which the container knows by its own type,
and for all stores; the status model asks for the store by its interface.
-/
def constructors : PageSymbol → List (MethodSymbol PageSymbol)
  | reportModel =>
      [⟨false, [⟨sqliteJobStore, [⟨"Report.cs", 40⟩]⟩, ⟨jobStores, [⟨"Report.cs", 62⟩]⟩],
        [⟨"Report.cs", 20⟩]⟩]
  | statusModel => [⟨false, [⟨jobStore, [⟨"Status.cs", 40⟩]⟩], [⟨"Status.cs", 20⟩]⟩]
  | _ => []

def symbols : CompilationSymbols PageSymbol where
  isNamedType type := type ≠ elementType
  typeKind
    | reportModel | statusModel | sqliteJobStore | object => .classKind
    | elementType => .typeParameter
    | _ => .interface
  isAbstract
    | jobStore | jobStores | enumerable | untypedEnumerable => true
    | _ => false
  locations
    | reportModel => [⟨"Report.cs", 0⟩]
    | statusModel => [⟨"Status.cs", 0⟩]
    | _ => []
  name
    | reportModel => "ReportModel"
    | statusModel => "StatusModel"
    | jobStore => "IJobStore"
    | sqliteJobStore => "SqliteJobStore"
    | jobStores | enumerable | untypedEnumerable => "IEnumerable"
    | elementType => "T"
    | object => "Object"
  containingNamespace
    | reportModel | statusModel => ⟨"JobSchedulerPrototype.Pages", false⟩
    | jobStore | sqliteJobStore => ⟨"JobSchedulerPrototype.Jobs", false⟩
    | untypedEnumerable => ⟨"System.Collections", false⟩
    | jobStores | enumerable | elementType => ⟨"System.Collections.Generic", false⟩
    | object => ⟨"System", false⟩
  fullyQualified := fullyQualified
  minimallyQualified
    | reportModel => "ReportModel"
    | statusModel => "StatusModel"
    | jobStore => "IJobStore"
    | sqliteJobStore => "SqliteJobStore"
    | jobStores => "IEnumerable<IJobStore>"
    | enumerable => "IEnumerable<T>"
    | elementType => "T"
    | untypedEnumerable => "IEnumerable"
    | object => "object"
  isGenericType type := type = jobStores || type = enumerable
  originalDefinition
    | jobStores => enumerable
    | type => type
  typeArguments
    | jobStores => [jobStore]
    | enumerable => [elementType]
    | _ => []
  allInterfaces := interfaces
  instanceConstructors := constructors
  baseType := baseType
  interfaces := interfaces
  allInterfaces_iff := hasInterface_iff
  enumerableDisplay type element _ generic _ arguments := by
    cases type with
    | jobStores =>
        cases arguments
        rfl
    | enumerable =>
        cases arguments
        rfl
    | _ => cases arguments

theorem outside_of_none {type : PageSymbol} (none : type.interfaces = [])
    : symbols.OutsideLayers type := by
  have absent (interfaceSymbol : PageSymbol)
      : ¬ HasInterface symbols.baseType symbols.interfaces type interfaceSymbol := by
    intro found
    have listed := (hasInterface_iff _ _).mpr found
    rw [none] at listed
    cases listed
  refine ⟨?_, ?_, ?_⟩
  · exact fun interfaceSymbol found => absurd found (absent interfaceSymbol)
  · exact fun interfaceSymbol found => absurd found (absent interfaceSymbol)
  · exact fun interfaceSymbol found => absurd found (absent interfaceSymbol)

end PageSymbol

/-- The store of the status model is reported, as it is asked for by its interface. -/
theorem reportsMutation_iff_statusModel
    : PageSymbol.symbols.ReportsMutation .statusModel
        ⟨false, [⟨.jobStore, [⟨"Status.cs", 40⟩]⟩], [⟨"Status.cs", 20⟩]⟩
        ⟨.jobStore, [⟨"Status.cs", 40⟩]⟩ := by
  have named : PageSymbol.symbols.NamedMutationService .jobStore := .jobStore (by decide +kernel)
  refine (@CompilationSymbols.reportsMutation_iff _ PageSymbol.symbols .statusModel
    ⟨rfl, rfl, rfl, by decide⟩ (PageSymbol.outside_of_none rfl) _ ?_ rfl _ ?_
    (.single (.named named))).1.mpr named
  · exact List.mem_singleton_self _
  · exact List.mem_singleton_self _

/-- The report model depends on the concrete store and on all stores, and passes. -/
theorem mutation_services_pass_reportModel
    : MutationDependencyBoundaryAnalyzer.IsAnalyzed PageSymbol.symbols.toTypeSymbols .reportModel
      ∧ PageSymbol.symbols.OutsideLayers .reportModel
      ∧ PageSymbol.symbols.MutationService .sqliteJobStore
      ∧ PageSymbol.symbols.MutationService .jobStores
      ∧ PageSymbol.symbols.instanceConstructors .reportModel
        = [⟨false,
            [⟨.sqliteJobStore, [⟨"Report.cs", 40⟩]⟩, ⟨.jobStores, [⟨"Report.cs", 62⟩]⟩],
            [⟨"Report.cs", 20⟩]⟩]
      ∧ MutationDependencyBoundaryAnalyzer.analyzeType PageSymbol.symbols.toTypeSymbols
          .reportModel = [] := by
  have named : PageSymbol.symbols.NamedMutationService .jobStore := .jobStore (by decide +kernel)
  refine ⟨⟨rfl, rfl, rfl, by decide⟩, PageSymbol.outside_of_none rfl, ?_, ?_, rfl,
    by decide +kernel⟩
  · exact .single (.implementing (List.mem_singleton_self _) (.named named))
  · exact .sequence ⟨rfl, rfl, rfl, rfl⟩ (.single (.named named))

end JobScheduler
