import JobScheduler.Authorization.JobActor

/-! The actor of an HTTP request, from its headers or from the configuration. Whatever they
say, there is one, and neither its id nor its tenant has white space around it.
-/

namespace JobScheduler

/-- `DevelopmentActorOptions`. The provider treats a null text as a blank one and null
permissions as none, so neither is told apart here.
-/
structure DevelopmentActorOptions where
  allowRequestHeaders : Bool
  actorId : String
  tenantId : String
  permissions : List String
  deriving DecidableEq, Repr

/-- The headers of a request: `request.Headers[name].ToString()`, empty for one that is not
there.
-/
structure HttpRequest where
  headers : String → String

namespace DevelopmentHeaderJobActorProvider

def actorIdHeaderName : String := "X-Actor-Id"
def tenantIdHeaderName : String := "X-Tenant-Id"
def permissionsHeaderName : String := "X-Permissions"
def defaultActorId : String := "dev-user"
def defaultTenantId : String := "dev-tenant"
def defaultPermissions : List String := [JobPermissions.all]

end DevelopmentHeaderJobActorProvider

/-- The default values. -/
def DevelopmentActorOptions.unset : DevelopmentActorOptions :=
  ⟨true, DevelopmentHeaderJobActorProvider.defaultActorId,
    DevelopmentHeaderJobActorProvider.defaultTenantId, []⟩

namespace DevelopmentHeaderJobActorProvider

/-- `string.IsNullOrWhiteSpace(value) ? defaultValue : value.Trim()`. -/
def trimmedOrDefault (value defaultValue : String) : String :=
  if isNullOrWhiteSpace value then defaultValue else trim value

def configuredActor (options : DevelopmentActorOptions)
    : Except SchedulerException JobActor :=
  JobActor.create (trimmedOrDefault options.actorId defaultActorId)
    (trimmedOrDefault options.tenantId defaultTenantId)
    (if options.permissions.isEmpty then defaultPermissions else options.permissions)

def readHeaderOrDefault (request : HttpRequest) (headerName defaultValue : String)
    : String :=
  trimmedOrDefault (request.headers headerName) defaultValue

/-- `Split(',', TrimEntries | RemoveEmptyEntries)`. -/
def splitPermissions (permissions : String) : List String :=
  (((permissions.toList.splitOn ',').map String.ofList).map trim).filter
    (fun permission => !permission.isEmpty)

def readPermissionsOrDefault (request : HttpRequest) (defaultPermissions : List String)
    : List String :=
  let permissions := request.headers permissionsHeaderName
  if isNullOrWhiteSpace permissions then defaultPermissions else splitPermissions permissions

def getCurrentActor (options : DevelopmentActorOptions) (httpContext : Option HttpRequest)
    : Except SchedulerException JobActor :=
  match configuredActor options with
  | .error exception => .error exception
  | .ok configuredActor =>
      if !options.allowRequestHeaders then
        .ok configuredActor
      else
        match httpContext with
        | none => .ok configuredActor
        | some request =>
            JobActor.create
              (readHeaderOrDefault request actorIdHeaderName configuredActor.id)
              (readHeaderOrDefault request tenantIdHeaderName configuredActor.tenantId)
              (readPermissionsOrDefault request configuredActor.permissions)

/-- The text is not blank and has no white space around it. -/
def Trimmed (text : String) : Prop := isNullOrWhiteSpace text = false ∧ trim text = text

/-- What is read with a trimmed default is trimmed. -/
theorem trimmedOrDefault_trimmed {defaultValue : String} (trimmed : Trimmed defaultValue)
    (value : String)
    : Trimmed (trimmedOrDefault value defaultValue) := by
  unfold trimmedOrDefault
  cases blank : isNullOrWhiteSpace value with
  | true => exact trimmed
  | false => exact ⟨isNullOrWhiteSpace_trim blank, trim_trim value⟩

/-- The constructor accepts trimmed texts and keeps them. -/
theorem create_trimmed {id tenantId : String} (idTrimmed : Trimmed id)
    (tenantTrimmed : Trimmed tenantId) (permissions : List String)
    : ∃ actor,
        JobActor.create id tenantId permissions = .ok actor
        ∧ Trimmed actor.id
        ∧ Trimmed actor.tenantId := by
  unfold JobActor.create
  rw [dif_neg (by simp [idTrimmed.1]), dif_neg (by simp [tenantTrimmed.1])]
  exact ⟨_, rfl, idTrimmed, tenantTrimmed⟩

/-- Every request has an actor, and its id and its tenant are trimmed. -/
theorem getCurrentActor_trimmed (options : DevelopmentActorOptions)
    (httpContext : Option HttpRequest)
    : ∃ actor,
        getCurrentActor options httpContext = .ok actor
        ∧ Trimmed actor.id
        ∧ Trimmed actor.tenantId := by
  have defaultId : Trimmed defaultActorId := by
    constructor <;> decide +kernel
  have defaultTenant : Trimmed defaultTenantId := by
    constructor <;> decide +kernel
  obtain ⟨configured, built, idTrimmed, tenantTrimmed⟩ := create_trimmed
    (trimmedOrDefault_trimmed defaultId options.actorId)
    (trimmedOrDefault_trimmed defaultTenant options.tenantId)
    (if options.permissions.isEmpty then defaultPermissions else options.permissions)
  have known : configuredActor options = .ok configured := built
  simp only [getCurrentActor, known]
  split
  · exact ⟨configured, rfl, idTrimmed, tenantTrimmed⟩
  · cases httpContext with
    | none => exact ⟨configured, rfl, idTrimmed, tenantTrimmed⟩
    | some request =>
        exact create_trimmed (trimmedOrDefault_trimmed idTrimmed _)
          (trimmedOrDefault_trimmed tenantTrimmed _) _

end DevelopmentHeaderJobActorProvider

end JobScheduler
