import JobScheduler.Core.Values

/-! Actors and their permissions. -/

namespace JobScheduler

namespace JobPermissions

def all : String := "jobs.*"
def globalRead : String := "jobs.global.read"
def emailRead : String := "jobs.email.read"
def emailEnqueue : String := "jobs.email.enqueue"
def emailManage : String := "jobs.email.manage"
def execute : String := "jobs.execute"

end JobPermissions

/-- An actor the constructor accepts: neither its id nor its tenant is blank. -/
structure JobActor where
  id : String
  tenantId : String
  permissions : List String
  idPresent : isNullOrWhiteSpace id = false
  tenantPresent : isNullOrWhiteSpace tenantId = false
  deriving DecidableEq, Repr

namespace JobActor

/-- The constructor. The permission set compares case-insensitively, which is left to
`hasPermission`.
-/
def create (id tenantId : String) (permissions : List String)
    : Except SchedulerException JobActor :=
  if idBlank : isNullOrWhiteSpace id then
    .error (.argument "Actor ID is required." "id")
  else if tenantBlank : isNullOrWhiteSpace tenantId then
    .error (.argument "Tenant ID is required." "tenantId")
  else
    .ok {
      id := id
      tenantId := tenantId
      permissions :=
        (permissions.filter (fun permission => !isNullOrWhiteSpace permission)).map trim
      idPresent := by simpa using idBlank
      tenantPresent := by simpa using tenantBlank
    }

def hasPermission (actor : JobActor) (permission : String) : Bool :=
  actor.permissions.any (equalsOrdinalIgnoreCase JobPermissions.all)
  || actor.permissions.any (equalsOrdinalIgnoreCase permission)

end JobActor

end JobScheduler
