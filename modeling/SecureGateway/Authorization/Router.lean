import SecureGateway.Auth.Service
import SecureGateway.Gateway.Responses

/-!
# Authorization

`AuthorizationService`, the `require_permission` dependency and the role routes of
`gateway/app/authorization`.
-/
namespace SecureGateway.Gateway

open Interleaving Authorization

variable (cfg : Config) (http : HttpRequest)

namespace AuthorizationService

def getPermissionCodesForUser (userId : Uuid) : Action (Finset String) :=
  AuthorizationRepository.getPermissionCodesForUser userId

/-- The service and the repository each normalise the code. -/
def hasPermission (userId : Uuid) (permissionCode : String) : Action Bool := do
  let normalizedPermission ← Prog.liftExcept (normalizePermissionCode cfg.unicode permissionCode)
  AuthorizationRepository.hasPermission cfg userId normalizedPermission

def requirePermission (userId : Uuid) (permissionCode : String) : Action Unit := do
  let allowed ← hasPermission cfg userId permissionCode
  if allowed then pure () else throw (.authorizationDenied "Permission denied.")

def assignRole (userId : Uuid) (roleName : String) : Action Bool := do
  let normalizedRole ← Prog.liftExcept (normalizeRoleName cfg.unicode roleName)
  AuthorizationRepository.assignRole cfg userId normalizedRole

def removeRole (userId : Uuid) (roleName : String) : Action Bool := do
  let normalizedRole ← Prog.liftExcept (normalizeRoleName cfg.unicode roleName)
  AuthorizationRepository.removeRole cfg userId normalizedRole

end AuthorizationService

def authorizationBackendUnavailable : Raised :=
  .http ⟨503, "Authorization service is temporarily unavailable.", [("Retry-After", "1")]⟩

def authorizationDenied : Raised := .http ⟨403, "Permission denied.", []⟩

/-- The check that `require_permission` and `enforce_proxy_authorization` share: the two
`except` clauses audit the decision, with the service name where there is one. -/
def enforcePermission (user : UserPublic) (permissionCode : String)
    (serviceName : Option String) : Action Unit :=
  (AuthorizationService.requirePermission cfg user.id permissionCode).tryCatch fun
    | .authorizationDenied _ => do
      recordRequestSecurityEvent cfg http
        { eventType := .authorizationDenied
          outcome := .denied
          actorUserId := some user.id
          permissionCode := some permissionCode
          serviceName
          method := some http.method
          statusCode := some 403
          reasonCode := some "permission_missing" }
      throw authorizationDenied
    | .authorizationRepositoryBackend _ => do
      recordRequestSecurityEvent cfg http
        { eventType := .authorizationBackendUnavailable
          outcome := .unavailable
          actorUserId := some user.id
          permissionCode := some permissionCode
          serviceName
          method := some http.method
          statusCode := some 503
          reasonCode := some "authorization_repository_unavailable" }
      throw authorizationBackendUnavailable
    | error => throw error

/-- The dependency `require_permission(permission_code)` builds. -/
def requirePermission (permissionCode : String) : Action UserPublic := do
  let currentUser ← getCurrentUser cfg http
  enforcePermission cfg http currentUser permissionCode none
  pure currentUser

def userNotFoundResponse : Raised := .http ⟨404, "User not found.", []⟩

def getTargetUser (username : String) (actorUserId : Uuid) (permissionCode : String) :
    Action StoredUser := do
  let user ← (UserRepository.getByUsername cfg username).tryCatch fun
    | .userRepositoryBackend _ => do
      recordRequestSecurityEvent cfg http
        { eventType := .authenticationBackendUnavailable
          outcome := .unavailable
          actorUserId := some actorUserId
          permissionCode := some permissionCode
          method := some http.method
          statusCode := some 503
          reasonCode := some "authorization_target_lookup_unavailable" }
      throw authenticationDatabaseUnavailable
    | .usernamePolicy _ => throw userNotFoundResponse
    | error => throw error
  match user with
  | none => throw userNotFoundResponse
  | some user => pure user

/-- `sorted`, by code points. -/
def sortedNames (names : List String) : List String := names.mergeSort (· ≤ ·)

def rolesReadPermission : String := "authorization:roles:read"

def rolesManagePermission : String := "authorization:roles:manage"

def readUserRoles (username : String) : Action ApiResponse := do
  let actor ← requirePermission cfg http rolesReadPermission
  let target ← getTargetUser cfg http username actor.id rolesReadPermission
  let roles ← (AuthorizationRepository.getRoleNamesForUser target.id).tryCatch fun
    | .authorizationRepositoryBackend _ => do
      recordRequestSecurityEvent cfg http
        { eventType := .authorizationBackendUnavailable
          outcome := .unavailable
          actorUserId := some actor.id
          targetUserId := some target.id
          permissionCode := some rolesReadPermission
          method := some http.method
          statusCode := some 503
          reasonCode := some "role_list_repository_unavailable" }
      throw authorizationBackendUnavailable
    | error => throw error
  recordRequestSecurityEvent cfg http
    { eventType := .roleListRead
      outcome := .success
      actorUserId := some actor.id
      targetUserId := some target.id
      permissionCode := some rolesReadPermission
      method := some http.method
      statusCode := some 200
      reasonCode := some "roles_read" }
  pure (.userRoles target.id target.username (sortedNames roles.dedup))

/-- What `assign_user_role` and `remove_user_role` differ in. -/
structure RoleMutation where
  mutate : Config → Uuid → String → Action Bool
  unavailableReason : String
  eventType : Audit.AuditEventType
  changedReason : String
  unchangedReason : String

/-- The common body of the two mutation routes. -/
def mutateUserRole (m : RoleMutation) (username roleName : String) : Action ApiResponse := do
  let actor ← requirePermission cfg http rolesManagePermission
  let target ← getTargetUser cfg http username actor.id rolesManagePermission
  match normalizeRoleName cfg.unicode roleName with
  | .error _ => throw (.http ⟨404, "Role not found.", []⟩)
  | .ok normalizedRole => do
    let changed ← (m.mutate cfg target.id normalizedRole).tryCatch fun
      | .roleNotFound _ | .roleNamePolicy _ => throw (.http ⟨404, "Role not found.", []⟩)
      | .authorizationRepositoryBackend _ => do
        recordRequestSecurityEvent cfg http
          { eventType := .authorizationBackendUnavailable
            outcome := .unavailable
            actorUserId := some actor.id
            targetUserId := some target.id
            permissionCode := some rolesManagePermission
            roleName := some normalizedRole
            method := some http.method
            statusCode := some 503
            reasonCode := some m.unavailableReason }
        throw authorizationBackendUnavailable
      | error => throw error
    recordRequestSecurityEvent cfg http
      { eventType := m.eventType
        outcome := .success
        actorUserId := some actor.id
        targetUserId := some target.id
        permissionCode := some rolesManagePermission
        roleName := some normalizedRole
        method := some http.method
        statusCode := some 200
        reasonCode := some (if changed then m.changedReason else m.unchangedReason) }
    pure (.roleMutation target.id target.username normalizedRole changed)

def assignUserRole (username roleName : String) : Action ApiResponse :=
  mutateUserRole cfg http
    ⟨AuthorizationService.assignRole, "role_assignment_repository_unavailable", .roleAssigned,
      "role_assigned", "role_already_assigned"⟩ username roleName

def removeUserRole (username roleName : String) : Action ApiResponse :=
  mutateUserRole cfg http
    ⟨AuthorizationService.removeRole, "role_removal_repository_unavailable", .roleRemoved,
      "role_removed", "role_not_assigned"⟩ username roleName

end SecureGateway.Gateway
