import Mathlib.Data.Finset.Dedup
import SecureGateway.Gateway.Interface
import SecureGateway.Authorization.Names

/-!
# The PostgreSQL repositories

`PostgreSQLUserRepository` and `PostgreSQLAuthorizationRepository`: which statements each
method sends, in which order, and which exception each failure becomes.
-/
namespace SecureGateway.Gateway

open Interleaving

variable (cfg : Config)

/-- The database exceptions that both repositories turn into their back-end error. -/
def DbFault.orRaise {α : Type} (f : DbFault) (backend : Raised) : Action α :=
  match f with
  | .fault f _ => throw f.raised
  | .uniqueViolation | .integrityError | .sqlalchemyError _ | .osError _ => throw backend

namespace UserRepository

def backendError : Raised := .userRepositoryBackend "User persistence backend is unavailable."

/-- The result of a statement, or the back-end error. -/
def result {α : Type} (r : Except DbFault α) : Action α :=
  match r with
  | .ok a => pure a
  | .error f => f.orRaise backendError

def createUser (username hashedPassword : String) : Action StoredUser := do
  let normalizedUsername ← Prog.liftExcept (Auth.normalizeUsername cfg.unicode username)
  if Python.strip hashedPassword = "" then
    throw (.valueError "Hashed password cannot be empty.")
  else do
    let now ← invoke .utcNow
    let id ← invoke .uuid4
    let record : UserRecord := ⟨id, normalizedUsername, hashedPassword, true, now, now⟩
    let committed ← invoke (.commitUser record defaultRoleId)
    match committed with
    | .ok _ => pure (recordToStoredUser record)
    | .error .uniqueViolation => throw (.userAlreadyExists "Username is already registered.")
    | .error f => f.orRaise backendError

def getByUsername (username : String) : Action (Option StoredUser) := do
  let normalizedUsername ← Prog.liftExcept (Auth.normalizeUsername cfg.unicode username)
  let selected ← invoke (.selectUser normalizedUsername)
  let record ← result selected
  pure (record.map recordToStoredUser)

def updatePasswordHash (username hashedPassword : String) : Action StoredUser := do
  let normalizedUsername ← Prog.liftExcept (Auth.normalizeUsername cfg.unicode username)
  if Python.strip hashedPassword = "" then
    throw (.valueError "Hashed password cannot be empty.")
  else do
    let selected ← invoke (.selectUser normalizedUsername)
    let found ← result selected
    match found with
    | none => throw (.userNotFound "User not found.")
    | some record => do
      let committed ← invoke (.commitPasswordHash record.id hashedPassword)
      let _ ← result committed
      pure (recordToStoredUser { record with hashedPassword })

def count : Action ℕ := do
  let selected ← invoke .selectUserCount
  result selected

end UserRepository

namespace AuthorizationRepository

def backendError : Raised :=
  .authorizationRepositoryBackend "Authorization persistence backend is unavailable."

def result {α : Type} (r : Except DbFault α) : Action α :=
  match r with
  | .ok a => pure a
  | .error f => f.orRaise backendError

def getRoleNamesForUser (userId : Uuid) : Action (List String) := do
  let selected ← invoke (.selectRoleNames userId)
  result selected

/-- The codes come as a `frozenset`. -/
def getPermissionCodesForUser (userId : Uuid) : Action (Finset String) := do
  let selected ← invoke (.selectPermissionCodes userId)
  let codes ← result selected
  pure codes.toFinset

def hasPermission (userId : Uuid) (permissionCode : String) : Action Bool := do
  let normalizedPermission ←
    Prog.liftExcept (Authorization.normalizePermissionCode cfg.unicode permissionCode)
  let selected ← invoke (.selectPermissionExists userId normalizedPermission)
  result selected

/-- `_get_role_id`. -/
def getRoleId (roleName : String) : Action Uuid := do
  let normalizedRole ← Prog.liftExcept (Authorization.normalizeRoleName cfg.unicode roleName)
  let selected ← invoke (.selectRoleId normalizedRole)
  let roleId ← result selected
  match roleId with
  | none => throw (.roleNotFound "Authorization role not found.")
  | some roleId => pure roleId

/-- `_require_user`. -/
def requireUser (userId : Uuid) : Action Unit := do
  let selected ← invoke (.selectUserId userId)
  let existing ← result selected
  if existing then pure () else throw (.userAuthorizationNotFound "User not found.")

def assignRole (userId : Uuid) (roleName : String) : Action Bool := do
  let roleId ← getRoleId cfg roleName
  requireUser userId
  let inserted ← invoke (.insertUserRole userId roleId)
  result inserted

def removeRole (userId : Uuid) (roleName : String) : Action Bool := do
  let roleId ← getRoleId cfg roleName
  requireUser userId
  let deleted ← invoke (.deleteUserRole userId roleId)
  result deleted

end AuthorizationRepository

end SecureGateway.Gateway
