import Mathlib.Data.List.Dedup
import SecureGateway.Auth.Users

/-!
# The database

The tables of `gateway/app/database/models.py` with the columns the gateway reads or writes,
the queries of the two repositories over them, the effect of each commit, and the content the
RBAC migration leaves.
-/
namespace SecureGateway

structure UserRecord where
  id : Uuid
  username : String
  hashedPassword : String
  isActive : Bool
  createdAt : Timestamp
  updatedAt : Timestamp
  deriving DecidableEq

structure RoleRecord where
  id : Uuid
  name : String
  deriving DecidableEq

structure PermissionRecord where
  id : Uuid
  code : String
  deriving DecidableEq

structure UserRoleRecord where
  userId : Uuid
  roleId : Uuid
  deriving DecidableEq

structure RolePermissionRecord where
  roleId : Uuid
  permissionId : Uuid
  deriving DecidableEq

structure Database where
  users : List UserRecord
  roles : List RoleRecord
  permissions : List PermissionRecord
  userRoles : List UserRoleRecord
  rolePermissions : List RolePermissionRecord

def recordToStoredUser (r : UserRecord) : StoredUser :=
  ⟨r.id, r.username, r.hashedPassword, r.isActive, r.createdAt⟩

/-- `DEFAULT_ROLE_ID`, the migration's `USER_ROLE_ID`. -/
def defaultRoleId : Uuid := 0x10000000000000000000000000000001#128

namespace Database

variable (db : Database)

def userByUsername (username : String) : Option UserRecord :=
  db.users.find? (·.username = username)

/-- The unique constraint on the username makes the lookup find the row itself. -/
theorem userByUsername_of_mem {db : Database} {r : UserRecord}
    (hunique : (db.users.map (·.username)).Nodup) (hr : r ∈ db.users) :
    db.userByUsername r.username = some r := by
  cases hfind : db.userByUsername r.username with
  | none =>
    have hnone := List.find?_eq_none.mp hfind r hr
    simp at hnone
  | some r' =>
    have hname : r'.username = r.username := by simpa using List.find?_some hfind
    have hmem : r' ∈ db.users := List.mem_of_find?_eq_some hfind
    rw [List.inj_on_of_nodup_map hunique hmem hr hname]

/-- The `EXISTS` over `user_roles`, `role_permissions` and `permissions`. -/
def permissionExists (userId : Uuid) (code : String) : Bool :=
  db.userRoles.any fun ur => ur.userId = userId && db.rolePermissions.any fun rp =>
    rp.roleId = ur.roleId && db.permissions.any fun pm =>
      pm.id = rp.permissionId && pm.code = code

/-- The codes found along `user_roles`, `role_permissions` and `permissions`, each once. The
caller makes a set of them, so their order is left out. -/
def permissionCodesForUser (userId : Uuid) : List String :=
  ((db.userRoles.filter (·.userId = userId)).flatMap fun ur =>
    (db.rolePermissions.filter (·.roleId = ur.roleId)).flatMap fun rp =>
      (db.permissions.filter (·.id = rp.permissionId)).map (·.code)).dedup

/-- The names of a user's roles, in the order of the assignments. -/
def roleNamesForUser (userId : Uuid) : List String :=
  (db.userRoles.filter (·.userId = userId)).flatMap fun ur =>
    (db.roles.filter (·.id = ur.roleId)).map (·.name)

def roleIdByName (name : String) : Option Uuid := (db.roles.find? (·.name = name)).map (·.id)

def hasUser (userId : Uuid) : Bool := db.users.any (·.id = userId)

def hasRole (roleId : Uuid) : Bool := db.roles.any (·.id = roleId)

def hasUserRole (userId roleId : Uuid) : Bool := ⟨userId, roleId⟩ ∈ db.userRoles

/-- Two rows that one commit adds; it fails as a unique violation when a key is taken. -/
def violatesUnique (record : UserRecord) : Bool :=
  db.users.any fun r => r.id = record.id || r.username = record.username

/-- The commit of a user and of its role assignment. -/
def addUser (record : UserRecord) (roleId : Uuid) : Database :=
  { db with
    users := db.users ++ [record]
    userRoles := db.userRoles ++ [⟨record.id, roleId⟩] }

/-- The commit of a changed password hash; `onupdate` sets the time. -/
def setPasswordHash (userId : Uuid) (hashedPassword : String) (now : Timestamp) : Database :=
  { db with
    users := db.users.map fun r =>
      if r.id = userId then { r with hashedPassword, updatedAt := now } else r }

/-- `INSERT … ON CONFLICT DO NOTHING` into `user_roles`. -/
def insertUserRole (userId roleId : Uuid) : Database :=
  if db.hasUserRole userId roleId then db
  else { db with userRoles := db.userRoles ++ [⟨userId, roleId⟩] }

/-- `DELETE FROM user_roles`. -/
def deleteUserRole (userId roleId : Uuid) : Database :=
  { db with userRoles := db.userRoles.filter (· ≠ ⟨userId, roleId⟩) }

end Database

namespace Migration

def userRoleId : Uuid := 0x10000000000000000000000000000001#128
def operatorRoleId : Uuid := 0x10000000000000000000000000000002#128
def adminRoleId : Uuid := 0x10000000000000000000000000000003#128

def serviceAReadId : Uuid := 0x20000000000000000000000000000001#128
def serviceAWriteId : Uuid := 0x20000000000000000000000000000002#128
def serviceBReadId : Uuid := 0x20000000000000000000000000000003#128
def serviceBWriteId : Uuid := 0x20000000000000000000000000000004#128
def rolesReadId : Uuid := 0x20000000000000000000000000000005#128
def rolesManageId : Uuid := 0x20000000000000000000000000000006#128

def roles : List RoleRecord :=
  [⟨userRoleId, "user"⟩, ⟨operatorRoleId, "operator"⟩, ⟨adminRoleId, "admin"⟩]

def permissions : List PermissionRecord :=
  [⟨serviceAReadId, "proxy:service-a:read"⟩, ⟨serviceAWriteId, "proxy:service-a:write"⟩,
    ⟨serviceBReadId, "proxy:service-b:read"⟩, ⟨serviceBWriteId, "proxy:service-b:write"⟩,
    ⟨rolesReadId, "authorization:roles:read"⟩, ⟨rolesManageId, "authorization:roles:manage"⟩]

def rolePermissions : List RolePermissionRecord :=
  [⟨userRoleId, serviceAReadId⟩, ⟨userRoleId, serviceBReadId⟩,
    ⟨operatorRoleId, serviceAReadId⟩, ⟨operatorRoleId, serviceAWriteId⟩,
    ⟨operatorRoleId, serviceBReadId⟩, ⟨operatorRoleId, serviceBWriteId⟩,
    ⟨adminRoleId, serviceAReadId⟩, ⟨adminRoleId, serviceAWriteId⟩,
    ⟨adminRoleId, serviceBReadId⟩, ⟨adminRoleId, serviceBWriteId⟩,
    ⟨adminRoleId, rolesReadId⟩, ⟨adminRoleId, rolesManageId⟩]

/-- `upgrade`: the seeded tables, and the default role for every user there is. -/
def upgrade (users : List UserRecord) : Database where
  users := users
  roles := roles
  permissions := permissions
  userRoles := users.map fun r => ⟨r.id, userRoleId⟩
  rolePermissions := rolePermissions

end Migration

end SecureGateway
