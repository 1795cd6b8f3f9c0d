import SecureGateway.Database.Schema
import SecureGateway.Audit.Events
import SecureGateway.RateLimit.TokenBucket
import SecureGateway.Login.Scripts
import SecureGateway.Resilience.Executor

/-!
# What the gateway's handlers perform

Every call that leaves a handler: into PostgreSQL, into Redis, to the worker thread that
hashes passwords, to PyJWT, to the clocks, and to the upstream executor's own operations. A
statement or script is one step of the world. One that fails may still have been carried out:
the caller cannot tell.
-/
namespace SecureGateway.Gateway

open Interleaving Resilience Audit

/-- The values of a JWT payload; arrays and objects are kept as text. -/
inductive Json where
  | null
  | bool (b : Bool)
  | number (q : ℚ)
  | string (s : String)
  | other (text : String)
  deriving DecidableEq

abbrev Payload := List (String × Json)

/-- `payload.get(name)`. -/
def Payload.get (p : Payload) (name : String) : Json := (p.lookup name).getD .null

/-- What any await can end in. -/
inductive Fault where
  | cancelled
  | other (className : String)
  deriving DecidableEq, Repr

def Fault.raised : Fault → Raised
  | .cancelled => .cancelled
  | .other className => .other className

/-- A failed statement or commit, and whether the server had carried it out before the
failure. -/
inductive DbFault where
  | uniqueViolation
  | integrityError
  | sqlalchemyError (committed : Bool)
  | osError (committed : Bool)
  | fault (f : Fault) (committed : Bool)
  deriving DecidableEq, Repr

def DbFault.committed : DbFault → Bool
  | .uniqueViolation | .integrityError => false
  | .sqlalchemyError committed | .osError committed | .fault _ committed => committed

/-- A failed `eval`, and whether the script had run before the failure. -/
structure RedisFault where
  /-- `none` for a `RedisError`. -/
  fault : Option Fault
  executed : Bool
  deriving DecidableEq, Repr

/-- The metrics that handlers record; recording one never fails visibly. -/
inductive Metric where
  | securityEvent (eventType : AuditEventType) (outcome : AuditOutcome)
  | rateLimitDecision (scope decision : String)
  | upstreamRequest (service outcome : String)
  deriving DecidableEq

inductive GatewayOp where
  | uuid4
  | utcNow
  | clockMs
  | jwtDecode (token : String)
  | jwtEncode (payload : Payload)
  | hashPassword (password : String)
  | verifyPassword (password hashedPassword : String)
  | verifyAndUpdatePassword (password hashedPassword : String)
  | metric (m : Metric)
  | emitSecurityAuditEvent (e : SecurityAuditEvent)
  | emitAuditPersistenceFailure (e : SecurityAuditEvent)
  | appendEvent (e : SecurityAuditEvent)
  | selectUser (username : String)
  | commitUser (record : UserRecord) (roleId : Uuid)
  | commitPasswordHash (userId : Uuid) (hashedPassword : String)
  | selectUserCount
  | selectPermissionExists (userId : Uuid) (code : String)
  | selectPermissionCodes (userId : Uuid)
  | selectRoleNames (userId : Uuid)
  | selectRoleId (name : String)
  | selectUserId (userId : Uuid)
  | insertUserRole (userId roleId : Uuid)
  | deleteUserRole (userId roleId : Uuid)
  | evalTokenBucket (key : String) (capacity refillRate cost : ℚ) (nowMs ttlMs : ℤ)
  | evalLockStatus (key : String) (nowMs : ℤ)
  | evalLoginFailure (key : String) (threshold nowMs failureWindowMs lockoutMs : ℤ)
  | evalLoginReset (key : String)
  | requestBody
  | upstream (e : UpstreamOp)

abbrev GatewayOp.Reply : GatewayOp → Type
  | .uuid4 => Uuid
  | .utcNow => Timestamp
  | .clockMs => ℤ
  /- `none` in the error stands for PyJWT's `InvalidTokenError`. -/
  | .jwtDecode _ => Except (Option String) Payload
  | .jwtEncode _ => Except String String
  | .hashPassword _ => Except Fault String
  | .verifyPassword _ _ => Except Fault Bool
  | .verifyAndUpdatePassword _ _ => Except Fault (Bool × Option String)
  | .metric _ => Unit
  | .emitSecurityAuditEvent _ => Unit
  | .emitAuditPersistenceFailure _ => Unit
  | .appendEvent _ => Except DbFault Unit
  | .selectUser _ => Except DbFault (Option UserRecord)
  | .commitUser _ _ => Except DbFault Unit
  | .commitPasswordHash _ _ => Except DbFault Unit
  | .selectUserCount => Except DbFault ℕ
  | .selectPermissionExists _ _ => Except DbFault Bool
  | .selectPermissionCodes _ => Except DbFault (List String)
  | .selectRoleNames _ => Except DbFault (List String)
  | .selectRoleId _ => Except DbFault (Option Uuid)
  | .selectUserId _ => Except DbFault Bool
  | .insertUserRole _ _ => Except DbFault Bool
  | .deleteUserRole _ _ => Except DbFault Bool
  | .evalTokenBucket _ _ _ _ _ _ => Except RedisFault RateLimit.ScriptReply
  | .evalLockStatus _ _ => Except RedisFault Login.LoginReply
  | .evalLoginFailure _ _ _ _ _ => Except RedisFault Login.LoginReply
  | .evalLoginReset _ => Except RedisFault Bool
  | .requestBody => Except Fault (List UInt8)
  | .upstream e => e.Reply

abbrev gateway : Signature := ⟨GatewayOp, GatewayOp.Reply⟩

/-- A handler, or a part of one. -/
abbrev Action (α : Type) := Prog gateway Raised α

abbrev invoke (op : GatewayOp) : Action op.Reply := Prog.call (S := gateway) op

/-- What the settings and the pure libraries give the handlers. -/
structure Config where
  unicode : Python.Unicode
  /-- `hashlib.sha256(text.encode("utf-8")).hexdigest()`. -/
  sha256Hex : String → String
  /-- `UUID(text)`, where it does not raise. -/
  parseUuid : String → Option Uuid
  redisKeyPrefix : String
  dummyPasswordHash : String
  issuer : String
  audience : String
  accessTokenMinutes : ℤ
  resilience : UpstreamResilienceSettings
  /-- Whether `get_audit_service` finds a database session factory. -/
  auditConfigured : Bool
  /-- `_validate_service_base_url` on the value configured for a registered service. -/
  validatedBaseUrl : String → Except Raised String

/-- The state that the handlers share, with the wall clock that the gateway and Redis read. -/
structure World where
  db : Database
  auditEvents : List SecurityAuditEvent
  buckets : String → Redis.Key RateLimit.Bucket
  logins : String → Login.LoginKey
  circuits : Circuits
  nowMs : ℤ

namespace World

section Replies

variable {α : Type} [DecidableEq α] (w : World)

/-- A statement answers with its result, or fails whether or not it took effect. -/
def statement (r : Except DbFault α) (result : α) (next : World) : Option World :=
  match r with
  | .error f => if f.committed then some next else some w
  | .ok a => if a = result then some next else none

/-- A script answers with its result, or the caller sees a failure whether or not it ran. -/
def script {β : Type} (r : Except RedisFault α) (result : Except String α × β)
    (store : β → World) : Option World :=
  match r with
  | .error f => if f.executed then some (store result.2) else some w
  | .ok a => if result.1 = .ok a then some (store result.2) else none

end Replies

def setBucket (w : World) (key : String) (b : Redis.Key RateLimit.Bucket) : World :=
  { w with buckets := Function.update w.buckets key b }

def setLogin (w : World) (key : String) (s : Login.LoginKey) : World :=
  { w with logins := Function.update w.logins key s }

/-- `INSERT` of a user and of its role: the keys of both tables are enforced. -/
def insertUser (w : World) (record : UserRecord) (roleId : Uuid) : Option World :=
  if w.db.violatesUnique record ∨ w.db.hasRole roleId = false then none
  else some { w with db := w.db.addUser record roleId }

def commitUser (w : World) (record : UserRecord) (roleId : Uuid) :
    Except DbFault Unit → Option World
  | .ok _ => w.insertUser record roleId
  | .error .uniqueViolation => if w.db.violatesUnique record then some w else none
  | .error f => if f.committed then w.insertUser record roleId else some w

/-- `INSERT … ON CONFLICT DO NOTHING`: both foreign keys hold. -/
def insertRole (w : World) (userId roleId : Uuid) : Option World :=
  if w.db.hasUser userId ∧ w.db.hasRole roleId then
    some { w with db := w.db.insertUserRole userId roleId }
  else none

def respond (settings : UpstreamResilienceSettings) (w : World) :
    (op : GatewayOp) → op.Reply → Option World
  | .uuid4, _ | .utcNow, _ | .jwtDecode _, _ | .jwtEncode _, _ | .hashPassword _, _
  | .verifyPassword _ _, _ | .verifyAndUpdatePassword _ _, _ | .metric _, _
  | .emitSecurityAuditEvent _, _ | .emitAuditPersistenceFailure _, _ | .requestBody, _ => some w
  | .clockMs, r => if r = w.nowMs then some w else none
  | .appendEvent e, r => w.statement r () { w with auditEvents := w.auditEvents ++ [e] }
  | .selectUser username, r => w.statement r (w.db.userByUsername username) w
  | .commitUser record roleId, r => w.commitUser record roleId r
  | .commitPasswordHash userId hashedPassword, r =>
    w.statement r ()
      { w with db := w.db.setPasswordHash userId hashedPassword (w.nowMs * 1000) }
  | .selectUserCount, r => w.statement r w.db.users.length w
  | .selectPermissionExists userId code, r => w.statement r (w.db.permissionExists userId code) w
  | .selectPermissionCodes userId, r => w.statement r (w.db.permissionCodesForUser userId) w
  | .selectRoleNames userId, r => w.statement r (w.db.roleNamesForUser userId) w
  | .selectRoleId name, r => w.statement r (w.db.roleIdByName name) w
  | .selectUserId userId, r => w.statement r (w.db.hasUser userId) w
  | .insertUserRole userId roleId, r =>
    match r with
    | .error f => if f.committed then w.insertRole userId roleId else some w
    -- The row count tells whether the row is new.
    | .ok changed =>
      if changed = !w.db.hasUserRole userId roleId then w.insertRole userId roleId else none
  | .deleteUserRole userId roleId, r =>
    w.statement r (w.db.hasUserRole userId roleId)
      { w with db := w.db.deleteUserRole userId roleId }
  | .evalTokenBucket key capacity refillRate cost nowMs ttlMs, r =>
    w.script r
      (RateLimit.tokenBucketScript capacity refillRate cost nowMs ttlMs w.nowMs (w.buckets key))
      (w.setBucket key)
  | .evalLockStatus key nowMs, r =>
    w.script r (Login.loginLockStatusScript nowMs w.nowMs (w.logins key)) (w.setLogin key)
  | .evalLoginFailure key threshold nowMs failureWindowMs lockoutMs, r =>
    w.script r
      (Login.loginFailureScript threshold nowMs failureWindowMs lockoutMs w.nowMs (w.logins key))
      (w.setLogin key)
  | .evalLoginReset key, r =>
    let result := Login.loginResetScript w.nowMs (w.logins key)
    w.script r (.ok result.1, result.2) (w.setLogin key)
  | .upstream e, r => (w.circuits.respond settings e r).map fun c => { w with circuits := c }

end World

end SecureGateway.Gateway
