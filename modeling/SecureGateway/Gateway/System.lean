import SecureGateway.Foundation.Execution
import SecureGateway.Auth.Router
import SecureGateway.Proxy.Router

/-!
# The gateway

All routes of the application over one database, one Redis and the circuits of the process.
PostgreSQL and Redis are configured, as in the container deployment.
-/
namespace SecureGateway.Gateway

open Interleaving

inductive ApiRequest where
  | register (http : HttpRequest) (username password : String)
  | token (http : HttpRequest) (username password : String)
  | me (http : HttpRequest)
  | readRoles (http : HttpRequest) (username : String)
  | assignRole (http : HttpRequest) (username roleName : String)
  | removeRole (http : HttpRequest) (username roleName : String)
  | proxy (http : HttpRequest) (serviceName path : String)

def route (cfg : Config) : ApiRequest → Action ApiResponse
  | .register http username password => registerUser cfg http username password
  | .token http username password => issueAccessToken cfg http username password
  | .me http => readCurrentUser cfg http
  | .readRoles http username => readUserRoles cfg http username
  | .assignRole http username roleName => assignUserRole cfg http username roleName
  | .removeRole http username roleName => removeUserRole cfg http username roleName
  | .proxy http serviceName path =>
    if http.method ∈ proxyMethods then proxyRequest cfg http serviceName path
    else throw (.http ⟨405, "Method Not Allowed", []⟩)

/-- New readings of the wall clock and of the monotonic clock; neither runs backwards. -/
structure Elapsed where
  nowMs : ℤ
  clock : ℚ

def World.advance (t : Elapsed) (w : World) : World :=
  { w with
    nowMs := max w.nowMs t.nowMs
    circuits := { w.circuits with clock := max w.circuits.clock t.clock } }

abbrev gatewaySystem (cfg : Config) : System where
  sig := gateway
  World := World
  Request := ApiRequest
  Failure := Raised
  Result := ApiResponse
  Tick := Elapsed
  handler := route cfg
  respond := World.respond cfg.resilience
  advance := World.advance

section Deployment

/-- What a schedule says about everything outside the stores and the breakers. -/
structure Outside where
  uuid : Uuid
  utcNow : Timestamp
  decoded : Except (Option String) Payload
  encoded : String
  hashed : String
  verified : Bool
  body : List UInt8
  response : Except Resilience.RequestFailure Resilience.UpstreamResponse

/-- The answer of a script that ran: an error of it reaches the caller as a `RedisError`. -/
def scriptReply {α : Type} : Except String α → Except RedisFault α
  | .ok a => .ok a
  | .error _ => .error ⟨none, true⟩

/-- What a `text` column of PostgreSQL can hold. -/
def isTextual (s : String) : Bool := s.toList.all fun c => c.toNat ≠ 0

/-- The replies of working back ends. -/
def World.reply (settings : Resilience.UpstreamResilienceSettings) (o : Outside) (w : World) :
    (op : GatewayOp) → op.Reply
  | .uuid4 => o.uuid
  | .utcNow => o.utcNow
  | .clockMs => w.nowMs
  | .jwtDecode _ => o.decoded
  | .jwtEncode _ => .ok o.encoded
  | .hashPassword _ => .ok o.hashed
  | .verifyPassword _ _ => .ok o.verified
  | .verifyAndUpdatePassword _ _ => .ok (o.verified, none)
  | .metric _ | .emitSecurityAuditEvent _ | .emitAuditPersistenceFailure _ => ()
  | .appendEvent _ => .ok ()
  | .selectUser username => .ok (w.db.userByUsername username)
  | .commitUser record _ =>
    if isTextual record.hashedPassword = false then .error (.sqlalchemyError false)
    else if w.db.violatesUnique record then .error .uniqueViolation
    else .ok ()
  | .commitPasswordHash _ hashedPassword =>
    if isTextual hashedPassword then .ok () else .error (.sqlalchemyError false)
  | .selectUserCount => .ok w.db.users.length
  | .selectPermissionExists userId code => .ok (w.db.permissionExists userId code)
  | .selectPermissionCodes userId => .ok (w.db.permissionCodesForUser userId)
  | .selectRoleNames userId => .ok (w.db.roleNamesForUser userId)
  | .selectRoleId name => .ok (w.db.roleIdByName name)
  | .selectUserId userId => .ok (w.db.hasUser userId)
  | .insertUserRole userId roleId => .ok !w.db.hasUserRole userId roleId
  | .deleteUserRole userId roleId => .ok (w.db.hasUserRole userId roleId)
  | .evalTokenBucket key capacity refillRate cost nowMs ttlMs =>
    scriptReply (RateLimit.tokenBucketScript capacity refillRate cost nowMs ttlMs w.nowMs
      (w.buckets key)).1
  | .evalLockStatus key nowMs =>
    scriptReply (Login.loginLockStatusScript nowMs w.nowMs (w.logins key)).1
  | .evalLoginFailure key threshold nowMs failureWindowMs lockoutMs =>
    scriptReply (Login.loginFailureScript threshold nowMs failureWindowMs lockoutMs w.nowMs
      (w.logins key)).1
  | .evalLoginReset key => .ok (Login.loginResetScript w.nowMs (w.logins key)).1
  | .requestBody => .ok o.body
  | .upstream (.beforeRequest service) =>
    ((w.circuits.breaker service).beforeRequest settings w.circuits.clock).1
  | .upstream (.record service permit settlement) =>
    ((w.circuits.breaker service).record settings w.circuits.clock permit settlement).1
  | .upstream (.onEvent _ _) => none
  | .upstream (.request _) => ()
  | .upstream .response => o.response
  | .upstream (.sleep _) => .completed

/-- Working back ends, for one action alone. -/
def working (settings : Resilience.UpstreamResilienceSettings) (o : Outside) :
    Environment gateway World :=
  fun w op =>
    let r := w.reply settings o op
    (r, (w.respond settings op r).getD w)

/-- The default settings. The tables know ASCII, and the digests are those of the texts that
schedules over this deployment hash. -/
def defaultConfig : Config where
  unicode := .ascii
  sha256Hex text :=
    if text = "alice" then "2bd806c97f0e00af1a1fc3328fa763a9269723c8db8fac4f93af71db186d6e90"
    else if text = "127.0.0.1" then
      "12ca17b49af2289436f303e0166030a21e525d266e209267433801a8fd4071a0"
    else if text = "0a000000-0000-4000-8000-000000000001" then
      "05acd3bba52404d313805dd1e7507b03156c0e3ead28bc3202e50222d1ccf015"
    else ""
  parseUuid text :=
    if text = "0b000000-0000-4000-8000-000000000002" then
      some 0x0b000000000040008000000000000002#128
    else none
  redisKeyPrefix := "secure-api-gateway"
  dummyPasswordHash := "$argon2id$dummy"
  issuer := "secure-api-gateway"
  audience := "secure-api-clients"
  accessTokenMinutes := 15
  resilience := .default
  auditConfigured := true
  validatedBaseUrl serviceName := .ok ("http://" ++ serviceName ++ ":8000")

def alice : UserRecord :=
  ⟨0x0a000000000040008000000000000001#128, "alice", "$argon2id$alice", true, 0, 0⟩

/-- The database right after the migration, with one user, and nothing in Redis yet. -/
def migratedWorld : World where
  db := Migration.upgrade [alice]
  auditEvents := []
  buckets _ := none
  logins _ := none
  circuits := .fresh 0
  nowMs := 0

/-- A client on the gateway's own host. -/
def localRequest (method : String) (bearerToken : Option String) : HttpRequest :=
  ⟨method, [], some "127.0.0.1", "http", [], 0x0c000000000040008000000000000003#128, bearerToken⟩

/-- Everything outside works, and a decoded token is one of alice's. -/
def outsideWorks (verified : Bool) : Outside where
  uuid := 0x0b000000000040008000000000000002#128
  utcNow := 0
  decoded := .ok
    [("type", .string "access"), ("sub", .string "alice"),
      ("jti", .string "0b000000-0000-4000-8000-000000000002"), ("iat", .number 0),
      ("exp", .number 900)]
  encoded := "token"
  hashed := "$argon2id$new"
  verified
  body := []
  response := .ok ⟨200, [], []⟩

/-- The next `n` steps of request `i`. -/
def steps (i n : ℕ) (verified : Bool) : List (Move (gatewaySystem defaultConfig)) :=
  List.replicate n (.act i (World.reply .default (outsideWorks verified)))

end Deployment

end SecureGateway.Gateway
