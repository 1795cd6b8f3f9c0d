import SecureGateway.Gateway.System

/-!
# The parts of a handler that look up and record

Everything that neither calls upstream nor writes a role, a user or a login state. What these
parts perform is allowed at any time.
-/
namespace SecureGateway.Gateway

open Interleaving

/-- The operations that are permitted at any time. -/
def Harmless : GatewayOp → Prop
  | .upstream _ | .insertUserRole _ _ | .deleteUserRole _ _ | .commitUser _ _
  | .evalLockStatus _ _ | .evalLoginFailure _ _ _ _ _ | .evalLoginReset _ => False
  | _ => True

/-- What the checks before a handler perform, and what is recorded of them. -/
def Checking : GatewayOp → Prop
  | .uuid4 | .utcNow | .jwtDecode _ | .metric _ | .emitSecurityAuditEvent _
  | .emitAuditPersistenceFailure _ | .appendEvent _ | .selectUser _
  | .selectPermissionExists _ _ => True
  | _ => False

/-- The same, where every metric is a security event. -/
def Auditing : GatewayOp → Prop
  | .metric (.securityEvent _ _) => True
  | .metric _ => False
  | op => Checking op

theorem checking_of_auditing (op : GatewayOp) (h : Auditing op) : Checking op := by
  cases op <;> trivial

/-- The labels that `rateLimitDecision` is called with. -/
def rateLimitScopes : List String := ["proxy", "login"]

def rateLimitDecisions : List String := ["allowed", "rejected", "unavailable"]

/-- Harmless, and the labels of a metric are literals or enumerated. -/
def Looking : GatewayOp → Prop
  | .metric (.securityEvent _ _) => True
  | .metric (.rateLimitDecision scope decision) =>
    scope ∈ rateLimitScopes ∧ decision ∈ rateLimitDecisions
  | .metric (.upstreamRequest _ _) => False
  | op => Harmless op

theorem harmless_of_looking (op : GatewayOp) (h : Looking op) : Harmless op := by
  cases op <;> trivial

theorem looking_of_auditing (op : GatewayOp) (h : Auditing op) : Looking op := by
  cases op with
  | metric m => cases m <;> trivial
  | _ => trivial

/-- The decision of a limiter, as it is counted. -/
theorem decision_mem (allowed : Bool) :
    (if allowed then "allowed" else "rejected") ∈ rateLimitDecisions := by
  cases allowed <;> decide

variable {cfg : Config} {http : HttpRequest} {α : Type}

theorem auditing_recordRequestSecurityEvent (fields : Audit.EventFields) :
    (recordRequestSecurityEvent cfg http fields).Only Auditing := by
  refine Prog.only_bind ?_ fun event => ?_
  · refine Prog.only_call_bind trivial fun eventId => ?_
    exact Prog.only_call_bind trivial fun occurredAt => Prog.only_liftExcept _
  · refine Prog.only_call_bind trivial fun _ => ?_
    refine Prog.only_call_bind trivial fun _ => ?_
    split
    · refine Prog.only_call_bind trivial fun appended => ?_
      match appended with
      | .ok _ => exact Prog.only_pure _
      | .error (.fault f _) => exact Prog.only_throw _
      | .error .uniqueViolation | .error .integrityError | .error (.sqlalchemyError _)
      | .error (.osError _) => exact Prog.only_call_bind trivial fun _ => Prog.only_pure _
    · exact Prog.only_pure _

theorem only_recordRequestSecurityEvent (fields : Audit.EventFields) :
    (recordRequestSecurityEvent cfg http fields).Only Looking :=
  (auditing_recordRequestSecurityEvent fields).mono looking_of_auditing

theorem auditing_audited_throw (fields : Audit.EventFields) (error : Raised) :
    (recordRequestSecurityEvent cfg http fields >>= fun _ => (throw error : Action α)).Only
      Auditing :=
  Prog.only_bind (auditing_recordRequestSecurityEvent fields) fun _ => Prog.only_throw _

theorem only_audited_throw (fields : Audit.EventFields) (error : Raised) :
    (recordRequestSecurityEvent cfg http fields >>= fun _ => (throw error : Action α)).Only
      Looking :=
  (auditing_audited_throw fields error).mono looking_of_auditing

section Users

theorem only_orRaise (f : DbFault) (backend : Raised) {P : GatewayOp → Prop} :
    (f.orRaise backend : Action α).Only P := by
  cases f <;> exact Prog.only_throw _

theorem only_userResult {P : GatewayOp → Prop} (r : Except DbFault α) :
    (UserRepository.result r).Only P := by
  cases r with
  | ok a => exact Prog.only_pure a
  | error f => exact only_orRaise f _

theorem auditing_getByUsername (username : String) :
    (UserRepository.getByUsername cfg username).Only Auditing := by
  refine Prog.only_bind (Prog.only_liftExcept _) fun name => ?_
  refine Prog.only_call_bind trivial fun selected => ?_
  exact Prog.only_bind (only_userResult selected) fun record => Prog.only_pure _

theorem only_getByUsername (username : String) :
    (UserRepository.getByUsername cfg username).Only Looking :=
  (auditing_getByUsername username).mono looking_of_auditing

theorem only_updatePasswordHash (username hashedPassword : String) :
    (UserRepository.updatePasswordHash cfg username hashedPassword).Only Looking := by
  refine Prog.only_bind (Prog.only_liftExcept _) fun name => ?_
  split
  · exact Prog.only_throw _
  · refine Prog.only_call_bind trivial fun selected => ?_
    refine Prog.only_bind (only_userResult selected) fun found => ?_
    cases found with
    | none => exact Prog.only_throw _
    | some record =>
      refine Prog.only_call_bind trivial fun committed => ?_
      exact Prog.only_bind (only_userResult committed) fun _ => Prog.only_pure _

end Users

section Authentication

theorem auditing_decodeAccessToken (token : String) :
    (decodeAccessToken cfg token).Only Auditing := by
  unfold decodeAccessToken
  split
  · exact Prog.only_throw _
  · refine Prog.only_call_bind trivial fun decoded => ?_
    match decoded with
    | .error none => exact Prog.only_throw _
    | .error (some className) => exact Prog.only_throw _
    | .ok payload => exact Prog.only_liftExcept _

theorem auditing_getCurrentUser : (getCurrentUser cfg http).Only Auditing := by
  unfold getCurrentUser
  split
  · exact Prog.only_throw _
  · next token _ =>
    refine Prog.only_bind ?_ fun user => ?_
    · refine Prog.only_tryCatch ?_ fun error => Prog.only_throw _
      exact Prog.only_bind (auditing_decodeAccessToken token) fun claims =>
        auditing_getByUsername _
    · cases user with
      | none => exact Prog.only_throw _
      | some user =>
        dsimp only
        split
        · exact Prog.only_pure _
        · exact Prog.only_throw _

theorem only_getCurrentUser : (getCurrentUser cfg http).Only Looking :=
  auditing_getCurrentUser.mono looking_of_auditing

theorem only_threaded (r : Except Fault α) :
    (AuthenticationService.threaded r).Only Looking := by
  cases r with
  | ok a => exact Prog.only_pure a
  | error f => exact Prog.only_throw _

theorem only_createAccessToken (subject : String) :
    (createAccessToken cfg subject).Only Looking := by
  unfold createAccessToken
  dsimp only
  split
  · exact Prog.only_throw _
  · refine Prog.only_call_bind trivial fun issuedAt => ?_
    split
    · exact Prog.only_throw _
    · refine Prog.only_call_bind trivial fun jti => ?_
      refine Prog.only_call_bind trivial fun encoded => ?_
      cases encoded with
      | ok token => exact Prog.only_pure token
      | error className => exact Prog.only_throw _

theorem only_authenticateUser (username password : String) :
    (AuthenticationService.authenticateUser cfg username password).Only Looking := by
  refine Prog.only_bind (Prog.only_tryCatch (only_getByUsername username) fun error => ?_)
    fun storedUser => ?_
  · split
    · exact Prog.only_pure none
    · exact Prog.only_throw _
  · cases storedUser with
    | none =>
      refine Prog.only_call_bind trivial fun verified => ?_
      exact Prog.only_bind (only_threaded verified) fun _ => Prog.only_throw _
    | some user =>
      refine Prog.only_call_bind trivial fun verified => ?_
      refine Prog.only_bind (only_threaded verified) fun result => ?_
      dsimp only
      split
      · exact Prog.only_throw _
      · split
        · exact Prog.only_pure _
        · exact only_updatePasswordHash _ _

theorem only_authenticateAndCreateResult (username password : String) :
    (AuthenticationService.authenticateAndCreateResult cfg username password).Only Looking := by
  refine Prog.only_bind (only_authenticateUser username password) fun user => ?_
  exact Prog.only_bind (only_createAccessToken _) fun _ => Prog.only_pure _

end Authentication

section Limits

/-- The limiter reads the clock and runs its script on the key of the stripped identity. -/
theorem only_check_of {P : GatewayOp → Prop} {identity : String}
    {policy : RateLimit.RateLimitPolicy} (hclock : P .clockMs)
    (hscript : ∀ nowMs, P (.evalTokenBucket
      (RedisRateLimiter.buildKey cfg (Python.strip identity) policy) policy.capacity
      policy.refillRatePerSecond policy.cost nowMs policy.stateTtlMs)) :
    (RedisRateLimiter.check cfg identity policy).Only P := by
  unfold RedisRateLimiter.check
  dsimp only
  split
  · exact Prog.only_throw _
  · refine Prog.only_call_bind hclock fun nowMs => ?_
    split
    · exact Prog.only_throw _
    · refine Prog.only_call_bind (hscript nowMs) fun raw => ?_
      match raw with
      | .error ⟨none, _⟩ => exact Prog.only_throw _
      | .error ⟨some f, _⟩ => exact Prog.only_throw _
      | .ok r =>
        dsimp only
        split
        · exact Prog.only_pure _
        · exact Prog.only_throw _

theorem only_check (identity : String) (policy : RateLimit.RateLimitPolicy) :
    (RedisRateLimiter.check cfg identity policy).Only Looking :=
  only_check_of trivial fun _ => trivial

/-- A check whose decision is counted, and which a denial ends. -/
theorem only_limited {scope : String} {limiter : Action RateLimit.RateLimitDecision}
    {recovery : Raised → Action RateLimit.RateLimitDecision}
    {denied : RateLimit.RateLimitDecision → Action RateLimit.RateLimitDecision}
    (hscope : scope ∈ rateLimitScopes) (hlimiter : limiter.Only Looking)
    (hrecovery : ∀ e, (recovery e).Only Looking) (hdenied : ∀ d, (denied d).Only Looking) :
    Prog.Only Looking (do
      let decision ← limiter.tryCatch recovery
      let _ ← invoke (.metric
        (.rateLimitDecision scope (if decision.allowed then "allowed" else "rejected")))
      if decision.allowed then pure decision else denied decision) := by
  refine Prog.only_bind (Prog.only_tryCatch hlimiter hrecovery) fun decision => ?_
  refine Prog.only_call_bind ⟨hscope, decision_mem _⟩ fun _ => ?_
  split
  · exact Prog.only_pure _
  · exact hdenied decision

theorem only_enforceProxyRateLimit (serviceName : String) (user : UserPublic) :
    (enforceProxyRateLimit cfg http serviceName user).Only Looking := by
  refine only_limited (by decide) (only_check _ _) (fun error => ?_)
    fun _ => only_audited_throw _ _
  split
  · exact Prog.only_call_bind ⟨by decide, by decide⟩ fun _ => only_audited_throw _ _
  · exact Prog.only_throw _

theorem only_enforceLoginIpRateLimit : (enforceLoginIpRateLimit cfg http).Only Looking := by
  refine only_limited (by decide) (only_check _ _) (fun error => ?_)
    fun _ => only_audited_throw _ _
  split
  · exact Prog.only_call_bind ⟨by decide, by decide⟩ fun _ => only_audited_throw _ _
  · exact Prog.only_throw _

theorem only_evaluated {α : Type} {P : GatewayOp → Prop} (r : Except RedisFault α) :
    (RedisLoginProtection.evaluated r).Only P := by
  match r with
  | .ok a => exact Prog.only_pure a
  | .error ⟨none, _⟩ => exact Prog.only_throw _
  | .error ⟨some f, _⟩ => exact Prog.only_throw _

theorem only_readClock {P : GatewayOp → Prop} (hclock : P .clockMs) :
    RedisLoginProtection.readClock.Only P := by
  refine Prog.only_call_bind hclock fun nowMs => ?_
  split
  · exact Prog.only_throw _
  · exact Prog.only_pure _

/-- A script asked at the time of the clock, and its reply parsed. -/
theorem only_decided {P : GatewayOp → Prop} (hclock : P .clockMs)
    {ask : ℤ → Action (Except RedisFault Login.LoginReply)} (hask : ∀ nowMs, (ask nowMs).Only P) :
    (RedisLoginProtection.readClock >>= fun nowMs => ask nowMs >>= fun raw =>
      RedisLoginProtection.evaluated raw >>= fun reply =>
        Prog.liftExcept (RedisLoginProtection.parseDecision reply) :
      Action LoginProtectionDecision).Only P := by
  refine Prog.only_bind (only_readClock hclock) fun nowMs => ?_
  refine Prog.only_bind (hask nowMs) fun raw => ?_
  exact Prog.only_bind (only_evaluated raw) fun reply => Prog.only_liftExcept _

end Limits

section Permissions

theorem only_authorizationResult {P : GatewayOp → Prop} (r : Except DbFault α) :
    (AuthorizationRepository.result r).Only P := by
  cases r with
  | ok a => exact Prog.only_pure a
  | error f => exact only_orRaise f _

theorem only_getRoleId (name : String) :
    (AuthorizationRepository.getRoleId cfg name).Only Looking := by
  refine Prog.only_bind (Prog.only_liftExcept _) fun normalized => ?_
  refine Prog.only_call_bind trivial fun selected => ?_
  refine Prog.only_bind (only_authorizationResult selected) fun roleId => ?_
  cases roleId with
  | none => exact Prog.only_throw _
  | some roleId => exact Prog.only_pure roleId

theorem only_requireUser (userId : Uuid) :
    (AuthorizationRepository.requireUser userId).Only Looking := by
  refine Prog.only_call_bind trivial fun selected => ?_
  refine Prog.only_bind (only_authorizationResult selected) fun existing => ?_
  cases existing with
  | false => exact Prog.only_throw _
  | true => exact Prog.only_pure ()

theorem auditing_enforcePermission (user : UserPublic) (code : String)
    (serviceName : Option String) :
    (enforcePermission cfg http user code serviceName).Only Auditing := by
  refine Prog.only_tryCatch (Prog.only_bind ?_ fun allowed => ?_) fun error => ?_
  · refine Prog.only_bind (Prog.only_liftExcept _) fun name => ?_
    refine Prog.only_bind (Prog.only_liftExcept _) fun name => ?_
    exact Prog.only_call_bind trivial only_authorizationResult
  · split
    · exact Prog.only_pure ()
    · exact Prog.only_throw _
  · split
    · exact auditing_audited_throw _ _
    · exact auditing_audited_throw _ _
    · exact Prog.only_throw _

theorem only_enforcePermission (user : UserPublic) (code : String) (serviceName : Option String) :
    (enforcePermission cfg http user code serviceName).Only Looking :=
  (auditing_enforcePermission user code serviceName).mono looking_of_auditing

theorem auditing_requirePermission (code : String) :
    (requirePermission cfg http code).Only Auditing :=
  Prog.only_bind auditing_getCurrentUser fun user =>
    Prog.only_bind (auditing_enforcePermission user code none) fun _ => Prog.only_pure user

theorem only_enforceProxyAuthorization (serviceName : String) (user : UserPublic) :
    (enforceProxyAuthorization cfg http serviceName user).Only Looking :=
  Prog.only_bind (Prog.only_liftExcept _) fun _ => only_enforcePermission _ _ _

theorem only_getTargetUser (username code : String) (actor : Uuid) :
    (getTargetUser cfg http username actor code).Only Looking := by
  refine Prog.only_bind (Prog.only_tryCatch (only_getByUsername username) fun error => ?_)
    fun user => ?_
  · split
    · exact only_audited_throw _ _
    · exact Prog.only_throw _
    · exact Prog.only_throw _
  · cases user with
    | none => exact Prog.only_throw _
    | some user => exact Prog.only_pure user

theorem only_readUserRoles (username : String) :
    (readUserRoles cfg http username).Only Looking := by
  refine Prog.only_bind (Prog.only_bind only_getCurrentUser fun user => ?_) fun actor => ?_
  · exact Prog.only_bind (only_enforcePermission _ _ _) fun _ => Prog.only_pure _
  · refine Prog.only_bind (only_getTargetUser _ _ _) fun target => ?_
    refine Prog.only_bind (Prog.only_tryCatch ?_ fun error => ?_) fun roles => ?_
    · exact Prog.only_call_bind trivial only_authorizationResult
    · split
      · exact only_audited_throw _ _
      · exact Prog.only_throw _
    · exact Prog.only_bind (only_recordRequestSecurityEvent _) fun _ => Prog.only_pure _

theorem only_readCurrentUser : (readCurrentUser cfg http).Only Looking :=
  Prog.only_bind only_getCurrentUser fun _ => Prog.only_pure _

theorem only_upstreamFailed {P : GatewayOp → Prop} {serviceName : String}
    (hP : ∀ outcome ∈ ["timeout", "unavailable"],
      P (.metric (.upstreamRequest serviceName outcome))) (error : Raised) :
    (upstreamFailed serviceName error : Action α).Only P := by
  unfold upstreamFailed
  split
  · exact Prog.only_throw _
  · split
    · exact Prog.only_call_bind (hP _ (by simp)) fun _ => Prog.only_throw _
    · exact Prog.only_call_bind (hP _ (by simp)) fun _ => Prog.only_throw _
  · exact Prog.only_throw _

end Permissions

end SecureGateway.Gateway
