import SecureGateway.Gateway.Lookups
import SecureGateway.Resilience.Calls

/-!
# What a handler has seen before it acts

Every route, whatever the replies: an upstream operation comes after the whole chain of checks
of its request, a role mutation after the actor's permission was found in the database, a
reset of a login state after its lock was found open, and a login script runs with a reading
of the clock taken before.
-/
namespace SecureGateway.Gateway

open Interleaving Resilience

/-- In this history the operation was answered with the reply. -/
def Performed (h : History gateway) (op : GatewayOp) (r : op.Reply) : Prop :=
  (⟨op, r⟩ : Exchange gateway) ∈ h

theorem Performed.mono {h h' : History gateway} {op : GatewayOp} {r : op.Reply}
    (hp : Performed h op r) (hle : h <+: h') : Performed h' op r := hle.subset hp

theorem performed_last (h : History gateway) (op : GatewayOp) (r : op.Reply) :
    Performed (h ++ [⟨op, r⟩]) op r := by
  simp [Performed]

/-- The reply makes the code raise one of its back-end errors. -/
def BackendFailure : (op : GatewayOp) → op.Reply → Prop
  | .selectUser _, .error _ | .selectPermissionExists _ _, .error _
  | .evalTokenBucket _ _ _ _ _ _, .error _ => True
  | .evalTokenBucket _ _ _ _ _ _, .ok r =>
    ∀ decision, RateLimit.decisionOf RateLimit.proxyRateLimitPolicy r.allowed r.tokens
      r.retryAfterMs r.resetAfterMs ≠ .ok decision
  | _, _ => False

/-- The second history extends the first, and no back end failed in between. -/
def Smooth (h h' : History gateway) : Prop :=
  ∃ k, h' = h ++ k ∧ ∀ x ∈ k, ¬ BackendFailure x.op x.reply

theorem Smooth.le {h h' : History gateway} (hs : Smooth h h') : h <+: h' := by
  obtain ⟨k, rfl, -⟩ := hs
  exact List.prefix_append h k

theorem Smooth.trans {h h' h'' : History gateway} (hs : Smooth h h') (hs' : Smooth h' h'') :
    Smooth h h'' := by
  obtain ⟨k, rfl, hk⟩ := hs
  obtain ⟨k', rfl, hk'⟩ := hs'
  refine ⟨k ++ k', List.append_assoc h k k', fun x hx => ?_⟩
  rcases List.mem_append.mp hx with hx | hx
  · exact hk x hx
  · exact hk' x hx

theorem smooth_last (h : History gateway) {op : GatewayOp} {r : op.Reply}
    (hr : ¬ BackendFailure op r) : Smooth h (h ++ [⟨op, r⟩]) :=
  ⟨[⟨op, r⟩], rfl, by simpa using hr⟩

section Facts

variable (cfg : Config) (http : HttpRequest)

/-- The token of the request was verified, and the row loaded for its subject is active. -/
def Authenticated (userId : Uuid) (h : History gateway) : Prop :=
  ∃ token payload claims name record, http.bearerToken = some token ∧
    Performed h (.jwtDecode token) (.ok payload) ∧ claimsOfPayload cfg payload = .ok claims ∧
    Auth.normalizeUsername cfg.unicode claims.subject = .ok name ∧
    Performed h (.selectUser name) (.ok (some record)) ∧ record.isActive = true ∧
    record.id = userId

/-- The limiter allowed the user. -/
def RateLimitAllowed (userId : Uuid) (h : History gateway) : Prop :=
  let policy := RateLimit.proxyRateLimitPolicy
  ∃ nowMs r decision,
    Performed h (.evalTokenBucket
      (RedisRateLimiter.buildKey cfg (Python.strip userId.str) policy) policy.capacity
      policy.refillRatePerSecond policy.cost nowMs policy.stateTtlMs) (.ok r) ∧
    RateLimit.decisionOf policy r.allowed r.tokens r.retryAfterMs r.resetAfterMs = .ok decision ∧
    decision.allowed = true

/-- The permission a method needs on a service. -/
def PermissionFor (serviceName method code : String) : Prop :=
  (method ∈ ["GET", "HEAD", "OPTIONS"] ∧ code = "proxy:" ++ serviceName ++ ":read") ∨
    (method ∈ ["POST", "PUT", "PATCH", "DELETE"] ∧ code = "proxy:" ++ serviceName ++ ":write")

/-- The user has passed every check on the way to the service. -/
structure ZeroTrust (serviceName : String) (userId : Uuid) (code : String)
    (h : History gateway) : Prop where
  authenticated : Authenticated cfg http userId h
  allowed : RateLimitAllowed cfg userId h
  registered : serviceName ∈ serviceNames
  code_for : PermissionFor serviceName http.method code
  granted : Performed h (.selectPermissionExists userId code) (.ok true)

/-- The actor was authenticated and has the permission to manage roles. -/
def RoleManager (h : History gateway) : Prop :=
  ∃ actor, Authenticated cfg http actor h ∧
    Performed h (.selectPermissionExists actor rolesManagePermission) (.ok true)

/-- The lock of the account was found open. -/
def FoundUnlocked (key : String) (h : History gateway) : Prop :=
  ∃ nowMs r, Performed h (.evalLockStatus key nowMs) (.ok r) ∧ r.locked = 0

/-- The Redis key of an account's login state. -/
def accountKey (identifier : String) : String :=
  RedisLoginProtection.buildKey cfg identifier Login.accountLoginProtectionPolicy

end Facts

/-- The operation is one of a call with these arguments. -/
def About (u : UpstreamRequest) : UpstreamOp → Prop
  | .beforeRequest service => service = u.serviceName
  | .record service _ _ => service = u.serviceName
  | .request q => q = u
  | .onEvent _ _ | .response | .sleep _ => True

/-- What a handler may perform after a history. -/
def Permitted (cfg : Config) (q : ApiRequest) (h : History gateway) : GatewayOp → Prop
  | .upstream e =>
    ∃ http serviceName path userId code u, q = .proxy http serviceName path ∧
      ZeroTrust cfg http serviceName userId code h ∧ Smooth [] h ∧ u.serviceName = serviceName ∧
      u.method = http.method ∧ About u e
  | .insertUserRole _ _ =>
    ∃ http username roleName, q = .assignRole http username roleName ∧ RoleManager cfg http h
  | .deleteUserRole _ _ =>
    ∃ http username roleName, q = .removeRole http username roleName ∧ RoleManager cfg http h
  | .commitUser _ roleId => roleId = defaultRoleId
  | .evalLockStatus _ nowMs => Performed h .clockMs nowMs
  | .evalLoginFailure _ _ nowMs _ _ => Performed h .clockMs nowMs
  | .evalLoginReset key =>
    ∃ http username password, q = .token http username password ∧ key = accountKey cfg username ∧
      FoundUnlocked key h
  | _ => True

def RecordsFailure : GatewayOp → Prop
  | .evalLoginFailure _ _ _ _ _ => True
  | _ => False

/-- The last operation recorded no login failure. -/
def EndsQuietly (h : History gateway) : Prop := ∃ k x, h = k ++ [x] ∧ ¬ RecordsFailure x.op

/-- A token is only answered to a request that found the lock of its account open. -/
def TokenPost (cfg : Config) (q : ApiRequest) (h : History gateway)
    (outcome : Except Raised ApiResponse) : Prop :=
  ∀ http username password accessToken headers, q = .token http username password →
    outcome = .ok (.token accessToken headers) →
    FoundUnlocked (accountKey cfg username) h ∧ EndsQuietly h

theorem Authenticated.mono {cfg : Config} {http : HttpRequest} {userId : Uuid}
    {h h' : History gateway} (ha : Authenticated cfg http userId h) (hle : h <+: h') :
    Authenticated cfg http userId h' := by
  obtain ⟨token, payload, claims, name, record, ht, hd, hc, hn, hs, hact, hid⟩ := ha
  exact ⟨token, payload, claims, name, record, ht, hd.mono hle, hc, hn, hs.mono hle, hact, hid⟩

theorem RateLimitAllowed.mono {cfg : Config} {userId : Uuid} {h h' : History gateway}
    (ha : RateLimitAllowed cfg userId h) (hle : h <+: h') : RateLimitAllowed cfg userId h' := by
  obtain ⟨nowMs, r, decision, hp, hd, hallowed⟩ := ha
  exact ⟨nowMs, r, decision, hp.mono hle, hd, hallowed⟩

theorem ZeroTrust.mono {cfg : Config} {http : HttpRequest} {serviceName code : String}
    {userId : Uuid} {h h' : History gateway}
    (hz : ZeroTrust cfg http serviceName userId code h) (hle : h <+: h') :
    ZeroTrust cfg http serviceName userId code h' :=
  ⟨hz.authenticated.mono hle, hz.allowed.mono hle, hz.registered, hz.code_for,
    hz.granted.mono hle⟩

theorem RoleManager.mono {cfg : Config} {http : HttpRequest} {h h' : History gateway}
    (hr : RoleManager cfg http h) (hle : h <+: h') : RoleManager cfg http h' := by
  obtain ⟨actor, ha, hp⟩ := hr
  exact ⟨actor, ha.mono hle, hp.mono hle⟩

theorem FoundUnlocked.mono {key : String} {h h' : History gateway} (hf : FoundUnlocked key h)
    (hle : h <+: h') : FoundUnlocked key h' := by
  obtain ⟨nowMs, r, hp, hr⟩ := hf
  exact ⟨nowMs, r, hp.mono hle, hr⟩

section Parts

variable {cfg : Config} {http : HttpRequest} {q : ApiRequest} {h : History gateway} {α : Type}

theorem permitted_of_harmless (h : History gateway) (op : GatewayOp) (hop : Harmless op) :
    Permitted cfg q h op := by
  cases op <;> trivial

theorem wp_harmless {p : Action α} {post : History gateway → Except Raised α → Prop}
    (hp : p.Only Looking) (hpost : ∀ h' outcome, h <+: h' → post h' outcome) :
    p.wp (Permitted cfg q) post h :=
  Prog.wp_of_only (hp.mono harmless_of_looking) permitted_of_harmless hpost

theorem wp_harmless_last {p : Action α} {post : History gateway → Except Raised α → Prop}
    (hp : p.Only Looking) (hh : EndsQuietly h)
    (hpost : ∀ h' outcome, h <+: h' → EndsQuietly h' → post h' outcome) :
    p.wp (Permitted cfg q) post h := by
  have hquiet : ∀ op, Harmless op → ¬ RecordsFailure op := by
    intro op hop
    cases op <;> first | exact id | exact hop.elim
  exact Prog.wp_only_last (hp.mono harmless_of_looking) hquiet hh permitted_of_harmless hpost

/-- The audited way out of a handler: it never returns. -/
theorem wp_audited_throw {post : History gateway → Except Raised α → Prop}
    (fields : Audit.EventFields) (error : Raised)
    (hpost : ∀ h' e, h <+: h' → post h' (.error e)) :
    (recordRequestSecurityEvent cfg http fields >>= fun _ => (throw error : Action α)).wp
      (Permitted cfg q) post h := by
  rw [Prog.wp_bind]
  refine wp_harmless (only_recordRequestSecurityEvent fields) fun h' outcome hle => ?_
  cases outcome with
  | ok _ => exact hpost h' error hle
  | error e => exact hpost h' e hle

theorem wp_userResult {post : History gateway → Except Raised α → Prop} {r : Except DbFault α}
    (hok : ∀ a, r = .ok a → post h (.ok a)) (herror : ∀ e, post h (.error e)) :
    (UserRepository.result r).wp (Permitted cfg q) post h := by
  cases r with
  | ok a => exact hok a rfl
  | error f => cases f <;> exact herror _

theorem wp_authorizationResult {post : History gateway → Except Raised α → Prop}
    {r : Except DbFault α} (hok : ∀ a, r = .ok a → post h (.ok a))
    (herror : ∀ e, post h (.error e)) :
    (AuthorizationRepository.result r).wp (Permitted cfg q) post h := by
  cases r with
  | ok a => exact hok a rfl
  | error f => cases f <;> exact herror _

/-- `get_by_username` only finds rows that the select returned. -/
theorem wp_getByUsername {post : History gateway → Except Raised (Option StoredUser) → Prop}
    {username : String} (herror : ∀ h' e, h <+: h' → post h' (.error e))
    (hnone : ∀ h', h <+: h' → post h' (.ok none))
    (hsome : ∀ h' name record, Smooth h h' →
      Auth.normalizeUsername cfg.unicode username = .ok name →
      Performed h' (.selectUser name) (.ok (some record)) →
      post h' (.ok (some (recordToStoredUser record)))) :
    (UserRepository.getByUsername cfg username).wp (Permitted cfg q) post h := by
  rw [UserRepository.getByUsername, Prog.wp_bind, Prog.wp_liftExcept]
  cases hn : Auth.normalizeUsername cfg.unicode username with
  | error e => exact herror h e List.prefix_rfl
  | ok name =>
    rw [Prog.sequel_ok, Prog.wp_call_bind]
    refine ⟨trivial, fun selected => ?_⟩
    have hle : h <+: h ++ [⟨.selectUser name, selected⟩] := List.prefix_append _ _
    rw [Prog.wp_bind]
    refine wp_userResult (fun record hr => ?_) fun e => herror _ e hle
    subst hr
    cases record with
    | none => exact hnone _ hle
    | some record => exact hsome _ name record (smooth_last h id) hn (performed_last _ _ _)

theorem wp_decodeAccessToken {post : History gateway → Except Raised AccessTokenClaims → Prop}
    {token : String} (herror : ∀ h' e, h <+: h' → post h' (.error e))
    (hok : ∀ h' payload claims, Smooth h h' → Performed h' (.jwtDecode token) (.ok payload) →
      claimsOfPayload cfg payload = .ok claims → post h' (.ok claims)) :
    (decodeAccessToken cfg token).wp (Permitted cfg q) post h := by
  unfold decodeAccessToken
  split
  · exact herror h _ List.prefix_rfl
  · rw [Prog.wp_call_bind]
    refine ⟨trivial, fun decoded => ?_⟩
    have hle : h <+: h ++ [⟨.jwtDecode token, decoded⟩] := List.prefix_append _ _
    match decoded with
    | .error none => exact herror _ _ hle
    | .error (some className) => exact herror _ _ hle
    | .ok payload =>
      cases hc : claimsOfPayload cfg payload with
      | error e =>
        simp only [Prog.wp_liftExcept, hc]
        exact herror _ e hle
      | ok claims =>
        simp only [Prog.wp_liftExcept, hc]
        exact hok _ payload claims (smooth_last h id) (performed_last _ _ _) hc

theorem wp_getCurrentUser {post : History gateway → Except Raised UserPublic → Prop}
    (herror : ∀ h' e, h <+: h' → post h' (.error e))
    (hok : ∀ h' user, Smooth h h' → Authenticated cfg http user.id h' → post h' (.ok user)) :
    (getCurrentUser cfg http).wp (Permitted cfg q) post h := by
  unfold getCurrentUser
  split
  · exact herror h _ List.prefix_rfl
  · next token ht =>
    rw [Prog.wp_bind, Prog.wp_tryCatch, Prog.wp_bind]
    refine wp_decodeAccessToken (fun h₁ e hle => herror h₁ _ hle) ?_
    intro h₁ payload claims hle₁ hd hc
    rw [Prog.sequel_ok]
    refine wp_getByUsername (fun h₂ e hle₂ => herror h₂ _ (hle₁.le.trans hle₂))
      (fun h₂ hle₂ => herror h₂ _ (hle₁.le.trans hle₂)) ?_
    intro h₂ name record hle₂ hn hs
    rw [Prog.recovery_ok, Prog.sequel_ok]
    dsimp only
    split
    · next hact =>
      refine hok h₂ _ (hle₁.trans hle₂) ?_
      exact ⟨token, payload, claims, name, record, ht, hd.mono hle₂.le, hc, hn, hs, hact, rfl⟩
    · exact herror h₂ _ (hle₁.trans hle₂).le

/-- A decision of the limiter is read off a reply of the script. -/
theorem wp_check {post : History gateway → Except Raised RateLimit.RateLimitDecision → Prop}
    {identity : String} {policy : RateLimit.RateLimitPolicy}
    (herror : ∀ h' e, h <+: h' → post h' (.error e))
    (hok : ∀ h' nowMs r decision,
      h' = h ++ [⟨.clockMs, nowMs⟩] ++ [⟨.evalTokenBucket
        (RedisRateLimiter.buildKey cfg (Python.strip identity) policy) policy.capacity
        policy.refillRatePerSecond policy.cost nowMs policy.stateTtlMs, .ok r⟩] →
      RateLimit.decisionOf policy r.allowed r.tokens r.retryAfterMs r.resetAfterMs =
        .ok decision → post h' (.ok decision)) :
    (RedisRateLimiter.check cfg identity policy).wp (Permitted cfg q) post h := by
  unfold RedisRateLimiter.check
  dsimp only
  split
  · exact herror h _ List.prefix_rfl
  · rw [Prog.wp_call_bind]
    refine ⟨trivial, fun nowMs => ?_⟩
    split
    · exact herror _ _ (List.prefix_append _ _)
    · rw [Prog.wp_call_bind]
      refine ⟨trivial, fun raw => ?_⟩
      have hle := (List.prefix_append h [(⟨.clockMs, nowMs⟩ : Exchange gateway)]).trans
        (List.prefix_append _ [⟨_, raw⟩])
      match raw with
      | .error ⟨none, _⟩ => exact herror _ _ hle
      | .error ⟨some f, _⟩ => exact herror _ _ hle
      | .ok r =>
        dsimp only
        split
        · next decision hd => exact hok _ nowMs r decision rfl hd
        · exact herror _ _ hle

theorem wp_enforceProxyRateLimit
    {post : History gateway → Except Raised RateLimit.RateLimitDecision → Prop}
    {serviceName : String} {user : UserPublic}
    (herror : ∀ h' e, h <+: h' → post h' (.error e))
    (hok : ∀ h' decision, Smooth h h' → RateLimitAllowed cfg user.id h' → post h' (.ok decision)) :
    (enforceProxyRateLimit cfg http serviceName user).wp (Permitted cfg q) post h := by
  rw [enforceProxyRateLimit, Prog.wp_bind, Prog.wp_tryCatch]
  refine wp_check (fun h₁ e hle₁ => ?_) fun h₁ nowMs r decision he hd => ?_
  · rw [Prog.recovery_error]
    split
    · rw [Prog.wp_call_bind]
      refine ⟨trivial, fun _ => wp_audited_throw _ _ fun h₂ e hle₂ => ?_⟩
      exact herror h₂ e (hle₁.trans ((List.prefix_append _ _).trans hle₂))
    · exact herror h₁ _ hle₁
  · rw [Prog.recovery_ok, Prog.sequel_ok, Prog.wp_call_bind]
    refine ⟨trivial, fun _ => ?_⟩
    have hle₁ : Smooth h h₁ := by
      subst he
      exact (smooth_last h id).trans (smooth_last _ fun hf => hf decision hd)
    have hle₂ : Smooth h₁ (h₁ ++ [⟨.metric (.rateLimitDecision "proxy"
      (if decision.allowed then "allowed" else "rejected")), ()⟩]) := smooth_last h₁ id
    split
    · next ha =>
      refine hok _ decision (hle₁.trans hle₂) ⟨nowMs, r, decision, ?_, hd, ha⟩
      exact Performed.mono (by subst he; exact performed_last _ _ _) hle₂.le
    · refine wp_audited_throw _ _ fun h₃ e hle₃ => ?_
      exact herror h₃ e ((hle₁.trans hle₂).le.trans hle₃)

end Parts

end SecureGateway.Gateway
