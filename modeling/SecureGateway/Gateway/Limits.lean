import SecureGateway.Foundation.Traces
import SecureGateway.Gateway.Credentials

/-!
# What the limiters have let through

A request asks a limiter with the arguments of its policy and a reading of the clock, and a login
has a password checked only once the limiter of its address has let it through.
-/
namespace SecureGateway.Gateway

open Interleaving RateLimit

def limiterPolicies : List RateLimitPolicy := [proxyRateLimitPolicy, loginIpRateLimitPolicy]

/-- The operation that a check of the identity performs. -/
def bucketOp (cfg : Config) (policy : RateLimitPolicy) (identity : String) (nowMs : ℤ) :
    GatewayOp :=
  .evalTokenBucket (RedisRateLimiter.buildKey cfg identity policy) policy.capacity
    policy.refillRatePerSecond policy.cost nowMs policy.stateTtlMs

/-- The reply lets the request pass. -/
def letsPass (policy : RateLimitPolicy) (r : ScriptReply) : Bool :=
  match decisionOf policy r.allowed r.tokens r.retryAfterMs r.resetAfterMs with
  | .ok decision => decision.allowed
  | .error _ => false

/-- The limiter has let the identity pass, going by this reading of the clock. -/
def AdmittedAt (cfg : Config) (policy : RateLimitPolicy) (identity : String) (nowMs : ℤ)
    (h : History gateway) : Prop :=
  ∃ r : ScriptReply, Performed h (bucketOp cfg policy identity nowMs) (.ok r) ∧
    letsPass policy r = true

/-- The identity under which the address of the client is limited. -/
def addressOf (http : HttpRequest) : String := Python.strip (getDirectClientAddress http)

/-- What a request has seen when it asks a limiter, or has a password checked. -/
def LimitedOk (cfg : Config) (q : ApiRequest) (h : History gateway) : GatewayOp → Prop
  | .evalTokenBucket key capacity refillRate cost nowMs ttlMs =>
    0 ≤ nowMs ∧ Performed h .clockMs nowMs ∧ ∃ policy ∈ limiterPolicies, ∃ identity,
      GatewayOp.evalTokenBucket key capacity refillRate cost nowMs ttlMs =
        bucketOp cfg policy identity nowMs
  | .verifyPassword _ _ | .verifyAndUpdatePassword _ _ =>
    ∃ http username password nowMs, q = .token http username password ∧
      AdmittedAt cfg loginIpRateLimitPolicy (addressOf http) nowMs h
  | _ => True

section Parts

variable {cfg : Config} {http : HttpRequest} {q : ApiRequest} {h h' : History gateway}
  {α β : Type} {identity : String} {policy : RateLimitPolicy} {nowMs : ℤ}

theorem AdmittedAt.mono (ha : AdmittedAt cfg policy identity nowMs h) (hle : h <+: h') :
    AdmittedAt cfg policy identity nowMs h' := by
  obtain ⟨r, hr, hpass⟩ := ha
  exact ⟨r, hr.mono hle, hpass⟩

theorem limitedOk_of_not (op : GatewayOp) (hop : ¬ Verifying op ∧ ¬ Limiting op) :
    LimitedOk cfg q h op := by
  cases op with
  | evalTokenBucket => exact (hop.2 trivial).elim
  | verifyPassword password hash => exact (hop.1 trivial).elim
  | verifyAndUpdatePassword password hash => exact (hop.1 trivial).elim
  | _ => trivial

/-- A login that has been let through may have its password checked. -/
theorem limitedOk_of_admitted {username password : String}
    (ha : AdmittedAt cfg loginIpRateLimitPolicy (addressOf http) nowMs h) (op : GatewayOp)
    (hop : ¬ Limiting op) : LimitedOk cfg (.token http username password) h op := by
  cases op with
  | evalTokenBucket => exact (hop trivial).elim
  | verifyPassword given hash => exact ⟨http, username, password, nowMs, rfl, ha⟩
  | verifyAndUpdatePassword given hash => exact ⟨http, username, password, nowMs, rfl, ha⟩
  | _ => trivial

theorem wp_limited_idle {p : Action α} {post : History gateway → Except Raised α → Prop}
    (hp : p.Only Idle) (hpost : ∀ h' outcome, h <+: h' → post h' outcome) :
    p.wp (LimitedOk cfg q) post h :=
  Prog.wp_of_only hp (fun _ op hop => limitedOk_of_not op ⟨hop.verifying, hop.limiting⟩) hpost

/-- An idle program that ends in an error. -/
theorem wp_limited_throw {p : Action β} {error : Raised}
    {post : History gateway → Except Raised α → Prop} (hp : p.Only Idle)
    (herror : ∀ h' e, post h' (.error e)) :
    (p >>= fun _ => (throw error : Action α)).wp (LimitedOk cfg q) post h := by
  rw [Prog.wp_bind]
  refine wp_limited_idle hp fun h' outcome _ => ?_
  cases outcome with
  | ok _ => exact herror h' error
  | error e => exact herror h' e

/-- A check asks with the arguments of its policy, and lets pass what the reply says. -/
theorem wp_limited_check {post : History gateway → Except Raised RateLimitDecision → Prop}
    (hpolicy : policy ∈ limiterPolicies) (herror : ∀ h' e, post h' (.error e))
    (hok : ∀ h' decision, (decision.allowed = true → ∃ nowMs,
      AdmittedAt cfg policy (Python.strip identity) nowMs h') → post h' (.ok decision)) :
    (RedisRateLimiter.check cfg identity policy).wp (LimitedOk cfg q) post h := by
  unfold RedisRateLimiter.check
  dsimp only
  split
  · exact herror _ _
  · rw [Prog.wp_call_bind]
    refine ⟨trivial, fun nowMs => ?_⟩
    split
    · exact herror _ _
    · next hnonneg =>
      rw [Prog.wp_call_bind]
      refine ⟨⟨not_lt.mp hnonneg, performed_last _ _ _, policy, hpolicy, _, rfl⟩, fun raw => ?_⟩
      cases raw with
      | error f =>
        obtain ⟨fault, executed⟩ := f
        cases fault with
        | none => exact herror _ _
        | some f => exact herror _ _
      | ok r =>
        dsimp only
        split
        · next decision hd =>
          refine hok _ decision fun ha => ⟨nowMs, r, performed_last _ _ _, ?_⟩
          rw [letsPass, hd]
          exact ha
        · exact herror _ _

/-- A check whose decision is counted, and which a denial ends. -/
theorem wp_limited_enforced {scope : String}
    {recovery : Raised → Action RateLimitDecision} {denied : RateLimitDecision → Action RateLimitDecision}
    {post : History gateway → Except Raised RateLimitDecision → Prop}
    (hpolicy : policy ∈ limiterPolicies) (herror : ∀ h' e, post h' (.error e))
    (hrecovery : ∀ h' e, (recovery e).wp (LimitedOk cfg q)
      (fun _ outcome => ∃ e, outcome = .error e) h')
    (hdenied : ∀ h' d, (denied d).wp (LimitedOk cfg q)
      (fun _ outcome => ∃ e, outcome = .error e) h')
    (hok : ∀ h' decision nowMs, AdmittedAt cfg policy (Python.strip identity) nowMs h' →
      post h' (.ok decision)) :
    Prog.wp (LimitedOk cfg q) post h (do
      let decision ← (RedisRateLimiter.check cfg identity policy).tryCatch recovery
      let _ ← invoke (.metric
        (.rateLimitDecision scope (if decision.allowed then "allowed" else "rejected")))
      if decision.allowed then pure decision else denied decision) := by
  rw [Prog.wp_bind, Prog.wp_tryCatch]
  refine wp_limited_check hpolicy (fun h₁ e => ?_) fun h₁ decision hadmitted => ?_
  · rw [Prog.recovery_error]
    refine Prog.wp_mono (hrecovery h₁ e) fun h₂ outcome _ hraised => ?_
    obtain ⟨e', rfl⟩ := hraised
    exact herror h₂ e'
  · rw [Prog.recovery_ok, Prog.sequel_ok, Prog.wp_call_bind]
    refine ⟨trivial, fun _ => ?_⟩
    split
    · next hallowed =>
      obtain ⟨nowMs, ha⟩ := hadmitted hallowed
      exact hok _ decision nowMs (ha.mono (List.prefix_append _ _))
    · refine Prog.wp_mono (hdenied _ decision) fun h₂ outcome _ hraised => ?_
      obtain ⟨e', rfl⟩ := hraised
      exact herror h₂ e'

theorem wp_limited_enforceLoginIpRateLimit
    {post : History gateway → Except Raised RateLimitDecision → Prop}
    (herror : ∀ h' e, post h' (.error e))
    (hok : ∀ h' decision nowMs,
      AdmittedAt cfg loginIpRateLimitPolicy (addressOf http) nowMs h' → post h' (.ok decision)) :
    (enforceLoginIpRateLimit cfg http).wp (LimitedOk cfg q) post h := by
  refine wp_limited_enforced (by simp [limiterPolicies]) herror (fun h₁ e => ?_)
    (fun h₁ d => wp_limited_throw (idle_record _) fun _ e => ⟨e, rfl⟩) hok
  split
  · rw [Prog.wp_call_bind]
    exact ⟨trivial, fun _ => wp_limited_throw (idle_record _) fun _ e => ⟨e, rfl⟩⟩
  · exact ⟨_, rfl⟩

theorem wp_limited_enforceProxyRateLimit
    {post : History gateway → Except Raised RateLimitDecision → Prop} {serviceName : String}
    {user : UserPublic} (hpost : ∀ h' outcome, post h' outcome) :
    (enforceProxyRateLimit cfg http serviceName user).wp (LimitedOk cfg q) post h := by
  refine wp_limited_enforced (by simp [limiterPolicies]) (fun h₁ e => hpost h₁ _) (fun h₁ e => ?_)
    (fun h₁ d => wp_limited_throw (idle_record _) fun _ e => ⟨e, rfl⟩) fun h₁ _ _ _ => hpost h₁ _
  split
  · rw [Prog.wp_call_bind]
    exact ⟨trivial, fun _ => wp_limited_throw (idle_record _) fun _ e => ⟨e, rfl⟩⟩
  · exact ⟨_, rfl⟩

end Parts

section Routes

variable {cfg : Config} {http : HttpRequest} {username password : String} {α : Type}

theorem Idle.unlimited (op : GatewayOp) (hop : Idle op) : ¬ Verifying op ∧ ¬ Limiting op :=
  ⟨hop.verifying, hop.limiting⟩

theorem only_registration :
    (AuthenticationService.registerUser cfg username password).Only
      fun op => ¬ Verifying op ∧ ¬ Limiting op := by
  refine Prog.only_bind (Prog.only_liftExcept _) fun _ => ?_
  refine Prog.only_call_bind ⟨id, id⟩ fun hashed => ?_
  cases hashed with
  | error f => exact Prog.only_throw _
  | ok hash =>
    change Prog.Only _ (UserRepository.createUser cfg username hash >>= fun storedUser =>
      pure (toPublicUser storedUser))
    refine Prog.only_bind (Prog.only_bind (Prog.only_liftExcept _) fun name => ?_)
      fun _ => Prog.only_pure _
    split
    · exact Prog.only_throw _
    · refine Prog.only_call_bind ⟨id, id⟩ fun now => ?_
      refine Prog.only_call_bind ⟨id, id⟩ fun userId => ?_
      refine Prog.only_call_bind ⟨id, id⟩ fun committed => ?_
      cases committed with
      | ok _ => exact Prog.only_pure _
      | error f =>
        cases f with
        | uniqueViolation => exact Prog.only_throw _
        | _ => exact only_orRaise _ _

theorem only_registerUser_unlimited :
    (registerUser cfg http username password).Only
      fun op => ¬ Verifying op ∧ ¬ Limiting op := by
  unfold registerUser
  split
  · refine Prog.only_bind (Prog.only_tryCatch only_registration fun error => ?_) fun user => ?_
    · split
      · exact Prog.only_throw _
      · exact (idle_audited_throw _ _).mono Idle.unlimited
      · exact Prog.only_throw _
    · refine Prog.Only.mono ?_ Idle.unlimited
      exact Prog.only_bind (idle_record _) fun _ => Prog.only_pure _
  · exact Prog.only_throw _

theorem not_limiting_updatePasswordHash (hashedPassword : String) :
    (UserRepository.updatePasswordHash cfg username hashedPassword).Only
      fun op => ¬ Limiting op := by
  refine Prog.only_bind (Prog.only_liftExcept _) fun name => ?_
  split
  · exact Prog.only_throw _
  · refine Prog.only_call_bind id fun selected => ?_
    refine Prog.only_bind (only_userResult selected) fun found => ?_
    cases found with
    | none => exact Prog.only_throw _
    | some record =>
      refine Prog.only_call_bind id fun committed => ?_
      exact Prog.only_bind (only_userResult committed) fun _ => Prog.only_pure _

theorem not_limiting_authenticateUser :
    (AuthenticationService.authenticateUser cfg username password).Only
      fun op => ¬ Limiting op := by
  refine Prog.only_bind (Prog.only_tryCatch ?_ fun error => ?_) fun storedUser => ?_
  · exact (idle_getByUsername username).mono fun _ hop => hop.limiting
  · split
    · exact Prog.only_pure none
    · exact Prog.only_throw _
  · cases storedUser with
    | none =>
      refine Prog.only_call_bind id fun verified => ?_
      cases verified with
      | error f => exact Prog.only_throw _
      | ok b => exact Prog.only_throw _
    | some user =>
      refine Prog.only_call_bind id fun verified => ?_
      cases verified with
      | error f => exact Prog.only_throw _
      | ok result =>
        obtain ⟨isValid, replacement⟩ := result
        change Prog.Only _ (if _ then _ else _)
        split
        · exact Prog.only_throw _
        · cases replacement with
          | none => exact Prog.only_pure _
          | some hash => exact not_limiting_updatePasswordHash hash

theorem not_limiting_createAccessToken (subject : String) :
    (createAccessToken cfg subject).Only fun op => ¬ Limiting op := by
  unfold createAccessToken
  dsimp only
  split
  · exact Prog.only_throw _
  · refine Prog.only_call_bind id fun issuedAt => ?_
    split
    · exact Prog.only_throw _
    · refine Prog.only_call_bind id fun jti => Prog.only_call_bind id fun encoded => ?_
      cases encoded with
      | ok token => exact Prog.only_pure token
      | error className => exact Prog.only_throw _

/-- What a login does once the limiter of its address has let it through. -/
theorem not_limiting_authenticated (ipDecision : RateLimitDecision) :
    (authenticated cfg http username password ipDecision).Only fun op => ¬ Limiting op := by
  refine Prog.only_tryCatch (Prog.only_bind not_limiting_authenticateUser fun user => ?_)
    fun error => ?_
  · exact Prog.only_bind (not_limiting_createAccessToken _) fun _ => Prog.only_pure _
  · split
    · exact (idle_audited_throw _ _).mono fun _ hop => hop.limiting
    · exact (idle_loginFailed _ _).mono fun _ hop => hop.limiting
    · exact Prog.only_throw _

theorem wp_issueAccessToken_limited :
    (issueAccessToken cfg http username password).wp
      (LimitedOk cfg (.token http username password)) (fun _ _ => True) [] := by
  unfold issueAccessToken
  rw [Prog.wp_bind]
  refine wp_limited_enforceLoginIpRateLimit (fun _ _ => trivial) fun h₁ ipDecision nowMs ha => ?_
  rw [Prog.sequel_ok]
  refine Prog.wp_of_only_from (P := fun op => ¬ Limiting op) ?_ ?_ fun _ _ _ => trivial
  · refine Prog.only_bind ((idle_protected ?_ _).mono fun _ hop => hop.limiting)
      fun lockDecision => ?_
    · exact only_decided ⟨id, id, id⟩ fun nowMs => .perform ⟨id, id, id⟩ fun raw => .finish _
    · split
      · exact (idle_audited_throw _ _).mono fun _ hop => hop.limiting
      · refine Prog.only_bind (not_limiting_authenticated _) fun result => ?_
        exact (idle_completed result).mono fun _ hop => hop.limiting
  · exact fun h' op hle hop => limitedOk_of_admitted (ha.mono hle) op hop

theorem wp_proxyRequest_limited {q : ApiRequest} (serviceName path : String) :
    (proxyRequest cfg http serviceName path).wp (LimitedOk cfg q) (fun _ _ => True) [] := by
  rw [proxyRequest, Prog.wp_bind]
  refine wp_limited_idle (auditing_getCurrentUser.mono idle_of_auditing) fun h₁ current _ => ?_
  cases current with
  | error e => trivial
  | ok user =>
    rw [Prog.sequel_ok, Prog.wp_bind]
    refine wp_limited_enforceProxyRateLimit fun h₂ limited => ?_
    cases limited with
    | error e => trivial
    | ok decision =>
      rw [Prog.sequel_ok]
      refine wp_limited_idle ?_ fun _ _ _ => trivial
      exact Prog.only_bind (idle_enforceProxyAuthorization _ _) fun _ => idle_forwardRequest _ _ _

theorem wp_route_limited (q : ApiRequest) :
    (route cfg q).wp (LimitedOk cfg q) (fun _ _ => True) [] := by
  unfold route
  split
  · exact Prog.wp_of_only only_registerUser_unlimited (fun _ op hop => limitedOk_of_not op hop)
      fun _ _ _ => trivial
  · exact wp_issueAccessToken_limited
  · refine wp_limited_idle (Prog.only_bind ?_ fun _ => Prog.only_pure _) fun _ _ _ => trivial
    exact auditing_getCurrentUser.mono idle_of_auditing
  · exact wp_limited_idle (idle_readUserRoles _) fun _ _ _ => trivial
  · refine wp_limited_idle (idle_mutateUserRole _ _ _ fun _ _ => ?_) fun _ _ _ => trivial
    exact idle_mutation fun roleId => .perform ⟨id, id, id⟩ fun r => .finish _
  · refine wp_limited_idle (idle_mutateUserRole _ _ _ fun _ _ => ?_) fun _ _ _ => trivial
    exact idle_mutation fun roleId => .perform ⟨id, id, id⟩ fun r => .finish _
  · split
    · exact wp_proxyRequest_limited _ _
    · trivial

end Routes

/-- The discipline of every route, as to the limiters it asks. -/
def limitDiscipline (cfg : Config) : Discipline (gatewaySystem cfg) where
  ok := LimitedOk cfg
  post _ _ _ := True
  handler := wp_route_limited

end SecureGateway.Gateway
