import SecureGateway.Gateway.System

/-!
# Audited rejections

`enforce_proxy_rate_limit` records an event before it raises, from the path segment that the
client chose. The event validates that text, and nothing catches what the validation raises.
-/
namespace SecureGateway.Gateway

open Interleaving RateLimit Audit

def rateLimitExceeded (decision : RateLimitDecision) : HTTPException :=
  ⟨429, "Rate limit exceeded.", buildRateLimitHeaders decision⟩

def rateLimitUnavailable : HTTPException :=
  ⟨503, "Rate-limit service is temporarily unavailable.", [("Retry-After", "1")]⟩

/-- What a rejected request is answered with, from the way the limiter's check ended. -/
def rejection : Except Raised RateLimitDecision → Option HTTPException
  | .ok decision => if decision.allowed then none else some (rateLimitExceeded decision)
  | .error (.rateLimitBackend _) => some rateLimitUnavailable
  | .error _ => none

theorem rejection_cases {outcome : Except Raised RateLimitDecision} {x : HTTPException}
    (h : rejection outcome = some x) :
    (∃ decision, outcome = .ok decision ∧ decision.allowed = false ∧
      x = rateLimitExceeded decision) ∨
    ∃ message, outcome = .error (.rateLimitBackend message) ∧ x = rateLimitUnavailable := by
  cases outcome with
  | ok decision =>
    cases hallowed : decision.allowed with
    | true => simp [rejection, hallowed] at h
    | false =>
      simp only [rejection, hallowed] at h
      exact .inl ⟨decision, rfl, hallowed, (Option.some.inj h).symm⟩
  | error e =>
    cases e with
    | rateLimitBackend message => exact .inr ⟨message, rfl, (Option.some.inj h).symm⟩
    | _ => cases h

/-- `enforce_proxy_rate_limit` if auditing were a no-op. -/
def enforceProxyRateLimitUnaudited (cfg : Config) (user : UserPublic) :
    Action RateLimitDecision := do
  let decision ← (RedisRateLimiter.check cfg user.id.str proxyRateLimitPolicy).tryCatch fun
    | .rateLimitBackend _ => do
      let _ ← invoke (.metric (.rateLimitDecision "proxy" "unavailable"))
      throw (.http rateLimitUnavailable)
    | error => throw error
  let _ ← invoke (.metric
    (.rateLimitDecision "proxy" (if decision.allowed then "allowed" else "rejected")))
  if decision.allowed then pure decision else throw (.http (rateLimitExceeded decision))

/-- Every failure of the audit back end is an `AuditRepositoryBackendError`. -/
def AuditContained {σ : Type} (env : Environment gateway σ) : Prop :=
  ∀ s e f c, (env s (.appendEvent e)).1 ≠ .error (.fault f c)

section Events

/-- What `_validate_optional_code` accepts. -/
def IsCode (maxLength : ℕ) (v : String) : Prop :=
  v ≠ "" ∧ Python.strip v = v ∧ v.length ≤ maxLength

instance (maxLength : ℕ) (v : String) : Decidable (IsCode maxLength v) :=
  inferInstanceAs (Decidable (_ ∧ _ ∧ _))

theorem validateOptionalCode_some (name v : String) (n : ℕ) :
    validateOptionalCode name (some v) n =
      if IsCode n v then .ok () else .error (.valueError s!"{name} has an invalid value.") := by
  have hcode : IsCode n v ↔ ¬ (v = "" ∨ v ≠ Python.strip v ∨ v.length > n) := by
    simp only [IsCode, not_or, not_not, not_lt, gt_iff_lt, ne_eq, eq_comm]
  by_cases hv : v = "" ∨ v ≠ Python.strip v ∨ v.length > n
  · rw [validateOptionalCode, if_pos hv, if_neg (fun h => hcode.mp h hv)]
  · rw [validateOptionalCode, if_neg hv, if_pos (hcode.mpr hv)]

/-- What an event about a proxied request carries besides the name of the service. -/
structure AboutRequest (http : HttpRequest) (fields : EventFields) : Prop where
  permissionCode : fields.permissionCode = none
  roleName : fields.roleName = none
  method : fields.method = some http.method
  statusCode : ∃ code, fields.statusCode = some code ∧ 100 ≤ code ∧ code ≤ 599
  reasonCode : ∃ reason, fields.reasonCode = some reason ∧ IsCode 160 reason

variable {http : HttpRequest} {fields : EventFields} {serviceName : String}

theorem upper_routed {method : String} (u : Python.Unicode) (hm : method ∈ proxyMethods) :
    u.upper method = method ∧ IsCode 16 method := by
  have hall : ∀ m ∈ proxyMethods, Python.isAscii m = true ∧ m.toUpper = m ∧ IsCode 16 m := by
    decide +kernel
  obtain ⟨hascii, hupper, hcode⟩ := hall method hm
  exact ⟨(u.upper_ascii method hascii).trans hupper, hcode⟩

/-- Such an event is valid exactly when the name of the service is. -/
theorem postInit_about (cfg : Config) (hf : AboutRequest http fields)
    (hm : http.method ∈ proxyMethods) (hs : fields.serviceName = some serviceName)
    (eventId : Uuid) (occurredAt : Timestamp) :
    let e : SecurityAuditEvent :=
      { fields with
        method := fields.method.map cfg.unicode.upper
        eventId
        occurredAt
        requestId := http.requestId }
    e.postInit = if IsCode 160 serviceName then .ok e
      else .error (.valueError "service_name has an invalid value.") := by
  intro e
  obtain ⟨code, hstatus, hrange⟩ := hf.statusCode
  obtain ⟨reason, hreason, hcode⟩ := hf.reasonCode
  obtain ⟨hupper, hmethod⟩ := upper_routed cfg.unicode hm
  have hpermission : e.permissionCode = none := hf.permissionCode
  have hrole : e.roleName = none := hf.roleName
  have hservice : e.serviceName = some serviceName := hs
  have hverb : e.method = some http.method := by
    change fields.method.map cfg.unicode.upper = _
    rw [hf.method, Option.map_some, hupper]
  have hcoded : e.statusCode = some code := hstatus
  have hwhy : e.reasonCode = some reason := hreason
  have hfine : ((some code).all fun c => 100 ≤ c ∧ c ≤ 599) = true := by simpa using hrange
  rw [SecurityAuditEvent.postInit, hcoded, hpermission, hrole, hservice, hverb, hwhy, if_pos hfine,
    validateOptionalCode_some, validateOptionalCode_some, validateOptionalCode_some,
    if_pos hmethod, if_pos hcode]
  by_cases hname : IsCode 160 serviceName
  · rw [if_pos hname, if_pos hname]
    rfl
  · rw [if_neg hname, if_neg hname]
    rfl

end Events

section Rejections

variable (cfg : Config) {http : HttpRequest} {fields : EventFields} {serviceName : String}
  {user : UserPublic} {σ : Type} {env : Environment gateway σ} {s : σ}

/-- What follows the append. -/
def afterAppend (event : SecurityAuditEvent) : Except DbFault Unit → Action Unit
  | .ok _ => pure ()
  | .error (.fault f _) => throw f.raised
  | .error _ => invoke (.emitAuditPersistenceFailure event)

theorem recordSecurityEventBestEffort_eq (event : SecurityAuditEvent) :
    recordSecurityEventBestEffort cfg event =
      (invoke (.emitSecurityAuditEvent event) >>= fun _ =>
        if cfg.auditConfigured then invoke (.appendEvent event) >>= afterAppend event
        else pure ()) := by
  rw [recordSecurityEventBestEffort]
  refine congrArg _ (funext fun _ => ?_)
  refine if_congr Iff.rfl (congrArg _ (funext fun appended => ?_)) rfl
  cases appended with
  | ok u => rfl
  | error f => cases f <;> rfl

/-- The append is the last thing that can fail, and the failure is swallowed. -/
theorem recordSecurityEventBestEffort_ok (haudit : AuditContained env)
    (event : SecurityAuditEvent) :
    ((recordSecurityEventBestEffort cfg event).exec env s).outcome = .ok () := by
  rw [recordSecurityEventBestEffort_eq]
  cases cfg.auditConfigured with
  | false => rfl
  | true =>
    let s₁ := (env s (.emitSecurityAuditEvent event)).2
    have hnot := haudit s₁ event
    change ((afterAppend event (env s₁ (.appendEvent event)).1).exec env
      (env s₁ (.appendEvent event)).2).outcome = .ok ()
    cases hr : (env s₁ (.appendEvent event)).1 with
    | ok u => rfl
    | error f =>
      cases f with
      | fault f c => exact absurd hr (hnot f c)
      | _ => rfl

/-- Recording fails only where the event refuses the name of the service. -/
theorem recordRequestSecurityEvent_outcome (haudit : AuditContained env)
    (hf : AboutRequest http fields) (hm : http.method ∈ proxyMethods)
    (hs : fields.serviceName = some serviceName) :
    ((recordRequestSecurityEvent cfg http fields).exec env s).outcome =
      if IsCode 160 serviceName then .ok ()
      else .error (.valueError "service_name has an invalid value.") := by
  let s₁ := (env s .uuid4).2
  have hevent := postInit_about cfg hf hm hs (env s .uuid4).1 (env s₁ .utcNow).1
  have hcreate : ((createSecurityAuditEvent cfg http fields).exec env s).outcome = _ := hevent
  by_cases hname : IsCode 160 serviceName
  · rw [if_pos hname] at hcreate ⊢
    rw [recordRequestSecurityEvent, Prog.exec_bind_ok hcreate]
    exact recordSecurityEventBestEffort_ok cfg haudit _
  · rw [if_neg hname] at hcreate ⊢
    rw [recordRequestSecurityEvent, Prog.exec_bind_error hcreate]

/-- A rejection that is recorded first is raised exactly when the record is accepted. -/
theorem recorded_throw (haudit : AuditContained env) (hf : AboutRequest http fields)
    (hm : http.method ∈ proxyMethods) (hs : fields.serviceName = some serviceName)
    (x : HTTPException) :
    ((recordRequestSecurityEvent cfg http fields >>= fun _ =>
      (throw (.http x) : Action RateLimitDecision)).exec env s).outcome =
      .error (if IsCode 160 serviceName then .http x
        else .valueError "service_name has an invalid value.") := by
  have houtcome := recordRequestSecurityEvent_outcome (s := s) cfg haudit hf hm hs
  by_cases hname : IsCode 160 serviceName
  · rw [if_pos hname] at houtcome ⊢
    rw [Prog.exec_bind_ok houtcome]
    rfl
  · rw [if_neg hname] at houtcome ⊢
    rw [Prog.exec_bind_error houtcome]

/-- The `except` clause of the dependency. -/
def onBackendError (unavailable : Action RateLimitDecision) : Raised → Action RateLimitDecision
  | .rateLimitBackend _ => do
    let _ ← invoke (.metric (.rateLimitDecision "proxy" "unavailable"))
    unavailable
  | error => throw error

/-- The shape of the dependency: what it does with a failed check and with a denial. -/
def limited (limiter unavailable : Action RateLimitDecision)
    (denied : RateLimitDecision → Action RateLimitDecision) : Action RateLimitDecision := do
  let decision ← limiter.tryCatch (onBackendError unavailable)
  let _ ← invoke (.metric
    (.rateLimitDecision "proxy" (if decision.allowed then "allowed" else "rejected")))
  if decision.allowed then pure decision else denied decision

variable {limiter unavailable : Action RateLimitDecision}
  {denied : RateLimitDecision → Action RateLimitDecision}

theorem limited_denied {decision : RateLimitDecision}
    (hcheck : (limiter.exec env s).outcome = .ok decision) (hd : decision.allowed = false) :
    ∃ s', ((limited limiter unavailable denied).exec env s).outcome =
      ((denied decision).exec env s').outcome := by
  have htry : ((limiter.tryCatch (onBackendError unavailable)).exec env s).outcome =
      .ok decision := by
    rw [Prog.exec_tryCatch_ok hcheck, hcheck]
  rw [limited, Prog.exec_bind_ok htry]
  simp only [hd]
  exact ⟨_, rfl⟩

theorem limited_unavailable {message : String}
    (hcheck : (limiter.exec env s).outcome = .error (.rateLimitBackend message))
    (hraises : ∀ s', ∃ x, (unavailable.exec env s').outcome = .error x) :
    ∃ s', ((limited limiter unavailable denied).exec env s).outcome =
      (unavailable.exec env s').outcome := by
  let s₁ := (env (limiter.exec env s).state
    (.metric (.rateLimitDecision "proxy" "unavailable"))).2
  obtain ⟨x, hx⟩ := hraises s₁
  have htry : ((limiter.tryCatch (onBackendError unavailable)).exec env s).outcome =
      .error x := by
    rw [Prog.exec_tryCatch_error hcheck]
    exact hx
  exact ⟨s₁, by rw [limited, Prog.exec_bind_error htry, hx]⟩

/-- The event recorded for a failed check. -/
def unavailableEvent (http : HttpRequest) (serviceName : String) (user : UserPublic) :
    EventFields where
  eventType := .rateLimitBackendUnavailable
  outcome := .unavailable
  actorUserId := some user.id
  serviceName := some serviceName
  method := some http.method
  statusCode := some 503
  reasonCode := some "proxy_rate_limit_backend_unavailable"

/-- The event recorded for a denial. -/
def rejectedEvent (http : HttpRequest) (serviceName : String) (user : UserPublic) :
    EventFields where
  eventType := .rateLimitRejected
  outcome := .denied
  actorUserId := some user.id
  serviceName := some serviceName
  method := some http.method
  statusCode := some 429
  reasonCode := some "proxy_rate_limit_exceeded"

theorem unavailableEvent_about :
    AboutRequest http (unavailableEvent http serviceName user) where
  permissionCode := rfl
  roleName := rfl
  method := rfl
  statusCode := ⟨503, rfl, by decide⟩
  reasonCode := ⟨_, rfl, by decide +kernel⟩

theorem rejectedEvent_about : AboutRequest http (rejectedEvent http serviceName user) where
  permissionCode := rfl
  roleName := rfl
  method := rfl
  statusCode := ⟨429, rfl, by decide⟩
  reasonCode := ⟨_, rfl, by decide +kernel⟩

theorem enforceProxyRateLimit_eq (http : HttpRequest) (serviceName : String)
    (user : UserPublic) :
    enforceProxyRateLimit cfg http serviceName user =
      limited (RedisRateLimiter.check cfg user.id.str proxyRateLimitPolicy)
        (recordRequestSecurityEvent cfg http (unavailableEvent http serviceName user) >>= fun _ =>
          throw (.http rateLimitUnavailable))
        (fun decision =>
          recordRequestSecurityEvent cfg http (rejectedEvent http serviceName user) >>= fun _ =>
            throw (.http (rateLimitExceeded decision))) := rfl

theorem enforceProxyRateLimitUnaudited_eq (user : UserPublic) :
    enforceProxyRateLimitUnaudited cfg user =
      limited (RedisRateLimiter.check cfg user.id.str proxyRateLimitPolicy)
        (throw (.http rateLimitUnavailable))
        (fun decision => throw (.http (rateLimitExceeded decision))) := rfl

/-- A rejected request is answered as if nothing were audited exactly when the path segment is a
value that the audit event accepts. -/
theorem audited_rejection_iff (cfg : Config) (http : HttpRequest) (serviceName : String)
    (user : UserPublic) (env : Environment gateway σ) (s : σ) (x : HTTPException)
    (hmethod : http.method ∈ proxyMethods)
    (hrejected : rejection ((RedisRateLimiter.check cfg user.id.str
      proxyRateLimitPolicy).exec env s).outcome = some x)
    (haudit : AuditContained env) :
    ((enforceProxyRateLimitUnaudited cfg user).exec env s).outcome = .error (.http x) ∧
      (((enforceProxyRateLimit cfg http serviceName user).exec env s).outcome =
          ((enforceProxyRateLimitUnaudited cfg user).exec env s).outcome ↔
        serviceName ≠ "" ∧ Python.strip serviceName = serviceName ∧ serviceName.length ≤ 160) := by
  have hplain : ((enforceProxyRateLimitUnaudited cfg user).exec env s).outcome =
      .error (.http x) := by
    rw [enforceProxyRateLimitUnaudited_eq]
    rcases rejection_cases hrejected with ⟨decision, hcheck, hdenied, rfl⟩ | ⟨message, hcheck, rfl⟩
    · obtain ⟨_, hs⟩ := limited_denied hcheck hdenied
      exact hs
    · have hraises : ∀ s', ∃ x, ((throw (.http rateLimitUnavailable) :
          Action RateLimitDecision).exec env s').outcome = .error x := fun _ => ⟨_, rfl⟩
      obtain ⟨_, hs⟩ := limited_unavailable hcheck hraises
      exact hs
  have haudited : ((enforceProxyRateLimit cfg http serviceName user).exec env s).outcome =
      .error (if IsCode 160 serviceName then .http x
        else .valueError "service_name has an invalid value.") := by
    rw [enforceProxyRateLimit_eq]
    rcases rejection_cases hrejected with ⟨decision, hcheck, hdenied, rfl⟩ | ⟨message, hcheck, rfl⟩
    · obtain ⟨_, hs⟩ := limited_denied hcheck hdenied
      exact hs.trans (recorded_throw cfg haudit rejectedEvent_about hmethod rfl _)
    · obtain ⟨_, hs⟩ := limited_unavailable hcheck fun _ =>
        ⟨_, recorded_throw cfg haudit unavailableEvent_about hmethod rfl _⟩
      exact hs.trans (recorded_throw cfg haudit unavailableEvent_about hmethod rfl _)
  refine ⟨hplain, ?_⟩
  rw [hplain, haudited]
  by_cases hname : IsCode 160 serviceName
  · rw [if_pos hname]
    exact iff_of_true rfl hname
  · rw [if_neg hname]
    exact iff_of_false (by simp) hname

end Rejections

section Deployment

def aliceUser : UserPublic := toPublicUser (recordToStoredUser alice)

/-- Every bucket is empty. -/
def drainedWorld : World := { migratedWorld with buckets := fun _ => some ⟨⟨0, 0⟩, none⟩ }

def exhausted : HTTPException :=
  ⟨429, "Rate limit exceeded.",
    [("X-RateLimit-Limit", "60"), ("X-RateLimit-Remaining", "0"), ("X-RateLimit-Reset", "60"),
      ("Retry-After", "1")]⟩

theorem working_contained (settings : Resilience.UpstreamResilienceSettings) (o : Outside) :
    AuditContained (working settings o) := by
  intro w e f c h
  cases h

/-- The segment of `/api/service-a` in front of an empty bucket. -/
theorem named_service_rejected :
    ((enforceProxyRateLimit defaultConfig (localRequest "GET" (some "token")) "service-a"
      aliceUser).exec (working .default (outsideWorks true)) drainedWorld).outcome =
      .error (.http exhausted) := by
  have hrejected : rejection ((RedisRateLimiter.check defaultConfig aliceUser.id.str
      proxyRateLimitPolicy).exec (working .default (outsideWorks true)) drainedWorld).outcome =
      some exhausted := by
    decide +kernel
  obtain ⟨hplain, hiff⟩ := audited_rejection_iff defaultConfig (localRequest "GET" (some "token"))
    "service-a" aliceUser (working .default (outsideWorks true)) drainedWorld exhausted
    (by decide) hrejected (working_contained _ _)
  exact (hiff.mpr (by decide +kernel)).trans hplain

/-- The segment of `/api/%20service-a` in front of the same bucket: the client gets the error of
an event that could not be built. -/
theorem spaced_service_fails :
    "GET" ∈ proxyMethods ∧ AuditContained (working .default (outsideWorks true)) ∧
      ((enforceProxyRateLimitUnaudited defaultConfig aliceUser).exec
        (working .default (outsideWorks true)) drainedWorld).outcome = .error (.http exhausted) ∧
      ((enforceProxyRateLimit defaultConfig (localRequest "GET" (some "token")) " service-a"
        aliceUser).exec (working .default (outsideWorks true)) drainedWorld).outcome =
        .error (.valueError "service_name has an invalid value.") := by
  refine ⟨by decide, working_contained _ _, ?_, ?_⟩
  · decide +kernel
  · decide +kernel

end Deployment

end SecureGateway.Gateway
