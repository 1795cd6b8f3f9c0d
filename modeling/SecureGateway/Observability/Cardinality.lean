import Mathlib.Data.List.ProdSigma
import SecureGateway.Foundation.Execution
import SecureGateway.Gateway.Lookups
import SecureGateway.Observability.Middleware
import SecureGateway.Resilience.Calls

/-!
# The cardinality of the metrics

Every tuple of label values is one of a list that no request can lengthen. Two recorders take
their labels as they are given, so the bound is one on what every route can give them.
-/
namespace SecureGateway.Observability

open Interleaving Gateway Resilience

section Labels

def methodLabels : List String := boundedHttpMethods ++ ["OTHER"]

def DeclaredRoute.all : List DeclaredRoute :=
  [.register, .token, .me, .userRoles, .userRole, .service, .servicePath, .health, .ready,
    .openapi, .docs, .docsRedirect, .redoc]

def routeLabels : List String := "<unmatched>" :: DeclaredRoute.all.map DeclaredRoute.path

def statusLabels : List String := ["1xx", "2xx", "3xx", "4xx", "5xx", "unknown"]

def eventTypeLabels : List String :=
  [.userRegistered, .loginSucceeded, .loginFailed, .accountLocked,
    .authenticationBackendUnavailable, .authorizationDenied, .authorizationBackendUnavailable,
    .roleListRead, .roleAssigned, .roleRemoved, .rateLimitRejected,
    .rateLimitBackendUnavailable].map Audit.AuditEventType.value

def outcomeLabels : List String :=
  [.success, .failure, .denied, .unavailable].map Audit.AuditOutcome.value

def upstreamOutcomes : List String := statusLabels ++ ["timeout", "unavailable"]

/-- Every label tuple there can be. -/
def labelSets : List Series :=
  (methodLabels ×ˢ routeLabels ×ˢ statusLabels).map
      (fun l => .httpRequestsTotal l.1 l.2.1 l.2.2) ++
    (methodLabels ×ˢ routeLabels).map (fun l => .httpRequestDurationSeconds l.1 l.2) ++
    (eventTypeLabels ×ˢ outcomeLabels).map (fun l => .securityEventsTotal l.1 l.2) ++
    (rateLimitScopes ×ˢ rateLimitDecisions).map (fun l => .rateLimitDecisionsTotal l.1 l.2) ++
    (serviceNames ×ˢ upstreamOutcomes).map (fun l => .upstreamRequestsTotal l.1 l.2) ++
    (serviceNames ×ˢ GatewayMetrics.allowedEvents).map
      (fun l => .upstreamResilienceEventsTotal l.1 l.2) ++
    serviceNames.map .upstreamRequestDurationSeconds

/-- The label values of one tuple. -/
def Series.Bounded : Series → Prop
  | .httpRequestsTotal method route statusClass =>
    method ∈ methodLabels ∧ route ∈ routeLabels ∧ statusClass ∈ statusLabels
  | .httpRequestDurationSeconds method route => method ∈ methodLabels ∧ route ∈ routeLabels
  | .securityEventsTotal eventType outcome =>
    eventType ∈ eventTypeLabels ∧ outcome ∈ outcomeLabels
  | .rateLimitDecisionsTotal scope decision =>
    scope ∈ rateLimitScopes ∧ decision ∈ rateLimitDecisions
  | .upstreamRequestsTotal service outcome => service ∈ serviceNames ∧ outcome ∈ upstreamOutcomes
  | .upstreamResilienceEventsTotal service event =>
    service ∈ serviceNames ∧ event ∈ GatewayMetrics.allowedEvents
  | .upstreamRequestDurationSeconds service => service ∈ serviceNames

theorem mem_labelSets (s : Series) : s ∈ labelSets ↔ s.Bounded := by
  cases s <;> simp [labelSets, Series.Bounded, List.mem_append, List.mem_map]

variable {u : Python.Unicode}

theorem normalizeHttpMethod_mem (method : String) :
    normalizeHttpMethod u method ∈ methodLabels := by
  unfold normalizeHttpMethod
  dsimp only
  split
  · next h => exact List.mem_append_left _ h
  · exact List.mem_append_right _ (List.mem_singleton_self _)

theorem resolveRouteTemplate_mem (route : Option DeclaredRoute) :
    resolveRouteTemplate route ∈ routeLabels := by
  cases route with
  | none => exact List.mem_cons_self
  | some route => cases route <;> decide

theorem statusClass_mem (statusCode : ℤ) : statusClass statusCode ∈ statusLabels := by
  unfold statusClass
  split
  · next h =>
    obtain hn | hn | hn | hn | hn : statusCode / 100 = 1 ∨ statusCode / 100 = 2 ∨
        statusCode / 100 = 3 ∨ statusCode / 100 = 4 ∨ statusCode / 100 = 5 := by omega
    all_goals
      rw [hn]
      decide
  · decide

theorem eventType_mem (eventType : Audit.AuditEventType) :
    eventType.value ∈ eventTypeLabels := by
  cases eventType <;> decide

theorem outcome_mem (outcome : Audit.AuditOutcome) : outcome.value ∈ outcomeLabels := by
  cases outcome <;> decide

theorem event_mem (event : UpstreamResilienceEvent) :
    event.value ∈ GatewayMetrics.allowedEvents := by
  cases event <;> decide

end Labels

section Recording

/-- Only tuples of the list have been recorded. -/
def Within (m : GatewayMetrics) : Prop := ∀ s ∈ m.series, s.Bounded

/-- What a handler records has labels of the list. -/
def Recordable : GatewayOp → Prop
  | .metric (.rateLimitDecision scope decision) =>
    scope ∈ rateLimitScopes ∧ decision ∈ rateLimitDecisions
  | .metric (.upstreamRequest service outcome) =>
    service ∈ serviceNames ∧ outcome ∈ upstreamOutcomes
  | .upstream (.onEvent service _) => service ∈ serviceNames
  | _ => True

variable {m : GatewayMetrics} {s : Series}

theorem within_empty : Within .empty := by
  intro s hs
  cases hs

theorem Within.observe (h : Within m) (hs : s.Bounded) : Within (m.observe s) := by
  intro t ht
  rcases m.mem_series_observe.mp ht with ht | rfl
  · exact h t ht
  · exact hs

theorem Within.recordHttpRequest {u : Python.Unicode} {route : String} (h : Within m)
    (method : String) (hr : route ∈ routeLabels) (statusCode : ℤ) :
    Within (m.recordHttpRequest u method route statusCode) := by
  have hm : normalizeHttpMethod u method ∈ methodLabels := normalizeHttpMethod_mem method
  have htotal : Within (m.observe (.httpRequestsTotal (normalizeHttpMethod u method) route
      (statusClass statusCode))) := h.observe ⟨hm, hr, statusClass_mem statusCode⟩
  exact htotal.observe ⟨hm, hr⟩

/-- One operation of a handler. -/
theorem Within.after {op : GatewayOp} (h : Within m) (hop : Recordable op) :
    Within (m.after op) := by
  unfold GatewayMetrics.after
  split
  · exact h.observe ⟨eventType_mem _, outcome_mem _⟩
  · exact h.observe hop
  · have hrequests := h.observe (s := .upstreamRequestsTotal _ _) hop
    exact hrequests.observe hop.1
  · next service event =>
    have hevent : event.value ∈ GatewayMetrics.allowedEvents := event_mem event
    simp only [GatewayMetrics.recordUpstreamResilienceEvent, if_pos hevent]
    exact h.observe ⟨hop, hevent⟩
  · exact h

end Recording

section Routes

theorem recordable_of_looking (op : GatewayOp) (h : Looking op) : Recordable op := by
  cases op with
  | metric m => cases m <;> trivial
  | upstream e => exact h.elim
  | _ => trivial

variable {cfg : Config} {http : HttpRequest} {α : Type}

theorem recordable_audited_throw (fields : Audit.EventFields) (error : Raised) :
    (recordRequestSecurityEvent cfg http fields >>= fun _ => (throw error : Action α)).Only
      Recordable :=
  (only_audited_throw fields error).mono recordable_of_looking

theorem recordable_audited_pure (fields : Audit.EventFields) (a : α) :
    (recordRequestSecurityEvent cfg http fields >>= fun _ => (pure a : Action α)).Only
      Recordable :=
  Prog.only_bind ((only_recordRequestSecurityEvent fields).mono recordable_of_looking)
    fun _ => Prog.only_pure a

section Registration

theorem recordable_createUser (username hashedPassword : String) :
    (UserRepository.createUser cfg username hashedPassword).Only Recordable := by
  refine Prog.only_bind (Prog.only_liftExcept _) fun name => ?_
  split
  · exact Prog.only_throw _
  · refine Prog.only_call_bind trivial fun now => ?_
    refine Prog.only_call_bind trivial fun id => ?_
    refine Prog.only_call_bind trivial fun committed => ?_
    match committed with
    | .ok _ => exact Prog.only_pure _
    | .error .uniqueViolation => exact Prog.only_throw _
    | .error .integrityError | .error (.sqlalchemyError _) | .error (.osError _)
    | .error (.fault f _) => exact only_orRaise _ _

theorem recordable_registerUser (username password : String) :
    (registerUser cfg http username password).Only Recordable := by
  unfold registerUser
  split
  · refine Prog.only_bind (Prog.only_tryCatch ?_ fun error => ?_) fun user =>
      recordable_audited_pure _ _
    · refine Prog.only_bind (Prog.only_liftExcept _) fun _ => ?_
      refine Prog.only_call_bind trivial fun hashed => ?_
      refine Prog.only_bind ((only_threaded hashed).mono recordable_of_looking) fun hash => ?_
      exact Prog.only_bind (recordable_createUser _ _) fun _ => Prog.only_pure _
    · split
      · exact Prog.only_throw _
      · exact recordable_audited_throw _ _
      · exact Prog.only_throw _
  · exact Prog.only_throw _

end Registration

section Login

/-- A back end of the login protection that fails, behind any of its scripts. -/
theorem recordable_protected {p : Action α} (hp : p.Only Recordable) (reasonCode : String) :
    (p.tryCatch fun
      | .loginProtectionBackend _ => protectionUnavailable cfg http reasonCode
      | error => throw error).Only Recordable := by
  refine Prog.only_tryCatch hp fun error => ?_
  split
  · exact recordable_audited_throw _ _
  · exact Prog.only_throw _

theorem recordable_asked {ask : ℤ → Action (Except RedisFault Login.LoginReply)}
    (hask : ∀ nowMs, (ask nowMs).Only Recordable) :
    (RedisLoginProtection.readClock >>= fun nowMs => ask nowMs >>= fun raw =>
      RedisLoginProtection.evaluated raw >>= fun reply =>
        Prog.liftExcept (RedisLoginProtection.parseDecision reply) :
      Action LoginProtectionDecision).Only Recordable :=
  only_decided trivial hask

theorem recordable_authenticated (username password : String)
    (ipDecision : RateLimit.RateLimitDecision) :
    (authenticated cfg http username password ipDecision).Only Recordable := by
  refine Prog.only_tryCatch
    ((only_authenticateAndCreateResult _ _).mono recordable_of_looking) fun error => ?_
  split
  · exact recordable_audited_throw _ _
  · refine Prog.only_bind ((only_recordRequestSecurityEvent _).mono recordable_of_looking)
      fun _ => ?_
    refine Prog.only_bind (recordable_protected ?_ _) fun decision => ?_
    · exact recordable_asked fun nowMs => .perform trivial fun raw => .finish _
    · split
      · exact recordable_audited_throw _ _
      · exact Prog.only_throw _
  · exact Prog.only_throw _

theorem recordable_issueAccessToken (username password : String) :
    (issueAccessToken cfg http username password).Only Recordable := by
  unfold issueAccessToken
  refine Prog.only_bind (only_enforceLoginIpRateLimit.mono recordable_of_looking)
    fun ipDecision => ?_
  refine Prog.only_bind (recordable_protected ?_ _) fun lockDecision => ?_
  · exact recordable_asked fun nowMs => .perform trivial fun raw => .finish _
  · split
    · exact recordable_audited_throw _ _
    · refine Prog.only_bind (recordable_authenticated _ _ _) fun result => ?_
      refine Prog.only_bind (recordable_protected ?_ _) fun _ => recordable_audited_pure _ _
      exact Prog.only_call_bind trivial only_evaluated

end Login

section Authorization

/-- The lookups of a role mutation, and its statement. -/
theorem recordable_roleMutation {userId : Uuid} {roleName : String} (op : Uuid → GatewayOp)
    (reply : ∀ roleId, (op roleId).Reply → Except DbFault Bool)
    (hop : ∀ roleId, Recordable (op roleId)) :
    (do
      let normalizedRole ← Prog.liftExcept (Authorization.normalizeRoleName cfg.unicode roleName)
      let roleId ← AuthorizationRepository.getRoleId cfg normalizedRole
      AuthorizationRepository.requireUser userId
      let changed ← invoke (op roleId)
      AuthorizationRepository.result (reply roleId changed) : Action Bool).Only Recordable := by
  refine Prog.only_bind (Prog.only_liftExcept _) fun name => ?_
  refine Prog.only_bind ((only_getRoleId name).mono recordable_of_looking) fun roleId => ?_
  refine Prog.only_bind ((only_requireUser userId).mono recordable_of_looking) fun _ => ?_
  exact Prog.only_call_bind (hop roleId) fun changed => only_authorizationResult _

theorem recordable_mutateUserRole {r : RoleMutation} (username roleName : String)
    (hmutate : ∀ userId name, (r.mutate cfg userId name).Only Recordable) :
    (mutateUserRole cfg http r username roleName).Only Recordable := by
  refine Prog.only_bind ?_ fun actor => ?_
  · exact ((auditing_requirePermission _).mono looking_of_auditing).mono recordable_of_looking
  · refine Prog.only_bind ((only_getTargetUser _ _ _).mono recordable_of_looking) fun target => ?_
    split
    · exact Prog.only_throw _
    · refine Prog.only_bind (Prog.only_tryCatch (hmutate _ _) fun error => ?_) fun changed =>
        recordable_audited_pure _ _
      split
      · exact Prog.only_throw _
      · exact Prog.only_throw _
      · exact recordable_audited_throw _ _
      · exact Prog.only_throw _

end Authorization

section Proxy

theorem registered_of_requestBaseUrl {serviceName baseUrl : String}
    (h : requestBaseUrl cfg serviceName = .ok baseUrl) : serviceName ∈ serviceNames := by
  by_contra hnot
  simp [requestBaseUrl, getServiceBaseUrl, isRegisteredService, hnot] at h

/-- The executor speaks of the service it was called for. -/
theorem recordable_executeUpstream {q : UpstreamRequest} (hq : q.serviceName ∈ serviceNames) :
    (executeUpstream cfg q).Only Recordable := by
  refine (Prog.only_of_wp (wp_execute_given (requestExecutor cfg) q)).embed fun e he => ?_
  cases he with
  | onEvent event => exact hq
  | _ => trivial

theorem recordable_forwardRequest (serviceName path : String)
    (decision : RateLimit.RateLimitDecision) :
    (forwardRequest cfg http serviceName path decision).Only Recordable := by
  unfold forwardRequest
  cases hurl : requestBaseUrl cfg serviceName with
  | error e => exact .finish _
  | ok baseUrl =>
    have hservice := registered_of_requestBaseUrl hurl
    rw [Prog.liftExcept_ok_bind]
    refine Prog.only_call_bind trivial fun read => ?_
    cases read with
    | error f => exact Prog.only_throw _
    | ok body =>
      refine Prog.only_bind (Prog.only_tryCatch ?_ ?_) fun result => ?_
      · exact recordable_executeUpstream hservice
      · refine only_upstreamFailed fun outcome ho => ⟨hservice, ?_⟩
        exact List.mem_append_right _ ho
      · refine Prog.only_call_bind ⟨hservice, ?_⟩ fun _ => Prog.only_pure _
        exact List.mem_append_left _ (statusClass_mem _)

theorem recordable_proxyRequest (serviceName path : String) :
    (proxyRequest cfg http serviceName path).Only Recordable := by
  refine Prog.only_bind (only_getCurrentUser.mono recordable_of_looking) fun user => ?_
  refine Prog.only_bind ((only_enforceProxyRateLimit _ _).mono recordable_of_looking)
    fun decision => ?_
  refine Prog.only_bind ((only_enforceProxyAuthorization _ _).mono recordable_of_looking)
    fun _ => ?_
  exact recordable_forwardRequest serviceName path decision

end Proxy

theorem recordable_route (q : ApiRequest) : (route cfg q).Only Recordable := by
  cases q with
  | register http username password => exact recordable_registerUser username password
  | token http username password => exact recordable_issueAccessToken username password
  | me http => exact only_readCurrentUser.mono recordable_of_looking
  | readRoles http username => exact (only_readUserRoles username).mono recordable_of_looking
  | assignRole http username roleName =>
    refine recordable_mutateUserRole username roleName fun userId name => ?_
    exact recordable_roleMutation (.insertUserRole userId) (fun _ changed => changed)
      fun _ => trivial
  | removeRole http username roleName =>
    refine recordable_mutateUserRole username roleName fun userId name => ?_
    exact recordable_roleMutation (.deleteUserRole userId) (fun _ changed => changed)
      fun _ => trivial
  | proxy http serviceName path =>
    change (ite _ _ _ : Action ApiResponse).Only Recordable
    split
    · exact recordable_proxyRequest serviceName path
    · exact Prog.only_throw _

end Routes

section Application

/-- What the application records has labels of the list. -/
def Recorded : AppOp → Prop
  | .gateway op => Recordable op
  | .recordHttpRequest _ route _ => route ∈ routeLabels
  | .emitRequestLog _ _ _ _ _ => True

variable {cfg : Config}

theorem recorded_finishRequest (q : Incoming) (event : String) (statusCode : ℤ) :
    (finishRequest q event statusCode).Only Recorded := by
  refine Prog.only_call_bind (resolveRouteTemplate_mem q.scopeRoute) fun _ => ?_
  exact .perform trivial fun _ => .finish _

theorem recorded_callNext (e : Endpoint) : (callNext cfg e).Only Recorded := by
  cases e with
  | framework http outcome => exact Prog.only_liftExcept outcome
  | api q =>
    refine Prog.only_tryCatch (Prog.only_bind ?_ fun _ => Prog.only_pure _) fun error => ?_
    · exact (recordable_route q).embed fun op hop => hop
    · unfold handleException
      split
      · exact Prog.only_pure _
      · split
        · exact Prog.only_pure _
        · exact Prog.only_throw _

theorem recorded_dispatch (q : Incoming) : (dispatch cfg q).Only Recorded := by
  refine Prog.only_bind (Prog.only_tryCatch (recorded_callNext q.endpoint) fun error => ?_)
    fun response => ?_
  · split
    · exact Prog.only_throw _
    · exact Prog.only_bind (recorded_finishRequest q _ _) fun _ => Prog.only_throw _
  · exact Prog.only_bind (recorded_finishRequest q _ _) fun _ => Prog.only_pure _

def labelDiscipline (cfg : Config) : Discipline (applicationSystem cfg) where
  ok _ _ := Recorded
  post _ _ _ := True
  handler q := Prog.wp_of_only (recorded_dispatch q) (fun _ _ => id) fun _ _ _ => trivial

/-- One step of the application. -/
theorem within_step {p p' : Pool (applicationSystem cfg)} {l : Label (applicationSystem cfg)}
    (hs : Step p l p') (hl : ∀ i x, l = .act i x → Recorded x.op) (h : Within p.world.metrics) :
    Within p'.world.metrics := by
  cases hs with
  | spawn q => exact h
  | tick t => exact h
  | @act i th op resume r w hi hp hw =>
    have hop : Recorded op := hl i ⟨op, r⟩ rfl
    cases op with
    | gateway op =>
      obtain ⟨world, -, rfl⟩ := Option.map_eq_some_iff.mp hw
      exact h.after hop
    | recordHttpRequest method route statusCode =>
      cases hw
      exact h.recordHttpRequest method hop statusCode
    | emitRequestLog event requestId method route statusCode =>
      cases hw
      exact h

/-- However many requests have come, and whatever they were, the children of the collectors
are among the label sets. -/
theorem metric_cardinality_bounded (cfg : Config) (w : World)
    (ts : List (Transition (applicationSystem cfg))) (p : Pool (applicationSystem cfg))
    (hr : Run (.initial (AppWorld.start w)) ts p) :
    (∀ s ∈ p.world.metrics.series, s ∈ labelSets ∧ s.Bounded) ∧
      p.world.metrics.children.length ≤ labelSets.length := by
  have hops : ∀ t ∈ ts, ∀ i x, t.label = .act i x → Recorded x.op := by
    intro t ht i x hl
    obtain ⟨th, -, hop⟩ := (labelDiscipline cfg).act_ok hr ht hl
    exact hop
  have hwithin : Within p.world.metrics :=
    (Run.invariant_along (fun q : Pool (applicationSystem cfg) => Within q.world.metrics)
      (fun t => ∀ i x, t.label = .act i x → Recorded x.op) hr within_empty within_step hops).1
  refine ⟨fun s hs => ⟨(mem_labelSets s).mpr (hwithin s hs), hwithin s hs⟩, ?_⟩
  exact p.world.metrics.length_le fun s hs => (mem_labelSets s).mpr (hwithin s hs)

/-- A method of the client's own making. -/
def brewed : List (Move (applicationSystem defaultConfig)) :=
  let answer (_ : AppWorld) : (op : AppOp) → op.Reply
    | .gateway op => World.reply .default (outsideWorks true) migratedWorld op
    | .recordHttpRequest _ _ _ | .emitRequestLog _ _ _ _ _ => ()
  [.spawn ⟨.api (.proxy (localRequest "BREW" none) "tea" "pot"), some .servicePath⟩,
    .act 0 answer]

theorem brewed_bounded :
    ∃ (ts : List (Transition (applicationSystem defaultConfig))) (p : Pool _),
      Run (.initial (AppWorld.start migratedWorld)) ts p ∧
      Series.httpRequestsTotal "OTHER" "/api/{service_name}/{path:path}" "4xx" ∈
        p.world.metrics.series ∧
      p.world.metrics.children.length ≤ labelSets.length := by
  have hplay : ((Pool.initial (AppWorld.start migratedWorld)).play brewed).any (fun ts =>
      ts.any fun t => decide (Series.httpRequestsTotal "OTHER" "/api/{service_name}/{path:path}"
        "4xx" ∈ t.after.world.metrics.series)) = true := by decide +kernel
  obtain ⟨ts, hts, hany⟩ := (Option.any_eq_true _ _).mp hplay
  obtain ⟨t, ht, hseries⟩ := List.any_eq_true.mp hany
  obtain ⟨p, hr⟩ := Pool.play_run hts
  obtain ⟨ts₁, ts₂, rfl⟩ := List.append_of_mem ht
  have hto : Run (.initial (AppWorld.start migratedWorld)) (ts₁ ++ [t]) t.after :=
    hr.upTo.snoc (hr.step ht)
  exact ⟨_, _, hto, of_decide_eq_true hseries,
    (metric_cardinality_bounded defaultConfig migratedWorld _ _ hto).2⟩

end Application

end SecureGateway.Observability
