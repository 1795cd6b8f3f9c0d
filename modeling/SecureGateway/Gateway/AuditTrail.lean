import SecureGateway.Gateway.RouteDiscipline
import SecureGateway.Gateway.Unmarked

/-!
# The audit trail

The routes, followed with what they have recorded so far: what each of them answers is
accounted for by its last event, and the audit table holds what all of them have written.
-/
namespace SecureGateway.Gateway

open Interleaving Audit

section Routes

variable {cfg : Config} {http : HttpRequest} {α : Type} {must : ℤ → Prop}
  {earlier : List (AuditRecord http)}

/-- A back end of the login protection that fails, behind any of its scripts. -/
theorem records_protected {p : Action α} (hp : Unmarked Unanswered p) (reasonCode : String)
    (hearlier : ∀ r ∈ earlier, r.event.eventType = .loginFailed) :
    Records cfg earlier (Accounted must (Kept earlier)) (p.tryCatch fun
      | .loginProtectionBackend _ => protectionUnavailable cfg http reasonCode
      | error => throw error) := by
  refine hp.tells_tryCatch (fun a => rfl) fun x hx => ?_
  split
  · exact records_refused hearlier rfl rfl
  · exact records_rethrown hx

theorem records_enforceLoginIpRateLimit :
    Accounts cfg http must (Kept []) (enforceLoginIpRateLimit cfg http) := by
  refine records_then ((unmarked_check _ _).tells_tryCatch (fun a => rfl) fun x hx => ?_)
    fun decision => ?_
  · split
    · refine Prog.tells_call_bind (fun r => rfl) fun _ => ?_
      exact records_refused (by simp) rfl rfl
    · exact records_rethrown hx
  · refine Prog.tells_call_bind (fun r => rfl) fun _ => ?_
    split
    · exact Prog.tells_finish rfl
    · exact records_refused (by simp) rfl rfl

/-- A failed login is recorded as one; what the lock then says may end it otherwise. -/
theorem records_loginFailed (username : String) (ipDecision : RateLimit.RateLimitDecision)
    {succeeded : α → List (AuditRecord http) → Prop} :
    Accounts cfg http must succeeded
      (loginFailed cfg http username ipDecision : Action α) := by
  refine Prog.tells_bind (F := Accounted must fun _ records => ∃ record : AuditRecord http,
    records = [record] ∧ record.event.eventType = .loginFailed ∧
      record.event.statusCode = some 401 ∧ record.event.outcome = .failure) ?_ ?_ ?_
  · refine records_event (fun records x hx => accounted_unanswered hx) fun record hrecord => ?_
    exact ⟨record, rfl, congrArg EventFields.eventType hrecord,
      congrArg EventFields.statusCode hrecord, congrArg EventFields.outcome hrecord⟩
  · rintro told _ ⟨record, rfl, htype, hstatus, houtcome⟩
    have hearlier : ∀ r ∈ [record], r.event.eventType = .loginFailed := by
      intro r hr
      cases List.mem_singleton.mp hr
      exact htype
    refine records_then (records_protected (unmarked_recordFailure _ _) _ hearlier)
      fun decision => ?_
    split
    · exact records_refused hearlier rfl rfl
    · exact Prog.tells_finish (Or.inl ⟨[], record, rfl, by simp, hstatus, houtcome⟩)
  · exact fun told x hx => hx.error

theorem records_authenticated (username password : String)
    (ipDecision : RateLimit.RateLimitDecision) :
    Accounts cfg http must (Kept [])
      (authenticated cfg http username password ipDecision) := by
  refine (unmarked_authenticateAndCreateResult username password).tells_tryCatch (fun a => rfl)
    fun x hx => ?_
  split
  · exact records_refused (by simp) rfl rfl
  · exact records_loginFailed username ipDecision
  · exact records_rethrown hx

theorem records_enforcePermission (user : UserPublic) (code : String)
    (serviceName : Option String) :
    Accounts cfg http must (Kept [])
      (enforcePermission cfg http user code serviceName) := by
  refine (unmarked_requirePermission user.id code).tells_tryCatch (fun a => rfl) fun x hx => ?_
  split
  · exact records_refused (by simp) rfl rfl
  · exact records_refused (by simp) rfl rfl
  · exact records_rethrown hx

/-- The dependency of the role routes. -/
theorem records_requirePermission (code : String) (h401 : ¬ must 401) (h503 : ¬ must 503) :
    Accounts cfg http must (Kept []) (requirePermission cfg http code) := by
  refine records_then (records_unmarked (unmarked_getCurrentUser h401 h503)) fun user => ?_
  refine records_then (records_enforcePermission user code none) fun _ => ?_
  exact Prog.tells_finish rfl

theorem records_getTargetUser (username code : String) (actor : Uuid) (h404 : ¬ must 404) :
    Accounts cfg http must (Kept []) (getTargetUser cfg http username actor code) := by
  have hnotFound : Accounted must (Kept (α := StoredUser) []) ([] : List (AuditRecord http))
      (.error userNotFoundResponse) := Or.inr ⟨rfl, h404⟩
  refine records_then ((unmarked_getByUsername username).tells_tryCatch (fun a => rfl)
    fun x hx => ?_) fun user => ?_
  · split
    · exact records_refused (by simp) rfl rfl
    · exact Prog.tells_finish (Or.inr ⟨rfl, h404⟩)
    · exact records_rethrown hx
  · cases user with
    | none => exact Prog.tells_finish hnotFound
    | some user => exact Prog.tells_finish rfl

theorem records_enforceProxyRateLimit (serviceName : String) (user : UserPublic) :
    Accounts cfg http must (Kept [])
      (enforceProxyRateLimit cfg http serviceName user) := by
  refine records_then ((unmarked_check _ _).tells_tryCatch (fun a => rfl) fun x hx => ?_)
    fun decision => ?_
  · split
    · refine Prog.tells_call_bind (fun r => rfl) fun _ => ?_
      exact records_refused (by simp) rfl rfl
    · exact records_rethrown hx
  · refine Prog.tells_call_bind (fun r => rfl) fun _ => ?_
    split
    · exact Prog.tells_finish rfl
    · exact records_refused (by simp) rfl rfl

/-- A routed method has a permission, so only the name of the service can be refused here. -/
theorem records_enforceProxyAuthorization (serviceName : String) (user : UserPublic)
    (hm : http.method ∈ proxyMethods) (h404 : ¬ must 404) :
    Accounts cfg http must (Kept [])
      (enforceProxyAuthorization cfg http serviceName user) := by
  refine records_then (records_unmarked (Prog.silent_liftExcept fun x hx => ?_))
    fun code => records_enforcePermission user code _
  rintro y rfl
  simp only [resolveProxyPermission, upper_strip_method cfg.unicode hm] at hx
  split at hx
  · cases hx
    exact h404
  · split at hx
    · cases hx
    · split at hx
      · cases hx
      · next hread hwrite =>
        have hall : ∀ m ∈ proxyMethods, m ∈ proxyReadMethods ∨ m ∈ proxyWriteMethods := by decide
        exact ((hall _ hm).elim hread hwrite).elim

/-- `proxy_request` after its dependencies answers what upstream fails with, and records
nothing. -/
theorem records_forwardRequest {serviceName path : String} {decision : RateLimit.RateLimitDecision}
    (hbase : ∀ name, ∀ y, cfg.validatedBaseUrl name ≠ .error (.http y))
    (hmust : ∀ c ∈ [404, 502, 503, 504], ¬ must c) :
    Accounts cfg http must (fun response records =>
      records = [] ∧ ∃ statusCode headers content, response = .proxied statusCode headers content)
      (forwardRequest cfg http serviceName path decision) := by
  have hanswered : ∀ (x : HTTPException), x.statusCode ∈ [404, 502, 503, 504] →
      Accounted must (Kept (α := Resilience.UpstreamExecutionResult) [])
        ([] : List (AuditRecord http)) (.error (.http x)) :=
    fun x hx => Or.inr ⟨rfl, hmust _ hx⟩
  refine records_then (records_unmarked (Prog.silent_liftExcept fun x hx => ?_)) fun baseUrl => ?_
  · rintro y rfl
    simp only [requestBaseUrl, getServiceBaseUrl] at hx
    split at hx
    · cases hx
      exact hmust 404 (by simp)
    · split at hx
      · exact (hbase _ _ hx).elim
      · cases hx
  · refine Prog.tells_call_bind (fun _ => rfl) fun read => ?_
    cases read with
    | error f => exact records_rethrown (unanswered_raised f)
    | ok body =>
      refine records_then ((Prog.Silent.embed silent_execute fun _ _ => rfl).tells_tryCatch
        (fun a => rfl) fun error herror => ?_) fun result => ?_
      · unfold upstreamFailed
        split
        · exact Prog.tells_finish (hanswered _ (by simp))
        · split
          · refine Prog.tells_call_bind (fun _ => rfl) fun _ => ?_
            exact Prog.tells_finish (hanswered _ (by simp))
          · refine Prog.tells_call_bind (fun _ => rfl) fun _ => ?_
            exact Prog.tells_finish (hanswered _ (by simp))
        · exact records_rethrown herror
      · refine Prog.tells_call_bind (fun _ => rfl) fun _ => ?_
        exact Prog.tells_finish ⟨rfl, _, _, _, rfl⟩

end Routes

section Requests

def ApiRequest.http : ApiRequest → HttpRequest
  | .register http _ _ | .token http _ _ | .me http | .readRoles http _ | .assignRole http _ _
  | .removeRole http _ _ | .proxy http _ _ => http

/-- The refusals that the route may not give unaudited: every one of a login, and elsewhere
those of the authorization and of the limiter. -/
def ApiRequest.mustAudit : ApiRequest → ℤ → Prop
  | .token _ _ _, _ => True
  | _, statusCode => statusCode = 403 ∨ statusCode = 429

theorem ApiRequest.mustAudit_denied (q : ApiRequest) {statusCode : ℤ}
    (h : statusCode = 403 ∨ statusCode = 429) : q.mustAudit statusCode := by
  cases q with
  | token http username password => trivial
  | _ => exact h

/-- One event of the type, a success. -/
def Announced (events : List SecurityAuditEvent) (eventType : AuditEventType)
    (about : SecurityAuditEvent → Prop) : Prop :=
  ∃ e, events = [e] ∧ e.eventType = eventType ∧ e.outcome = .success ∧ about e

/-- Each route answers with its own kind of response, and announces what it has done. -/
def Completes : ApiRequest → ApiResponse → List SecurityAuditEvent → Prop
  | .register _ _ _, .user user, events =>
    Announced events .userRegistered fun e => e.targetUserId = some user.id
  | .token _ _ _, .token _ _, events =>
    Announced events .loginSucceeded fun e => e.actorUserId.isSome = true
  | .me _, .user _, events => events = []
  | .readRoles _ _, .userRoles userId _ _, events =>
    Announced events .roleListRead fun e =>
      e.actorUserId.isSome = true ∧ e.targetUserId = some userId
  | .assignRole _ _ _, .roleMutation userId _ role changed, events =>
    Announced events .roleAssigned fun e =>
      e.actorUserId.isSome = true ∧ e.targetUserId = some userId ∧ e.roleName = some role ∧
        e.reasonCode = some (if changed then "role_assigned" else "role_already_assigned")
  | .removeRole _ _ _, .roleMutation userId _ role changed, events =>
    Announced events .roleRemoved fun e =>
      e.actorUserId.isSome = true ∧ e.targetUserId = some userId ∧ e.roleName = some role ∧
        e.reasonCode = some (if changed then "role_removed" else "role_not_assigned")
  | .proxy _ _ _, .proxied _ _ _, events => events = []
  | _, _, _ => False

/-- What a request is answered with and what it has recorded. -/
def Settles (q : ApiRequest) (records : List (AuditRecord q.http)) :
    Except Raised ApiResponse → Prop :=
  Accounted q.mustAudit (fun response records => Completes q response (records.map (·.event)))
    records

variable {cfg : Config} {http : HttpRequest}

/-- A program that records what its request settles. -/
abbrev SettlesRoute (cfg : Config) (q : ApiRequest) (p : Action ApiResponse) : Prop :=
  Records cfg [] (Settles q) p

theorem settles_registerUser (username password : String) :
    SettlesRoute cfg (.register http username password)
      (registerUser cfg http username password) := by
  unfold registerUser
  split
  · refine records_then ((unmarked_registration _ _).tells_tryCatch (fun a => rfl) fun x hx => ?_)
      fun user => ?_
    · split
      · refine Prog.tells_finish (Or.inr ⟨rfl, ?_⟩)
        rintro (h | h) <;> cases h
      · exact records_refused (by simp) rfl rfl
      · exact records_rethrown hx
    · refine records_completed fun record hrecord => ⟨record.event, rfl, ?_, ?_, ?_⟩
      · exact congrArg EventFields.eventType hrecord
      · exact congrArg EventFields.outcome hrecord
      · exact congrArg EventFields.targetUserId hrecord
  · exact records_rethrown (by rintro y ⟨⟩)

theorem settles_issueAccessToken (username password : String) :
    SettlesRoute cfg (.token http username password)
      (issueAccessToken cfg http username password) := by
  unfold issueAccessToken
  refine records_then records_enforceLoginIpRateLimit fun ipDecision => ?_
  refine records_then (records_protected (unmarked_checkLock _ _) _ (by simp))
    fun lockDecision => ?_
  split
  · exact records_refused (by simp) rfl rfl
  · refine records_then (records_authenticated username password ipDecision) fun result => ?_
    refine records_then (records_protected (unmarked_reset _ _) _ (by simp)) fun _ => ?_
    refine records_completed fun record hrecord => ⟨record.event, rfl, ?_, ?_, ?_⟩
    · exact congrArg EventFields.eventType hrecord
    · exact congrArg EventFields.outcome hrecord
    · exact congrArg (fun fields => fields.actorUserId.isSome) hrecord

theorem settles_readCurrentUser :
    SettlesRoute cfg (.me http) (readCurrentUser cfg http) := by
  have hmust : ∀ c ∈ [401, 503], ¬ (ApiRequest.me http).mustAudit c := by
    simp [ApiRequest.mustAudit]
  refine records_then (records_unmarked (unmarked_getCurrentUser (hmust 401 (by simp))
    (hmust 503 (by simp)))) fun user => ?_
  exact Prog.tells_finish rfl

theorem settles_readUserRoles (username : String) :
    SettlesRoute cfg (.readRoles http username) (readUserRoles cfg http username) := by
  have hmust : ∀ c ∈ [401, 404, 503], ¬ (ApiRequest.readRoles http username).mustAudit c := by
    simp [ApiRequest.mustAudit]
  refine records_then (records_requirePermission _ (hmust 401 (by simp)) (hmust 503 (by simp)))
    fun actor => ?_
  refine records_then (records_getTargetUser _ _ _ (hmust 404 (by simp))) fun target => ?_
  refine records_then (Prog.Silent.tells_tryCatch (P := Unanswered) ?_ (fun a => rfl)
    fun x hx => ?_) fun roles => ?_
  · exact Prog.silent_call_bind (fun r => rfl) fun selected => unmarked_authorizationResult selected
  · split
    · exact records_refused (by simp) rfl rfl
    · exact records_rethrown hx
  · refine records_completed fun record hrecord => ⟨record.event, rfl, ?_, ?_, ?_, ?_⟩
    · exact congrArg EventFields.eventType hrecord
    · exact congrArg EventFields.outcome hrecord
    · exact congrArg (fun fields => fields.actorUserId.isSome) hrecord
    · exact congrArg EventFields.targetUserId hrecord

/-- The common body of the two mutation routes. -/
theorem accounts_mutateUserRole {must : ℤ → Prop} (m : RoleMutation) (username roleName : String)
    (hmutate : ∀ userId name, Unmarked Unanswered (m.mutate cfg userId name))
    (hmust : ∀ c ∈ [401, 404, 503], ¬ must c) :
    Accounts cfg http must (fun response records => ∃ userId username role changed,
      response = .roleMutation userId username role changed ∧
      Announced (records.map (·.event)) m.eventType fun e =>
        e.actorUserId.isSome = true ∧ e.targetUserId = some userId ∧ e.roleName = some role ∧
          e.reasonCode = some (if changed then m.changedReason else m.unchangedReason))
      (mutateUserRole cfg http m username roleName) := by
  refine records_then (records_requirePermission _ (hmust 401 (by simp)) (hmust 503 (by simp)))
    fun actor => ?_
  refine records_then (records_getTargetUser _ _ _ (hmust 404 (by simp))) fun target => ?_
  split
  · exact Prog.tells_finish (Or.inr ⟨rfl, hmust 404 (by simp)⟩)
  · next normalizedRole _ =>
    refine records_then ((hmutate target.id normalizedRole).tells_tryCatch (fun a => rfl)
      fun x hx => ?_) fun changed => ?_
    · split
      · exact Prog.tells_finish (Or.inr ⟨rfl, hmust 404 (by simp)⟩)
      · exact Prog.tells_finish (Or.inr ⟨rfl, hmust 404 (by simp)⟩)
      · exact records_refused (by simp) rfl rfl
      · exact records_rethrown hx
    · refine records_completed fun record hrecord => ⟨target.id, target.username, normalizedRole,
        changed, rfl, record.event, rfl, ?_, ?_, ?_, ?_, ?_, ?_⟩
      · exact congrArg EventFields.eventType hrecord
      · exact congrArg EventFields.outcome hrecord
      · exact congrArg (fun fields => fields.actorUserId.isSome) hrecord
      · exact congrArg EventFields.targetUserId hrecord
      · exact congrArg EventFields.roleName hrecord
      · exact congrArg EventFields.reasonCode hrecord

theorem Accounted.mono {α : Type} {must : ℤ → Prop}
    {before after : α → List (AuditRecord http) → Prop} {records : List (AuditRecord http)}
    {outcome : Except Raised α} (h : Accounted must before records outcome)
    (hok : ∀ a, before a records → after a records) : Accounted must after records outcome := by
  cases outcome with
  | ok a => exact hok a h
  | error x => exact h.error

theorem settles_assignUserRole (username roleName : String) :
    SettlesRoute cfg (.assignRole http username roleName)
      (assignUserRole cfg http username roleName) := by
  have hmust : ∀ c ∈ [401, 404, 503],
      ¬ (ApiRequest.assignRole http username roleName).mustAudit c := by
    simp [ApiRequest.mustAudit]
  refine Prog.Tells.mono (accounts_mutateUserRole _ username roleName
    (fun userId name => unmarked_assignRole userId name) hmust) fun told outcome haccounted => ?_
  refine haccounted.mono fun response hresponse => ?_
  obtain ⟨userId, name, role, changed, rfl, hannounced⟩ := hresponse
  exact hannounced

theorem settles_removeUserRole (username roleName : String) :
    SettlesRoute cfg (.removeRole http username roleName)
      (removeUserRole cfg http username roleName) := by
  have hmust : ∀ c ∈ [401, 404, 503],
      ¬ (ApiRequest.removeRole http username roleName).mustAudit c := by
    simp [ApiRequest.mustAudit]
  refine Prog.Tells.mono (accounts_mutateUserRole _ username roleName
    (fun userId name => unmarked_removeRole userId name) hmust) fun told outcome haccounted => ?_
  refine haccounted.mono fun response hresponse => ?_
  obtain ⟨userId, name, role, changed, rfl, hannounced⟩ := hresponse
  exact hannounced

theorem settles_proxy (serviceName path : String)
    (hbase : ∀ name, ∀ y, cfg.validatedBaseUrl name ≠ .error (.http y)) :
    SettlesRoute cfg (.proxy http serviceName path)
      (route cfg (.proxy http serviceName path)) := by
  have hmust : ∀ c ∈ [401, 404, 405, 502, 503, 504],
      ¬ (ApiRequest.proxy http serviceName path).mustAudit c := by
    simp [ApiRequest.mustAudit]
  unfold route
  dsimp only
  split
  · next hm =>
    refine records_then (records_unmarked (unmarked_getCurrentUser (hmust 401 (by simp))
      (hmust 503 (by simp)))) fun user => ?_
    refine records_then (records_enforceProxyRateLimit serviceName user) fun decision => ?_
    refine records_then (records_enforceProxyAuthorization serviceName user hm
      (hmust 404 (by simp))) fun _ => ?_
    refine Prog.Tells.mono (records_forwardRequest hbase fun c hc => hmust c ?_)
      fun told outcome haccounted => ?_
    · simp only [List.mem_cons, List.not_mem_nil, or_false] at hc ⊢
      omega
    · refine haccounted.mono fun response hresponse => ?_
      obtain ⟨rfl, statusCode, headers, content, rfl⟩ := hresponse
      rfl
  · exact Prog.tells_finish (Or.inr ⟨rfl, hmust 405 (by simp)⟩)

/-- Every route accounts for what it answers. -/
theorem settles_route (cfg : Config)
    (hbase : ∀ name, ∀ y, cfg.validatedBaseUrl name ≠ .error (.http y)) (q : ApiRequest) :
    SettlesRoute cfg q (route cfg q) := by
  cases q with
  | register http username password => exact settles_registerUser username password
  | token http username password => exact settles_issueAccessToken username password
  | me http => exact settles_readCurrentUser
  | readRoles http username => exact settles_readUserRoles username
  | assignRole http username roleName => exact settles_assignUserRole username roleName
  | removeRole http username roleName => exact settles_removeUserRole username roleName
  | proxy http serviceName path => exact settles_proxy serviceName path hbase

end Requests

section Runs

variable {cfg : Config} {w w' : World}

/-- The rows that a mark stands for. -/
def AuditMark.rows : AuditMark → List SecurityAuditEvent
  | .appended e r => if takenEffect r then [e] else []
  | _ => []

theorem auditRows_eq (x : Exchange gateway) :
    auditRows x = (auditMarks x).flatMap AuditMark.rows := by
  obtain ⟨op, r⟩ := x
  cases op with
  | metric m => cases m <;> rfl
  | appendEvent e => exact (List.append_nil _).symm
  | _ => rfl

theorem rows_marks {http : HttpRequest} (record : AuditRecord http) :
    (record.marks cfg).flatMap AuditMark.rows = (record.row cfg).toList := by
  cases haudit : cfg.auditConfigured with
  | false => simp [AuditRecord.marks, AuditRecord.row, AuditMark.rows, haudit]
  | true =>
    have hcontained : (if record.contained then [AuditMark.failureLogged record.event]
        else []).flatMap AuditMark.rows = [] := by
      split <;> rfl
    cases heffect : takenEffect record.reply with
    | false =>
      simp [AuditRecord.marks, AuditRecord.row, AuditMark.rows, haudit, heffect, hcontained]
    | true =>
      simp [AuditRecord.marks, AuditRecord.row, AuditMark.rows, haudit, heffect, hcontained]

/-- The rows of a request are those of its records. -/
theorem observed_rows {http : HttpRequest} {h : History gateway}
    {records : List (AuditRecord http)}
    (heq : Prog.observed auditMarks h = records.flatMap (AuditRecord.marks cfg)) :
    Prog.observed auditRows h = records.filterMap (AuditRecord.row cfg) := by
  have hrows : Prog.observed auditRows h =
      (Prog.observed auditMarks h).flatMap AuditMark.rows := by
    rw [Prog.observed, Prog.observed, List.flatMap_assoc]
    exact congrArg (h.flatMap ·) (funext auditRows_eq)
  rw [hrows, heq, List.flatMap_assoc, List.filterMap_eq_flatMap_toList]
  exact congrArg (records.flatMap ·) (funext rows_marks)

/-- The table grows by the rows of an exchange. -/
theorem respond_auditEvents {op : GatewayOp} {r : op.Reply}
    (h : w.respond cfg.resilience op r = some w') :
    w'.auditEvents = w.auditEvents ++ auditRows ⟨op, r⟩ := by
  by_cases happend : ∃ e, op = .appendEvent e
  · obtain ⟨e, rfl⟩ := happend
    change w.statement r () _ = some w' at h
    cases r with
    | ok a =>
      cases h
      rfl
    | error f =>
      simp only [World.statement] at h
      split at h
      · next hcommitted =>
        cases h
        simp [auditRows, takenEffect, hcommitted]
      · next hcommitted =>
        cases h
        simp [auditRows, takenEffect, hcommitted]
  · have hrows : auditRows ⟨op, r⟩ = [] := by
      cases op with
      | appendEvent e => exact (happend ⟨e, rfl⟩).elim
      | _ => rfl
    rw [hrows, List.append_nil]
    cases respond_effect h with
    | eventAppended e => exact (happend ⟨e, rfl⟩).elim
    | _ => rfl

/-- Alice lists roles without the permission. -/
def unpermitted : List (Move (gatewaySystem defaultConfig)) :=
  .spawn (.readRoles (localRequest "GET" (some "token")) "alice") :: steps 0 8 true

def endsForbidden (th : Thread (gatewaySystem defaultConfig)) : Bool :=
  match th.outcome with
  | some (.error (.http x)) => x.statusCode = 403
  | _ => false

end Runs

end SecureGateway.Gateway
