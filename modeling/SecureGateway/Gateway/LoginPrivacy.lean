import SecureGateway.Foundation.Lockstep
import SecureGateway.Gateway.Lookups

/-!
# What a failed login shows

Two user tables that differ in one user, and the same attempts against both. An attempt runs
alone; the clock, the draws and the failures of the back ends are given operation by operation.
-/
namespace SecureGateway.Gateway

open Interleaving Audit

/-- pwdlib's `PasswordHash`. It raises on a hash that none of its hashers made. -/
structure PasswordHash where
  identifies : (hash : String) → Bool
  accepts : (password hash : String) → Bool
  replacement : (password hash : String) → Option String

namespace PasswordHash

variable (hasher : PasswordHash) (password hash : String)

def verify : Except Fault Bool :=
  if hasher.identifies hash then .ok (hasher.accepts password hash)
  else .error (.other "UnknownHashError")

def verifyAndUpdate : Except Fault (Bool × Option String) :=
  if hasher.identifies hash then
    .ok (if hasher.accepts password hash then (true, hasher.replacement password hash)
      else (false, none))
  else .error (.other "UnknownHashError")

end PasswordHash

/-- What one operation of an attempt meets: the time, everything that is drawn, and the failure
of the back end that it needs, if it fails. -/
structure Moment where
  nowMs : ℤ
  outside : Outside
  databaseFault : Option DbFault
  redisFault : Option RedisFault
  threadFault : Option Fault

namespace Moment

/-- The same time and the same availability; what is drawn may differ. -/
structure SameConditions (m m' : Moment) : Prop where
  nowMs : m.nowMs = m'.nowMs
  databaseFault : m.databaseFault = m'.databaseFault
  redisFault : m.redisFault = m'.redisFault
  threadFault : m.threadFault = m'.threadFault

def failure (m : Moment) : (op : GatewayOp) → Option op.Reply
  | .hashPassword _ => m.threadFault.map .error
  | .verifyPassword _ _ => m.threadFault.map .error
  | .verifyAndUpdatePassword _ _ => m.threadFault.map .error
  | .appendEvent _ => m.databaseFault.map .error
  | .selectUser _ => m.databaseFault.map .error
  | .commitPasswordHash _ _ => m.databaseFault.map .error
  | .evalTokenBucket _ _ _ _ _ _ => m.redisFault.map .error
  | .evalLockStatus _ _ => m.redisFault.map .error
  | .evalLoginFailure _ _ _ _ _ => m.redisFault.map .error
  | .evalLoginReset _ => m.redisFault.map .error
  | _ => none

def answer (m : Moment) (cfg : Config) (hasher : PasswordHash) (w : World) :
    (op : GatewayOp) → op.Reply
  | .verifyPassword password hash => hasher.verify password hash
  | .verifyAndUpdatePassword password hash => hasher.verifyAndUpdate password hash
  | op => w.reply cfg.resilience m.outside op

def reply (m : Moment) (cfg : Config) (hasher : PasswordHash) (w : World) (op : GatewayOp) :
    op.Reply := (m.failure op).getD (m.answer cfg hasher w op)

end Moment

/-- The world, the operations that the attempt has performed, and the audit log. -/
structure Site where
  world : World
  performed : ℕ
  log : List SecurityAuditEvent

def logged : GatewayOp → List SecurityAuditEvent
  | .emitSecurityAuditEvent e | .emitAuditPersistenceFailure e => [e]
  | _ => []

/-- The back ends during one attempt. -/
def attempting (cfg : Config) (hasher : PasswordHash) (course : ℕ → Moment) :
    Environment gateway Site := fun s op =>
  let m := course s.performed
  let w := { s.world with nowMs := m.nowMs }
  let r := m.reply cfg hasher w op
  (r, ⟨(w.respond cfg.resilience op r).getD w, s.performed + 1, s.log ++ logged op⟩)

/-- What an audit event says besides its identifier and its time. -/
def content (e : SecurityAuditEvent) : EventFields × Uuid := (e.toEventFields, e.requestId)

/-- Two worlds that differ in their databases and in identifiers and times of audit events. -/
structure WorldsAlike (db db' : Database) (w w' : World) : Prop where
  left : w.db = db
  right : w'.db = db'
  buckets : w.buckets = w'.buckets
  logins : w.logins = w'.logins
  auditEvents : w.auditEvents.map content = w'.auditEvents.map content

structure SitesAlike (db db' : Database) (s t : Site) : Prop where
  worlds : WorldsAlike db db' s.world t.world
  performed : s.performed = t.performed
  log : s.log.map content = t.log.map content

section Answers

variable {cfg : Config} {hasher : PasswordHash} {db db' : Database} {course course' : ℕ → Moment}

theorem script_alike {α β : Type} [DecidableEq α] {w w' : World} (h : WorldsAlike db db' w w')
    (r : Except RedisFault α) (result : Except String α × β) {store store' : β → World}
    (hstore : ∀ b, WorldsAlike db db' (store b) (store' b)) :
    WorldsAlike db db' ((w.script r result store).getD w)
      ((w'.script r result store').getD w') := by
  cases r with
  | error f =>
    simp only [World.script]
    split
    · exact hstore _
    · exact h
  | ok a =>
    simp only [World.script]
    split
    · exact hstore _
    · exact h

theorem WorldsAlike.setNow {w w' : World} (h : WorldsAlike db db' w w') (now now' : ℤ) :
    WorldsAlike db db' { w with nowMs := now } { w' with nowMs := now' } :=
  ⟨h.left, h.right, h.buckets, h.logins, h.auditEvents⟩

theorem WorldsAlike.setBucket {w w' : World} (h : WorldsAlike db db' w w') (key : String)
    (b : Redis.Key RateLimit.Bucket) :
    WorldsAlike db db' (w.setBucket key b) (w'.setBucket key b) := by
  refine ⟨h.left, h.right, ?_, h.logins, h.auditEvents⟩
  simp only [World.setBucket, h.buckets]

theorem WorldsAlike.setLogin {w w' : World} (h : WorldsAlike db db' w w') (key : String)
    (l : Login.LoginKey) : WorldsAlike db db' (w.setLogin key l) (w'.setLogin key l) := by
  refine ⟨h.left, h.right, h.buckets, ?_, h.auditEvents⟩
  simp only [World.setLogin, h.logins]

/-- The operations that neither see a user nor carry an audit event. -/
def Shared : GatewayOp → Prop
  | .clockMs | .metric _ | .evalTokenBucket _ _ _ _ _ _ | .evalLockStatus _ _
  | .evalLoginFailure _ _ _ _ _ | .evalLoginReset _ => True
  | _ => False

theorem respond_shared {w w' : World} {op : GatewayOp} (hop : Shared op)
    (settings : Resilience.UpstreamResilienceSettings) (h : WorldsAlike db db' w w')
    (hnow : w.nowMs = w'.nowMs) (r : op.Reply) :
    WorldsAlike db db' ((w.respond settings op r).getD w)
      ((w'.respond settings op r).getD w') := by
  cases op with
  | clockMs =>
    simp only [World.respond, hnow]
    split <;> exact h
  | metric m => exact h
  | evalTokenBucket key capacity rate cost nowMs ttlMs =>
    simp only [World.respond, hnow, h.buckets]
    exact script_alike h _ _ (h.setBucket key)
  | evalLockStatus key nowMs =>
    simp only [World.respond, hnow, h.logins]
    exact script_alike h _ _ (h.setLogin key)
  | evalLoginFailure key threshold nowMs window lockout =>
    simp only [World.respond, hnow, h.logins]
    exact script_alike h _ _ (h.setLogin key)
  | evalLoginReset key =>
    simp only [World.respond, hnow, h.logins]
    exact script_alike h _ _ (h.setLogin key)
  | _ => exact hop.elim

theorem reply_shared {w w' : World} {op : GatewayOp} {m m' : Moment} (hop : Shared op)
    (h : WorldsAlike db db' w w') (hnow : w.nowMs = w'.nowMs) (hm : m.SameConditions m') :
    m.reply cfg hasher w op = m'.reply cfg hasher w' op := by
  cases op with
  | clockMs => exact hnow
  | metric _ => rfl
  | evalTokenBucket key capacity rate cost nowMs ttlMs =>
    simp only [Moment.reply, Moment.failure, Moment.answer, World.reply, hm.redisFault, hnow,
      h.buckets]
  | evalLockStatus key nowMs =>
    simp only [Moment.reply, Moment.failure, Moment.answer, World.reply, hm.redisFault, hnow,
      h.logins]
  | evalLoginFailure key threshold nowMs window lockout =>
    simp only [Moment.reply, Moment.failure, Moment.answer, World.reply, hm.redisFault, hnow,
      h.logins]
  | evalLoginReset key =>
    simp only [Moment.reply, Moment.failure, Moment.answer, World.reply, hm.redisFault, hnow,
      h.logins]
  | _ => exact hop.elim

variable (hc : ∀ n, (course n).SameConditions (course' n))

include hc in
theorem answersAlike_shared {op : GatewayOp} (hop : Shared op) :
    AnswersAlike (S := gateway) (SitesAlike db db') (attempting cfg hasher course)
      (attempting cfg hasher course') op := by
  intro s t h
  have hm : (course s.performed).SameConditions (course' t.performed) := by
    rw [h.performed]
    exact hc t.performed
  have hw := h.worlds.setNow (course s.performed).nowMs (course' t.performed).nowMs
  have hreply : (course s.performed).reply cfg hasher _ op =
      (course' t.performed).reply cfg hasher _ op := reply_shared hop hw hm.nowMs hm
  have hquiet : logged op = [] := by
    cases op <;> first | rfl | exact hop.elim
  refine ⟨hreply, ?_, congrArg (· + 1) h.performed, ?_⟩
  · simp only [attempting, hreply]
    exact respond_shared hop cfg.resilience hw hm.nowMs _
  · simpa only [attempting, hquiet, List.append_nil] using h.log

/-- An operation that leaves every world as it is. -/
def Mute (cfg : Config) (op : GatewayOp) : Prop :=
  ∀ w r, ((World.respond cfg.resilience w op r).getD w) = w

theorem SitesAlike.step_mute (hasher : PasswordHash) (course course' : ℕ → Moment)
    {op op' : GatewayOp} {s t : Site} (h : SitesAlike db db' s t) (hop : Mute cfg op)
    (hop' : Mute cfg op') (hlog : (logged op).map content = (logged op').map content) :
    SitesAlike db db' (attempting cfg hasher course s op).2
      (attempting cfg hasher course' t op').2 := by
  refine ⟨?_, congrArg (· + 1) h.performed, ?_⟩
  · simp only [attempting, hop _ _, hop' _ _]
    exact h.worlds.setNow _ _
  · simp only [attempting, List.map_append, h.log, hlog]

theorem append_alike {e e' : SecurityAuditEvent} {w w' : World} (he : content e = content e')
    (settings : Resilience.UpstreamResilienceSettings) (h : WorldsAlike db db' w w')
    (r : Except DbFault Unit) :
    WorldsAlike db db' ((w.respond settings (.appendEvent e) r).getD w)
      ((w'.respond settings (.appendEvent e') r).getD w') := by
  have hadded : WorldsAlike db db' { w with auditEvents := w.auditEvents ++ [e] }
      { w' with auditEvents := w'.auditEvents ++ [e'] } := by
    refine ⟨h.left, h.right, h.buckets, h.logins, ?_⟩
    simp [h.auditEvents, he]
  cases r with
  | ok u => exact hadded
  | error f =>
    simp only [World.respond, World.statement]
    split
    · exact hadded
    · exact h

include hc in
/-- Both tables get an event with the same content, or neither gets one. -/
theorem SitesAlike.step_append (cfg : Config) (hasher : PasswordHash)
    {e e' : SecurityAuditEvent} {s t : Site} (he : content e = content e')
    (h : SitesAlike db db' s t) :
    (attempting cfg hasher course s (.appendEvent e)).1 =
        (attempting cfg hasher course' t (.appendEvent e')).1 ∧
      SitesAlike db db' (attempting cfg hasher course s (.appendEvent e)).2
        (attempting cfg hasher course' t (.appendEvent e')).2 := by
  have hm : (course s.performed).SameConditions (course' t.performed) := by
    rw [h.performed]
    exact hc t.performed
  have hw := h.worlds.setNow (course s.performed).nowMs (course' t.performed).nowMs
  have hreply : (course s.performed).reply cfg hasher
        { s.world with nowMs := (course s.performed).nowMs } (.appendEvent e) =
      (course' t.performed).reply cfg hasher
        { t.world with nowMs := (course' t.performed).nowMs } (.appendEvent e') := by
    simp only [Moment.reply, Moment.failure, Moment.answer, World.reply, hm.databaseFault]
  refine ⟨hreply, ?_, congrArg (· + 1) h.performed, ?_⟩
  · simp only [attempting, hreply]
    exact append_alike he cfg.resilience hw _
  · simpa [attempting, logged] using h.log

end Answers

section Events

/-- `__post_init__` without the event. -/
def checkFields (fields : EventFields) : Except Raised Unit := do
  if fields.statusCode.all fun c => 100 ≤ c ∧ c ≤ 599 then pure ()
    else .error (.valueError "status_code must be between 100 and 599.")
  validateOptionalCode "permission_code" fields.permissionCode 160
  validateOptionalCode "role_name" fields.roleName 160
  validateOptionalCode "service_name" fields.serviceName 160
  validateOptionalCode "method" fields.method 16
  validateOptionalCode "reason_code" fields.reasonCode 160

/-- Whether an event is accepted does not depend on its identifier and its time. -/
theorem postInit_eq (e : SecurityAuditEvent) :
    e.postInit = checkFields e.toEventFields >>= fun _ => .ok e := by
  simp only [SecurityAuditEvent.postInit, checkFields]
  split
  · simp only [bind_assoc]
    rfl
  · rfl

end Events

section Recording

/-- The password verified against the hash of an active user. -/
def Authenticates (h : History gateway) : Prop :=
  ∃ (name : String) (r : UserRecord) (password : String) (update : Option String),
    ⟨.selectUser name, .ok (some r)⟩ ∈ h ∧ r.isActive = true ∧
      ⟨.verifyAndUpdatePassword password r.hashedPassword, .ok (true, update)⟩ ∈ h

def Unauthenticated (h : History gateway) : Prop := ¬ Authenticates h

theorem quiet_splits : Splits Unauthenticated := by
  intro h k hquiet
  constructor
  · rintro ⟨name, r, password, update, hselect, hactive, hverify⟩
    exact hquiet ⟨name, r, password, update, List.mem_append_left k hselect, hactive,
      List.mem_append_left k hverify⟩
  · rintro ⟨name, r, password, update, hselect, hactive, hverify⟩
    exact hquiet ⟨name, r, password, update, List.mem_append_right h hselect, hactive,
      List.mem_append_right h hverify⟩

variable {cfg : Config} {hasher : PasswordHash} {db db' : Database} {course course' : ℕ → Moment}
  {http : HttpRequest} {s t : Site}

theorem mute_uuid4 (cfg : Config) : Mute cfg .uuid4 := fun _ _ => rfl

theorem mute_utcNow (cfg : Config) : Mute cfg .utcNow := fun _ _ => rfl

theorem mute_emit (cfg : Config) (e : SecurityAuditEvent) : Mute cfg (.emitSecurityAuditEvent e) :=
  fun _ _ => rfl

theorem mute_emitFailure (cfg : Config) (e : SecurityAuditEvent) :
    Mute cfg (.emitAuditPersistenceFailure e) := fun _ _ => rfl

variable (hc : ∀ n, (course n).SameConditions (course' n))

/-- Two actions, one against each table. -/
abbrev RunAlike {α : Type} (cfg : Config) (hasher : PasswordHash) (db db' : Database)
    (course course' : ℕ → Moment) (s t : Site) (p q : Action α) : Prop :=
  Lockstep Unauthenticated (SitesAlike db db') (p.exec (attempting cfg hasher course) s)
    (q.exec (attempting cfg hasher course') t)

include hc in
theorem alike_bestEffort {e e' : SecurityAuditEvent} (he : content e = content e')
    (h : SitesAlike db db' s t) :
    RunAlike cfg hasher db db' course course' s t (recordSecurityEventBestEffort cfg e)
      (recordSecurityEventBestEffort cfg e') := by
  refine Lockstep.call_bind quiet_splits ?_
  have hemitted := h.step_mute hasher course course' (mute_emit cfg e) (mute_emit cfg e')
    (by simp [logged, he])
  cases cfg.auditConfigured with
  | false => exact Lockstep.finish _ hemitted
  | true =>
    obtain ⟨hreply, happended⟩ := hemitted.step_append hc cfg hasher he
    refine Lockstep.call_bind quiet_splits ?_
    rw [hreply]
    split
    · exact Lockstep.finish _ happended
    · exact Lockstep.finish _ happended
    · refine Lockstep.call_bind quiet_splits ?_
      exact Lockstep.finish _ (happended.step_mute hasher course course' (mute_emitFailure cfg e)
        (mute_emitFailure cfg e') (by simp [logged, he]))

/-- The event of one request, from what is drawn for it. -/
def eventOf (cfg : Config) (http : HttpRequest) (fields : EventFields) (eventId : Uuid)
    (occurredAt : Timestamp) : SecurityAuditEvent :=
  { fields with
    method := fields.method.map cfg.unicode.upper
    eventId
    occurredAt
    requestId := http.requestId }

include hc in
theorem alike_record (fields : EventFields) (h : SitesAlike db db' s t) :
    RunAlike cfg hasher db db' course course' s t (recordRequestSecurityEvent cfg http fields)
      (recordRequestSecurityEvent cfg http fields) := by
  have hsteps : recordRequestSecurityEvent cfg http fields =
      (invoke .uuid4 >>= fun eventId => invoke .utcNow >>= fun occurredAt =>
        Prog.liftExcept (eventOf cfg http fields eventId occurredAt).postInit >>= fun event =>
          invoke (.metric (.securityEvent event.eventType event.outcome)) >>= fun _ =>
            recordSecurityEventBestEffort cfg event) := rfl
  rw [hsteps]
  have hid := h.step_mute hasher course course' (mute_uuid4 cfg) (mute_uuid4 cfg) rfl
  refine Lockstep.call_bind quiet_splits ?_
  have hat := hid.step_mute hasher course course' (mute_utcNow cfg) (mute_utcNow cfg) rfl
  refine Lockstep.call_bind quiet_splits ?_
  rw [postInit_eq, postInit_eq]
  cases hcheck : checkFields { fields with method := fields.method.map cfg.unicode.upper } with
  | error x =>
    simp only [eventOf, hcheck]
    exact Lockstep.finish _ hat
  | ok u =>
    simp only [eventOf, hcheck]
    have hmetric : Shared (.metric (.securityEvent fields.eventType fields.outcome)) := trivial
    refine Lockstep.call_bind quiet_splits ?_
    exact alike_bestEffort hc rfl (answersAlike_shared hc hmetric _ _ hat).2

include hc in
/-- What is recorded and then raised. -/
theorem alike_record_throw {α : Type} (fields : EventFields) (x : Raised)
    (h : SitesAlike db db' s t) :
    RunAlike cfg hasher db db' course course' s t
      (recordRequestSecurityEvent cfg http fields >>= fun _ => (throw x : Action α))
      (recordRequestSecurityEvent cfg http fields >>= fun _ => throw x) :=
  (alike_record hc fields h).bind quiet_splits fun _ _ _ _ h => Lockstep.finish _ h

end Recording

section Attempt

variable {cfg : Config} {hasher : PasswordHash} {db db' : Database} {course course' : ℕ → Moment}
  {http : HttpRequest} {s t : Site}

variable (hc : ∀ n, (course n).SameConditions (course' n))

include hc in
theorem alike_checkLock (identifier : String) (policy : Login.LoginProtectionPolicy)
    (h : SitesAlike db db' s t) :
    RunAlike cfg hasher db db' course course' s t
      (RedisLoginProtection.checkLock cfg identifier policy)
      (RedisLoginProtection.checkLock cfg identifier policy) := by
  refine Lockstep.of_only (only_decided (answersAlike_shared hc trivial) fun nowMs => ?_) h
  exact .perform (answersAlike_shared hc trivial) fun raw => .finish (.ok raw)

include hc in
theorem alike_recordFailure (identifier : String) (policy : Login.LoginProtectionPolicy)
    (h : SitesAlike db db' s t) :
    RunAlike cfg hasher db db' course course' s t
      (RedisLoginProtection.recordFailure cfg identifier policy)
      (RedisLoginProtection.recordFailure cfg identifier policy) := by
  refine Lockstep.of_only (only_decided (answersAlike_shared hc trivial) fun nowMs => ?_) h
  exact .perform (answersAlike_shared hc trivial) fun raw => .finish (.ok raw)

include hc in
theorem alike_reset (identifier : String) (policy : Login.LoginProtectionPolicy)
    (h : SitesAlike db db' s t) :
    RunAlike cfg hasher db db' course course' s t
      (RedisLoginProtection.reset cfg identifier policy)
      (RedisLoginProtection.reset cfg identifier policy) := by
  refine Lockstep.of_only ?_ h
  exact Prog.only_call_bind (answersAlike_shared hc trivial) fun raw => only_evaluated raw

include hc in
theorem alike_check (identity : String) (policy : RateLimit.RateLimitPolicy)
    (h : SitesAlike db db' s t) :
    RunAlike cfg hasher db db' course course' s t (RedisRateLimiter.check cfg identity policy)
      (RedisRateLimiter.check cfg identity policy) := by
  refine Lockstep.of_only ?_ h
  exact only_check_of (answersAlike_shared hc trivial) fun _ => answersAlike_shared hc trivial

include hc in
theorem alike_enforceLoginIpRateLimit (h : SitesAlike db db' s t) :
    RunAlike cfg hasher db db' course course' s t (enforceLoginIpRateLimit cfg http)
      (enforceLoginIpRateLimit cfg http) := by
  refine Lockstep.bind quiet_splits (Lockstep.tryCatch quiet_splits (alike_check hc _ _ h) ?_) ?_
  · intro x s t h
    have hmetric : Shared (.metric (.rateLimitDecision "login" "unavailable")) := trivial
    split
    · refine Lockstep.call_bind quiet_splits ?_
      exact alike_record_throw hc _ _ (answersAlike_shared hc hmetric _ _ h).2
    · exact Lockstep.finish _ h
  · intro decision s t _ h
    have hmetric : Shared (.metric (.rateLimitDecision "login"
      (if decision.allowed then "allowed" else "rejected"))) := trivial
    have hcounted : SitesAlike db db' (attempting cfg hasher course s _).2
      (attempting cfg hasher course' t _).2 := (answersAlike_shared hc hmetric _ _ h).2
    refine Lockstep.call_bind quiet_splits ?_
    split
    · exact Lockstep.finish _ hcounted
    · exact alike_record_throw hc _ _ hcounted

include hc in
theorem alike_loginFailed {α : Type} (username : String)
    (ipDecision : RateLimit.RateLimitDecision) (h : SitesAlike db db' s t) :
    RunAlike cfg hasher db db' course course' s t
      (loginFailed cfg http username ipDecision : Action α)
      (loginFailed cfg http username ipDecision) := by
  refine Lockstep.bind quiet_splits (alike_record hc _ h) fun _ s t _ h => ?_
  refine Lockstep.bind quiet_splits
    (Lockstep.tryCatch quiet_splits (alike_recordFailure hc _ _ h) ?_) ?_
  · intro x s t h
    split
    · exact alike_record_throw hc _ _ h
    · exact Lockstep.finish _ h
  · intro decision s t _ h
    split
    · exact alike_record_throw hc _ _ h
    · exact Lockstep.finish _ h

end Attempt

section Verification

variable {cfg : Config} {hasher : PasswordHash} {course : ℕ → Moment} {s : Site}
  {password : String}

/-- One operation, after which the action performs nothing more. -/
theorem invoke_bind_ends {α σ : Type} {env : Environment gateway σ} {s : σ} {op : GatewayOp}
    {f : op.Reply → Action α} {x : Raised}
    (h : (f (env s op).1).exec env (env s op).2 = ⟨[], .error x, (env s op).2⟩) :
    ((invoke op >>= f).exec env s).outcome = .error x ∧
      ((invoke op >>= f).exec env s).state = (env s op).2 :=
  ⟨congrArg Execution.outcome h, congrArg Execution.state h⟩

/-- The verification that follows the lookup. -/
def verification (cfg : Config) (password : String) : Option UserRecord → GatewayOp
  | none => .verifyPassword password cfg.dummyPasswordHash
  | some r => .verifyAndUpdatePassword password r.hashedPassword

/-- An unknown user is rejected whatever the password is. -/
def rejectUnknown (r : Except Fault Bool) : Action StoredUser := do
  let _ ← AuthenticationService.threaded r
  throw (.authentication AuthenticationService.invalidCredentialsMessage)

/-- A known user, once the password has been looked at. -/
def judge (cfg : Config) (user : StoredUser) (r : Except Fault (Bool × Option String)) :
    Action StoredUser := do
  let (isValid, replacementHash) ← AuthenticationService.threaded r
  if isValid = false ∨ user.isActive = false then
    throw (.authentication AuthenticationService.invalidCredentialsMessage)
  else
    match replacementHash with
    | none => pure user
    | some hash => UserRepository.updatePasswordHash cfg user.username hash

/-- `authenticate_user` after the lookup. -/
def verifyFound (cfg : Config) (password : String) : Option StoredUser → Action StoredUser
  | none => invoke (.verifyPassword password cfg.dummyPasswordHash) >>= rejectUnknown
  | some user => invoke (.verifyAndUpdatePassword password user.hashedPassword) >>= judge cfg user

theorem reply_verifyPassword {hash : String} (h : hasher.identifies hash = true) :
    (attempting cfg hasher course s (.verifyPassword password hash)).1 =
      ((course s.performed).threadFault.map .error).getD (.ok (hasher.accepts password hash)) := by
  simp only [attempting, Moment.reply, Moment.failure, Moment.answer, PasswordHash.verify, h,
    if_true]

theorem reply_verifyAndUpdate {hash : String} (h : hasher.identifies hash = true) :
    (attempting cfg hasher course s (.verifyAndUpdatePassword password hash)).1 =
      ((course s.performed).threadFault.map .error).getD
        (.ok (if hasher.accepts password hash then (true, hasher.replacement password hash)
          else (false, none))) := by
  simp only [attempting, Moment.reply, Moment.failure, Moment.answer,
    PasswordHash.verifyAndUpdate, h, if_true]

/-- What a verification that does not authenticate ends in. -/
def verificationError : Option Fault → Raised
  | some f => f.raised
  | none => .authentication AuthenticationService.invalidCredentialsMessage

theorem exec_rejectUnknown {σ : Type} (env : Environment gateway σ) (s : σ)
    (fault : Option Fault) (b : Bool) :
    (rejectUnknown ((fault.map .error).getD (.ok b))).exec env s =
      ⟨[], .error (verificationError fault), s⟩ := by
  cases fault <;> rfl

theorem exec_judge {σ : Type} (env : Environment gateway σ) (s : σ) {user : StoredUser}
    {fault : Option Fault} {x : Bool × Option String}
    (h : fault = none → x.1 = false ∨ user.isActive = false) :
    (judge cfg user ((fault.map .error).getD (.ok x))).exec env s =
      ⟨[], .error (verificationError fault), s⟩ := by
  cases fault with
  | some f => rfl
  | none =>
    have hrejected : judge cfg user (.ok x) =
        throw (.authentication AuthenticationService.invalidCredentialsMessage) :=
      if_pos (h rfl)
    exact congrArg (Prog.exec env s) hrejected

/-- An unknown user, a wrong password and an inactive user all end alike. -/
theorem verifyFound_fails {found : Option UserRecord}
    (hdummy : hasher.identifies cfg.dummyPasswordHash = true)
    (hfound : ∀ r, found = some r → hasher.identifies r.hashedPassword = true)
    (hnot : ∀ r, found = some r → r.isActive = true →
      hasher.accepts password r.hashedPassword = true →
        (course s.performed).threadFault ≠ none) :
    ((verifyFound cfg password (found.map recordToStoredUser)).exec
        (attempting cfg hasher course) s).outcome =
        .error (verificationError (course s.performed).threadFault) ∧
      ((verifyFound cfg password (found.map recordToStoredUser)).exec
        (attempting cfg hasher course) s).state =
        (attempting cfg hasher course s (verification cfg password found)).2 := by
  cases found with
  | none =>
    have hrun : (rejectUnknown (attempting cfg hasher course s
        (.verifyPassword password cfg.dummyPasswordHash)).1).exec (attempting cfg hasher course)
        (attempting cfg hasher course s (verification cfg password none)).2 =
        ⟨[], .error (verificationError (course s.performed).threadFault),
          (attempting cfg hasher course s (verification cfg password none)).2⟩ := by
      rw [reply_verifyPassword hdummy, exec_rejectUnknown]
    exact invoke_bind_ends hrun
  | some r =>
    have hwhy : (course s.performed).threadFault = none →
        (if hasher.accepts password r.hashedPassword then
          (true, hasher.replacement password r.hashedPassword) else (false, none)).1 = false ∨
          (recordToStoredUser r).isActive = false := by
      intro hnone
      cases haccepts : hasher.accepts password r.hashedPassword with
      | false => exact .inl rfl
      | true =>
        refine .inr ?_
        by_contra hactive
        exact hnot r rfl (Bool.not_eq_false _ ▸ hactive) haccepts hnone
    have hrun : (judge cfg (recordToStoredUser r) (attempting cfg hasher course s
        (.verifyAndUpdatePassword password r.hashedPassword)).1).exec
        (attempting cfg hasher course)
        (attempting cfg hasher course s (verification cfg password (some r))).2 =
        ⟨[], .error (verificationError (course s.performed).threadFault),
          (attempting cfg hasher course s (verification cfg password (some r))).2⟩ := by
      rw [reply_verifyAndUpdate (hfound r rfl), exec_judge _ _ hwhy]
    exact invoke_bind_ends hrun

/-- The `except` clause of the lookup. -/
def unknownOnPolicy : Raised → Action (Option StoredUser)
  | .usernamePolicy _ => pure none
  | error => throw error

theorem authenticateUser_eq (cfg : Config) (username password : String) :
    AuthenticationService.authenticateUser cfg username password =
      (UserRepository.getByUsername cfg username).tryCatch unknownOnPolicy >>=
        verifyFound cfg password := rfl

/-- The lookup with its `except` clause asks for the name once. -/
theorem lookup_exec {σ : Type} {env : Environment gateway σ} {s : σ} {username name : String}
    (hname : Auth.normalizeUsername cfg.unicode username = .ok name) :
    ((UserRepository.getByUsername cfg username).tryCatch unknownOnPolicy).exec env s =
      (Prog.perform (S := gateway) (.selectUser name) fun r =>
        (UserRepository.result r >>= fun record =>
          pure (record.map recordToStoredUser)).tryCatch unknownOnPolicy).exec env s := by
  rw [UserRepository.getByUsername, hname]
  rfl

/-- `authenticate_user` once the lookup has answered. -/
theorem authenticateUser_found {σ : Type} {env : Environment gateway σ} {s : σ}
    {username name : String} {found : Option UserRecord}
    (hname : Auth.normalizeUsername cfg.unicode username = .ok name)
    (hreply : (env s (.selectUser name)).1 = .ok found) :
    (AuthenticationService.authenticateUser cfg username password).exec env s =
      ⟨⟨.selectUser name, .ok found⟩ ::
          ((verifyFound cfg password (found.map recordToStoredUser)).exec env
            (env s (.selectUser name)).2).history,
        ((verifyFound cfg password (found.map recordToStoredUser)).exec env
          (env s (.selectUser name)).2).outcome,
        ((verifyFound cfg password (found.map recordToStoredUser)).exec env
          (env s (.selectUser name)).2).state⟩ := by
  have hlookup : ((UserRepository.getByUsername cfg username).tryCatch unknownOnPolicy).exec env s =
      ⟨[⟨.selectUser name, .ok found⟩], .ok (found.map recordToStoredUser),
        (env s (.selectUser name)).2⟩ := by
    rw [lookup_exec hname]
    simp only [Prog.exec, hreply]
    rfl
  have hok := congrArg Execution.outcome hlookup
  rw [authenticateUser_eq, Prog.exec_bind_ok hok, hlookup]
  rfl

/-- A username that the policy refuses is an unknown user. -/
theorem authenticateUser_invalid {σ : Type} {env : Environment gateway σ} {s : σ}
    {username : String} {x : Raised}
    (hname : Auth.normalizeUsername cfg.unicode username = .error x) :
    (AuthenticationService.authenticateUser cfg username password).exec env s =
      (verifyFound cfg password ((none : Option UserRecord).map recordToStoredUser)).exec env
        s := by
  obtain ⟨message, rfl⟩ := Auth.normalizeUsername_error hname
  rw [authenticateUser_eq, UserRepository.getByUsername, hname]
  rfl

/-- What a failed lookup raises. -/
def lookupError : DbFault → Raised
  | .fault f _ => f.raised
  | _ => UserRepository.backendError

theorem authenticateUser_unavailable {σ : Type} {env : Environment gateway σ} {s : σ}
    {username name : String} {f : DbFault}
    (hname : Auth.normalizeUsername cfg.unicode username = .ok name)
    (hreply : (env s (.selectUser name)).1 = .error f) :
    (AuthenticationService.authenticateUser cfg username password).exec env s =
      ⟨[⟨.selectUser name, .error f⟩], .error (lookupError f), (env s (.selectUser name)).2⟩ := by
  have hlookup : ((UserRepository.getByUsername cfg username).tryCatch unknownOnPolicy).exec env s =
      ⟨[⟨.selectUser name, .error f⟩], .error (lookupError f), (env s (.selectUser name)).2⟩ := by
    rw [lookup_exec hname]
    simp only [Prog.exec, hreply]
    cases f with
    | fault f committed => cases f <;> rfl
    | _ => rfl
  rw [authenticateUser_eq, Prog.exec_bind_error (congrArg Execution.outcome hlookup), hlookup]

/-- A quiet lookup and verification do not authenticate. -/
theorem not_accepted_of_quiet {name : String} {found : Option UserRecord}
    (hfound : ∀ r, found = some r → hasher.identifies r.hashedPassword = true)
    (hquiet : Unauthenticated (⟨.selectUser name, .ok found⟩ ::
      ((verifyFound cfg password (found.map recordToStoredUser)).exec
        (attempting cfg hasher course) s).history)) :
    ∀ r, found = some r → r.isActive = true → hasher.accepts password r.hashedPassword = true →
      (course s.performed).threadFault ≠ none := by
  rintro r rfl hactive haccepts hnone
  have hreply : (attempting cfg hasher course s
      (.verifyAndUpdatePassword password r.hashedPassword)).1 =
      .ok (true, hasher.replacement password r.hashedPassword) := by
    rw [reply_verifyAndUpdate (hfound r rfl), hnone, haccepts]
    rfl
  refine hquiet ⟨name, r, password, hasher.replacement password r.hashedPassword, ?_, hactive, ?_⟩
  · exact List.mem_cons_self
  · refine List.mem_cons_of_mem _ ?_
    rw [← hreply]
    exact List.mem_cons_self

end Verification

section Authentication

variable {cfg : Config} {hasher : PasswordHash} {db db' : Database} {course course' : ℕ → Moment}
  {http : HttpRequest} {s t : Site} {username password : String}

/-- Every stored hash was made by one of pwdlib's hashers. -/
def Recognised (hasher : PasswordHash) (db : Database) : Prop :=
  ∀ r ∈ db.users, hasher.identifies r.hashedPassword = true

theorem mute_selectUser (cfg : Config) (name : String) : Mute cfg (.selectUser name) := by
  intro w r
  cases r with
  | error f => simp [World.respond, World.statement]
  | ok a =>
    simp only [World.respond, World.statement]
    split <;> rfl

theorem mute_verification (cfg : Config) (password : String) (found : Option UserRecord) :
    Mute cfg (verification cfg password found) := by
  cases found <;> exact fun _ _ => rfl

theorem logged_verification (cfg : Config) (password : String) (found : Option UserRecord) :
    logged (verification cfg password found) = [] := by
  cases found <;> rfl

theorem reply_selectUser (cfg : Config) (hasher : PasswordHash) (course : ℕ → Moment) (s : Site)
    (name : String) :
    (attempting cfg hasher course s (.selectUser name)).1 =
      ((course s.performed).databaseFault.map .error).getD
        (.ok (s.world.db.userByUsername name)) := rfl

variable (hc : ∀ n, (course n).SameConditions (course' n))
  (hdummy : hasher.identifies cfg.dummyPasswordHash = true)

include hc hdummy in
/-- The verifications after two lookups, neither of which lets anybody in. -/
theorem verifyFound_alike {found found' : Option UserRecord} (h : SitesAlike db db' s t)
    (hfound : ∀ r, found = some r → hasher.identifies r.hashedPassword = true)
    (hfound' : ∀ r, found' = some r → hasher.identifies r.hashedPassword = true)
    (hnot : ∀ r, found = some r → r.isActive = true →
      hasher.accepts password r.hashedPassword = true → (course s.performed).threadFault ≠ none)
    (hnot' : ∀ r, found' = some r → r.isActive = true →
      hasher.accepts password r.hashedPassword = true →
        (course' t.performed).threadFault ≠ none) :
    let e := (verifyFound cfg password (found.map recordToStoredUser)).exec
      (attempting cfg hasher course) s
    let e' := (verifyFound cfg password (found'.map recordToStoredUser)).exec
      (attempting cfg hasher course') t
    ∃ x, e.outcome = .error x ∧ e'.outcome = .error x ∧ SitesAlike db db' e.state e'.state := by
  obtain ⟨houtcome, hstate⟩ := verifyFound_fails hdummy hfound hnot
  obtain ⟨houtcome', hstate'⟩ := verifyFound_fails hdummy hfound' hnot'
  have hfault : (course s.performed).threadFault = (course' t.performed).threadFault := by
    rw [h.performed]
    exact (hc t.performed).threadFault
  refine ⟨_, houtcome, ?_, ?_⟩
  · rw [houtcome', hfault]
  · rw [hstate, hstate']
    exact h.step_mute hasher course course' (mute_verification cfg password found)
      (mute_verification cfg password found') (by rw [logged_verification, logged_verification])

include hc hdummy in
/-- Attempts that do not authenticate raise the same exception against both tables. -/
theorem authenticateUser_alike (hdb : Recognised hasher db) (hdb' : Recognised hasher db')
    (h : SitesAlike db db' s t) :
    let e := (AuthenticationService.authenticateUser cfg username password).exec
      (attempting cfg hasher course) s
    let e' := (AuthenticationService.authenticateUser cfg username password).exec
      (attempting cfg hasher course') t
    Unauthenticated e.history → Unauthenticated e'.history →
      ∃ x, e.outcome = .error x ∧ e'.outcome = .error x ∧ SitesAlike db db' e.state e'.state := by
  intro e e' hquiet hquiet'
  cases hname : Auth.normalizeUsername cfg.unicode username with
  | error x =>
    simp only [e, e', authenticateUser_invalid hname]
    exact verifyFound_alike hc hdummy h (by simp) (by simp) (by simp) (by simp)
  | ok name =>
    have hselected := h.step_mute hasher course course' (mute_selectUser cfg name)
      (mute_selectUser cfg name) rfl
    have hfault : (course s.performed).databaseFault = (course' t.performed).databaseFault := by
      rw [h.performed]
      exact (hc t.performed).databaseFault
    have hreply := reply_selectUser cfg hasher course s name
    have hreply' := reply_selectUser cfg hasher course' t name
    rw [← hfault] at hreply'
    cases hf : (course s.performed).databaseFault with
    | some f =>
      rw [hf] at hreply hreply'
      simp only [e, e', authenticateUser_unavailable hname hreply,
        authenticateUser_unavailable hname hreply']
      exact ⟨_, rfl, rfl, hselected⟩
    | none =>
      rw [hf] at hreply hreply'
      have hfound : ∀ r, s.world.db.userByUsername name = some r →
          hasher.identifies r.hashedPassword = true := by
        rw [h.worlds.left]
        exact fun r hr => hdb r (List.mem_of_find?_eq_some hr)
      have hfound' : ∀ r, t.world.db.userByUsername name = some r →
          hasher.identifies r.hashedPassword = true := by
        rw [h.worlds.right]
        exact fun r hr => hdb' r (List.mem_of_find?_eq_some hr)
      simp only [e, authenticateUser_found hname hreply] at hquiet
      simp only [e', authenticateUser_found hname hreply'] at hquiet'
      simp only [e, e', authenticateUser_found hname hreply, authenticateUser_found hname hreply']
      exact verifyFound_alike hc hdummy hselected hfound hfound'
        (not_accepted_of_quiet hfound hquiet) (not_accepted_of_quiet hfound' hquiet')

include hc hdummy in
theorem alike_authenticated (ipDecision : RateLimit.RateLimitDecision)
    (hdb : Recognised hasher db) (hdb' : Recognised hasher db') (h : SitesAlike db db' s t) :
    RunAlike cfg hasher db db' course course' s t
      (authenticated cfg http username password ipDecision)
      (authenticated cfg http username password ipDecision) := by
  refine Lockstep.tryCatch quiet_splits ?_ ?_
  · -- No token is made: the first part of the `try` raises.
    intro hquiet hquiet'
    rw [AuthenticationService.authenticateAndCreateResult] at hquiet hquiet' ⊢
    obtain ⟨x, hx, hx', hstate⟩ := authenticateUser_alike hc hdummy hdb hdb' h
      (quiet_of_bind quiet_splits hquiet) (quiet_of_bind quiet_splits hquiet')
    rw [Prog.exec_bind_error hx, Prog.exec_bind_error hx']
    exact ⟨rfl, hstate⟩
  · intro x s t h
    split
    · exact alike_record_throw hc _ _ h
    · exact alike_loginFailed hc username ipDecision h
    · exact Lockstep.finish _ h

include hc hdummy in
/-- One attempt of `issue_access_token` against each table. -/
theorem alike_issueAccessToken (http : HttpRequest) (username password : String)
    (hdb : Recognised hasher db) (hdb' : Recognised hasher db') (h : SitesAlike db db' s t) :
    RunAlike cfg hasher db db' course course' s t (issueAccessToken cfg http username password)
      (issueAccessToken cfg http username password) := by
  rw [issueAccessToken]
  refine Lockstep.bind quiet_splits (alike_enforceLoginIpRateLimit hc h) fun ip s t _ h => ?_
  refine Lockstep.bind quiet_splits
    (Lockstep.tryCatch quiet_splits (alike_checkLock hc _ _ h) ?_) ?_
  · intro x s t h
    split
    · exact alike_record_throw hc _ _ h
    · exact Lockstep.finish _ h
  intro decision s t _ h
  split
  · exact alike_record_throw hc _ _ h
  refine Lockstep.bind quiet_splits (alike_authenticated hc hdummy ip hdb hdb' h)
    fun result s t _ h => ?_
  refine Lockstep.bind quiet_splits
    (Lockstep.tryCatch quiet_splits (alike_reset hc _ _ h) ?_) ?_
  · intro x s t h
    split
    · exact alike_record_throw hc _ _ h
    · exact Lockstep.finish _ h
  intro _ s t _ h
  exact Lockstep.bind quiet_splits (alike_record hc _ h) fun _ s t _ h => Lockstep.finish _ h

end Authentication

section Sessions

/-- A `POST /auth/token` and what its operations meet, one after the other. -/
structure Attempt where
  http : HttpRequest
  username : String
  password : String
  course : ℕ → Moment

/-- The same request under the same conditions. -/
structure Attempt.Same (a a' : Attempt) : Prop where
  http : a.http = a'.http
  username : a.username = a'.username
  password : a.password = a'.password
  conditions : ∀ n, (a.course n).SameConditions (a'.course n)

def Attempt.exec (cfg : Config) (hasher : PasswordHash) (a : Attempt) (s : Site) :
    Execution gateway Raised ApiResponse Site :=
  (issueAccessToken cfg a.http a.username a.password).exec (attempting cfg hasher a.course)
    { s with performed := 0 }

/-- Attempts one after the other. -/
def session (cfg : Config) (hasher : PasswordHash) : Site → List Attempt →
    List (Execution gateway Raised ApiResponse Site)
  | _, [] => []
  | s, a :: rest =>
    let e := a.exec cfg hasher s
    e :: session cfg hasher e.state rest

/-- The responses agree, and so do the limits, the login states and what was audited, up to the
identifiers and times of events. -/
structure Indistinguishable (e e' : Execution gateway Raised ApiResponse Site) : Prop where
  response : e.outcome = e'.outcome
  buckets : e.state.world.buckets = e'.state.world.buckets
  logins : e.state.world.logins = e'.state.world.logins
  auditEvents : e.state.world.auditEvents.map content = e'.state.world.auditEvents.map content
  log : e.state.log.map content = e'.state.log.map content

variable {cfg : Config} {hasher : PasswordHash} {db db' : Database}

theorem session_alike (hdummy : hasher.identifies cfg.dummyPasswordHash = true)
    (hdb : Recognised hasher db) (hdb' : Recognised hasher db') {s t : Site}
    {as as' : List Attempt} (hsame : List.Forall₂ Attempt.Same as as')
    (h : SitesAlike db db' s t)
    (hfail : ∀ e ∈ session cfg hasher s as, ¬ Authenticates e.history)
    (hfail' : ∀ e ∈ session cfg hasher t as', ¬ Authenticates e.history) :
    List.Forall₂ Indistinguishable (session cfg hasher s as) (session cfg hasher t as') := by
  induction hsame generalizing s t with
  | nil => exact .nil
  | @cons a a' as as' ha _ ih =>
    obtain ⟨http, username, password, course⟩ := a
    obtain ⟨http', username', password', course'⟩ := a'
    obtain ⟨rfl, rfl, rfl, hc⟩ := ha
    have hstart : SitesAlike db db' { s with performed := 0 } { t with performed := 0 } :=
      ⟨h.worlds, rfl, h.log⟩
    obtain ⟨houtcome, hnext⟩ := alike_issueAccessToken hc hdummy http username password hdb hdb'
      hstart (hfail _ List.mem_cons_self) (hfail' _ List.mem_cons_self)
    refine .cons ⟨houtcome, hnext.worlds.buckets, hnext.worlds.logins, hnext.worlds.auditEvents,
      hnext.log⟩ ?_
    refine ih hnext ?_ ?_
    · exact fun e he => hfail e (List.mem_cons_of_mem _ he)
    · exact fun e he => hfail' e (List.mem_cons_of_mem _ he)

end Sessions

section Deployment

def isAcceptance : Exchange gateway → Bool
  | ⟨.verifyAndUpdatePassword _ _, .ok (true, _)⟩ => true
  | _ => false

theorem not_authenticates {h : History gateway} (hnone : h.any isAcceptance = false) :
    ¬ Authenticates h := by
  rintro ⟨name, r, password, update, -, -, hverify⟩
  have := List.any_eq_false.mp hnone _ hverify
  exact this rfl

/-- pwdlib with alice's password. -/
def aliceHasher : PasswordHash where
  identifies hash := hash = "$argon2id$alice" || hash = "$argon2id$dummy"
  accepts password hash := password = "correct horse battery" && hash = "$argon2id$alice"
  replacement _ _ := none

/-- Everything works; the clock stands, and `id` is drawn. -/
def calm (id : Uuid) (_ : ℕ) : Moment :=
  ⟨0, { outsideWorks false with uuid := id }, none, none, none⟩

def guess (id : Uuid) (username password : String) : Attempt :=
  ⟨localRequest "POST" none, username, password, calm id⟩

def withAlice : Site := ⟨{ migratedWorld with db := Migration.upgrade [alice] }, 0, []⟩

def withoutAlice : Site := ⟨{ migratedWorld with db := Migration.upgrade [] }, 0, []⟩

end Deployment

end SecureGateway.Gateway
