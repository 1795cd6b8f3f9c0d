import SecureGateway.Foundation.Traces
import SecureGateway.Gateway.AuditedRejection
import SecureGateway.Gateway.Effects

/-!
# What handlers tell of their decisions

Every event is counted, then logged, then stored, and a store that refuses it is logged as
well. What a part of a handler has recorded when it ends is compared with how it ends.
-/
namespace SecureGateway.Gateway

open Interleaving Audit

/-- What there is to see of the recording of events. -/
inductive AuditMark where
  | counted (eventType : AuditEventType) (outcome : AuditOutcome)
  | logged (e : SecurityAuditEvent)
  | appended (e : SecurityAuditEvent) (r : Except DbFault Unit)
  | failureLogged (e : SecurityAuditEvent)

def auditMarks : Exchange gateway → List AuditMark
  | ⟨.metric (.securityEvent eventType outcome), _⟩ => [.counted eventType outcome]
  | ⟨.emitSecurityAuditEvent e, _⟩ => [.logged e]
  | ⟨.appendEvent e, r⟩ => [.appended e r]
  | ⟨.emitAuditPersistenceFailure e, _⟩ => [.failureLogged e]
  | _ => []

/-- The rows that an exchange adds to the audit table. -/
def auditRows : Exchange gateway → List SecurityAuditEvent
  | ⟨.appendEvent e, r⟩ => if takenEffect r then [e] else []
  | _ => []

/-- An event of a request, with the reply to its append. -/
structure AuditRecord (http : HttpRequest) where
  event : SecurityAuditEvent
  reply : Except DbFault Unit
  accepted : event.postInit = .ok event
  correlated : event.requestId = http.requestId

namespace AuditRecord

variable {http : HttpRequest} (cfg : Config) (record : AuditRecord http)

/-- A back-end error of the append: the one kind that is swallowed. -/
def contained : Bool :=
  match record.reply with
  | .ok _ | .error (.fault _ _) => false
  | .error _ => true

/-- What the recording of one event leaves. Without an audit service nothing is stored. -/
def marks : List AuditMark :=
  [.counted record.event.eventType record.event.outcome, .logged record.event] ++
    if cfg.auditConfigured then
      .appended record.event record.reply ::
        if record.contained then [.failureLogged record.event] else []
    else []

/-- The row of the event in the audit table. -/
def row : Option SecurityAuditEvent :=
  if cfg.auditConfigured && takenEffect record.reply then some record.event else none

end AuditRecord

/-- The outcome of an event that goes with the status of a refusal. -/
def refusalOutcome (statusCode : ℤ) : AuditOutcome :=
  if statusCode = 503 then .unavailable else if statusCode = 401 then .failure else .denied

section Accounts

variable {http : HttpRequest} {α : Type}

/-- The last record is the refusal with this status; a failed login may stand before it. -/
def Refused (records : List (AuditRecord http)) (statusCode : ℤ) : Prop :=
  ∃ earlier r, records = earlier ++ [r] ∧
    (∀ r' ∈ earlier, r'.event.eventType = .loginFailed) ∧
    r.event.statusCode = some statusCode ∧ r.event.outcome = refusalOutcome statusCode

/-- What is recorded accounts for the outcome. An answer with a status that needs no audit may
be given without any record; exceptions that are no answer come after anything. -/
def Accounted (must : ℤ → Prop) (succeeded : α → List (AuditRecord http) → Prop)
    (records : List (AuditRecord http)) : Except Raised α → Prop
  | .ok a => succeeded a records
  | .error (.http x) =>
    Refused records x.statusCode ∨ records = [] ∧ ¬ must x.statusCode
  | .error _ => True

/-- The exception is no answer to the client. -/
def Unanswered (x : Raised) : Prop := ∀ y, x ≠ .http y

/-- The exception is no answer that must be audited. -/
def Unaudited (must : ℤ → Prop) (x : Raised) : Prop := ∀ y, x = .http y → ¬ must y.statusCode

variable {must : ℤ → Prop} {succeeded : α → List (AuditRecord http) → Prop}
  {records : List (AuditRecord http)} {x : Raised}

theorem Unanswered.unaudited (h : Unanswered x) : Unaudited must x := by
  intro y hy
  exact (h y hy).elim

theorem accounted_unanswered (h : Unanswered x) : Accounted must succeeded records (.error x) := by
  cases x with
  | http y => exact (h y rfl).elim
  | _ => trivial

theorem accounted_unaudited (h : Unaudited must x) : Accounted must succeeded [] (.error x) := by
  cases x with
  | http y => exact Or.inr ⟨rfl, h y rfl⟩
  | _ => trivial

theorem unanswered_raised (f : Fault) : Unanswered f.raised := by
  intro y hy
  cases f with
  | cancelled => cases hy
  | other className => cases hy

end Accounts

/-- A part of a handler that records nothing. -/
abbrev Unmarked {α : Type} (P : Raised → Prop) (p : Action α) : Prop := p.Silent auditMarks P

/-- A part of a handler that has recorded `before`. -/
abbrev Records {α : Type} (cfg : Config) {http : HttpRequest} (before : List (AuditRecord http))
    (Q : List (AuditRecord http) → Except Raised α → Prop) (p : Action α) : Prop :=
  p.Tells auditMarks (AuditRecord.marks cfg) before Q

/-- A part that starts the records of its request: they account for its outcome. -/
abbrev Accounts {α : Type} (cfg : Config) (http : HttpRequest) (must : ℤ → Prop)
    (succeeded : α → List (AuditRecord http) → Prop) (p : Action α) : Prop :=
  Records cfg [] (Accounted must succeeded) p

section Recording

variable {cfg : Config} {http : HttpRequest} {α : Type} {fields : EventFields}

theorem validateOptionalCode_cases (name : String) (value : Option String) (maxLength : ℕ) :
    validateOptionalCode name value maxLength = .ok () ∨
      ∃ message, validateOptionalCode name value maxLength = .error (.valueError message) := by
  cases value with
  | none => exact Or.inl rfl
  | some v =>
    rw [validateOptionalCode]
    split
    · exact Or.inr ⟨_, rfl⟩
    · exact Or.inl rfl

/-- An event is taken as it is, or refused with a `ValueError`. -/
theorem postInit_cases (e : SecurityAuditEvent) :
    e.postInit = .ok e ∨ ∃ message, e.postInit = .error (.valueError message) := by
  rw [SecurityAuditEvent.postInit]
  by_cases hstatus : (e.statusCode.all fun c => 100 ≤ c ∧ c ≤ 599) = true
  · rw [if_pos hstatus]
    rcases validateOptionalCode_cases "permission_code" e.permissionCode 160 with h | ⟨m, h⟩
    · rcases validateOptionalCode_cases "role_name" e.roleName 160 with h' | ⟨m, h'⟩
      · rcases validateOptionalCode_cases "service_name" e.serviceName 160 with h'' | ⟨m, h''⟩
        · rcases validateOptionalCode_cases "method" e.method 16 with h₃ | ⟨m, h₃⟩
          · rcases validateOptionalCode_cases "reason_code" e.reasonCode 160 with h₄ | ⟨m, h₄⟩
            · rw [h, h', h'', h₃, h₄]
              exact Or.inl rfl
            · rw [h, h', h'', h₃, h₄]
              exact Or.inr ⟨m, rfl⟩
          · rw [h, h', h'', h₃]
            exact Or.inr ⟨m, rfl⟩
        · rw [h, h', h'']
          exact Or.inr ⟨m, rfl⟩
      · rw [h, h']
        exact Or.inr ⟨m, rfl⟩
    · rw [h]
      exact Or.inr ⟨m, rfl⟩
  · rw [if_neg hstatus]
    exact Or.inr ⟨_, rfl⟩

/-- The record of an event with these fields. -/
def Describes (cfg : Config) (fields : EventFields) {http : HttpRequest}
    (record : AuditRecord http) : Prop :=
  record.event.toEventFields = { fields with method := fields.method.map cfg.unicode.upper }

/-- An accepted event is recorded as one, whatever its append is answered. -/
theorem records_accepted {before : List (AuditRecord http)} {event : SecurityAuditEvent}
    {Q : List (AuditRecord http) → Except Raised Unit → Prop}
    (haccepted : event.postInit = .ok event) (hcorrelated : event.requestId = http.requestId)
    (hraised : ∀ records x, Unanswered x → Q records (.error x))
    (hok : ∀ r, Q (before ++ [⟨event, r, haccepted, hcorrelated⟩]) (.ok ())) :
    Records cfg before Q (invoke (.metric (.securityEvent event.eventType event.outcome)) >>=
      fun _ => recordSecurityEventBestEffort cfg event) := by
  rw [recordSecurityEventBestEffort_eq]
  intro _ _
  cases haudit : cfg.auditConfigured with
  | false =>
    refine ⟨[⟨event, .ok (), haccepted, hcorrelated⟩], ?_, hok _⟩
    simp [auditMarks, AuditRecord.marks, haudit]
  | true =>
    intro r
    have hswallowed : ∀ f,
        (AuditRecord.mk event (.error f) haccepted hcorrelated).contained = true →
        ∃ told : List (AuditRecord http),
          [.counted event.eventType event.outcome, .logged event, .appended event (.error f),
            .failureLogged event] = told.flatMap (AuditRecord.marks cfg) ∧
          Q (before ++ told) (.ok ()) := by
      intro f hf
      refine ⟨[⟨event, .error f, haccepted, hcorrelated⟩], ?_, hok _⟩
      simp [AuditRecord.marks, haudit, hf]
    match r with
    | .ok _ =>
      refine ⟨[⟨event, .ok (), haccepted, hcorrelated⟩], ?_, hok _⟩
      simp [auditMarks, AuditRecord.marks, AuditRecord.contained, haudit]
    | .error (.fault f committed) =>
      refine ⟨[⟨event, .error (.fault f committed), haccepted, hcorrelated⟩], ?_, ?_⟩
      · simp [auditMarks, AuditRecord.marks, AuditRecord.contained, haudit]
      · exact hraised _ _ (unanswered_raised f)
    | .error .uniqueViolation | .error .integrityError | .error (.sqlalchemyError _)
    | .error (.osError _) =>
      exact fun _ => hswallowed _ rfl

/-- One event more has been recorded, unless the record itself ends the request. -/
theorem records_event {before : List (AuditRecord http)}
    {Q : List (AuditRecord http) → Except Raised Unit → Prop}
    (hraised : ∀ records x, Unanswered x → Q records (.error x))
    (hok : ∀ record, Describes cfg fields record → Q (before ++ [record]) (.ok ())) :
    Records cfg before Q (recordRequestSecurityEvent cfg http fields) := by
  refine Prog.tells_bind (F := fun told outcome => told = before ∧
      (∀ event, outcome = .ok event → event.postInit = .ok event ∧
        event.requestId = http.requestId ∧
        event.toEventFields = { fields with method := fields.method.map cfg.unicode.upper }) ∧
      ∀ x, outcome = .error x → Unanswered x) ?_ ?_ ?_
  · refine Prog.tells_call_bind (fun _ => rfl) fun eventId => ?_
    refine Prog.tells_call_bind (fun _ => rfl) fun occurredAt => ?_
    let event : SecurityAuditEvent :=
      { fields with
        method := fields.method.map cfg.unicode.upper
        eventId
        occurredAt
        requestId := http.requestId }
    change Prog.Tells _ _ _ _ (.finish event.postInit)
    refine Prog.tells_finish ⟨rfl, fun e he => ?_, fun x hx => ?_⟩
    · rcases postInit_cases event with haccepted | ⟨message, hrefused⟩
      · rw [haccepted] at he
        cases he
        exact ⟨haccepted, rfl, rfl⟩
      · rw [hrefused] at he
        cases he
    · rcases postInit_cases event with haccepted | ⟨message, hrefused⟩
      · rw [haccepted] at hx
        cases hx
      · rw [hrefused] at hx
        cases hx
        rintro y ⟨⟩
  · rintro told event ⟨rfl, hevent, -⟩
    obtain ⟨haccepted, hcorrelated, hfields⟩ := hevent event rfl
    exact records_accepted haccepted hcorrelated hraised fun r => hok _ hfields
  · rintro told x ⟨-, -, hx⟩
    exact hraised _ _ (hx x rfl)

end Recording

section Accounting

variable {cfg : Config} {http : HttpRequest} {α β : Type} {fields : EventFields} {must : ℤ → Prop}
  {succeeded : α → List (AuditRecord http) → Prop} {earlier : List (AuditRecord http)}

/-- Nothing more has been recorded. -/
def Kept (earlier : List (AuditRecord http)) (_ : α) (records : List (AuditRecord http)) : Prop :=
  records = earlier

theorem Accounted.error {before : β → List (AuditRecord http) → Prop}
    {records : List (AuditRecord http)} {x : Raised}
    (h : Accounted must before records (.error x)) :
    Accounted must succeeded records (.error x) := by
  cases x with
  | http y => exact h
  | _ => trivial

theorem records_unmarked {p : Action α} (hp : Unmarked (Unaudited must) p) :
    Accounts cfg http must (Kept []) p := by
  refine hp.tells (fun a => rfl) fun x hx => ?_
  exact accounted_unaudited hx

theorem records_then {p : Action β} {f : β → Action α}
    (hp : Records cfg earlier (Accounted must (Kept earlier)) p)
    (hf : ∀ b, Records cfg earlier (Accounted must succeeded) (f b)) :
    Records cfg earlier (Accounted must succeeded) (p >>= f) := by
  refine Prog.tells_bind hp (fun told b htold => ?_) fun told x hx => hx.error
  cases htold
  exact hf b

/-- A refusal is recorded before it is raised. -/
theorem records_refused {y : HTTPException}
    (hearlier : ∀ r ∈ earlier, r.event.eventType = .loginFailed)
    (hstatus : fields.statusCode = some y.statusCode)
    (houtcome : fields.outcome = refusalOutcome y.statusCode) :
    Records cfg earlier (Accounted must succeeded)
      (recordRequestSecurityEvent cfg http fields >>= fun _ => (throw (.http y) : Action α)) := by
  refine Prog.tells_bind (F := Accounted must fun _ records =>
    ∃ record, records = earlier ++ [record] ∧ Describes cfg fields record) ?_ ?_ ?_
  · refine records_event (fun records x hx => accounted_unanswered hx) fun record hrecord => ?_
    exact ⟨record, rfl, hrecord⟩
  · rintro told _ ⟨record, rfl, hrecord⟩
    refine Prog.tells_finish (Or.inl ⟨earlier, record, rfl, hearlier, ?_, ?_⟩)
    · exact (congrArg EventFields.statusCode hrecord).trans hstatus
    · exact (congrArg EventFields.outcome hrecord).trans houtcome
  · exact fun told x hx => hx.error

/-- What a route has done is recorded before it is returned. -/
theorem records_completed {a : α} (hok : ∀ record : AuditRecord http,
      Describes cfg fields record → succeeded a [record]) :
    Accounts cfg http must succeeded
      (recordRequestSecurityEvent cfg http fields >>= fun _ => (pure a : Action α)) := by
  refine Prog.tells_bind (F := Accounted must fun _ records =>
    ∃ record, records = [record] ∧ Describes cfg fields record) ?_ ?_ ?_
  · refine records_event (fun records x hx => accounted_unanswered hx) fun record hrecord => ?_
    exact ⟨record, rfl, hrecord⟩
  · rintro told _ ⟨record, rfl, hrecord⟩
    exact Prog.tells_finish (hok record hrecord)
  · exact fun told x hx => hx.error

theorem records_rethrown {x : Raised} (hx : Unanswered x) :
    Records cfg earlier (Accounted must succeeded) (throw x : Action α) :=
  Prog.tells_finish (accounted_unanswered hx)

end Accounting

end SecureGateway.Gateway
