import SecureGateway.Audit.Events
import SecureGateway.Auth.Tokens
import SecureGateway.Foundation.JsonText
import SecureGateway.Python.Datetime

/-!
# The lines of the logs

The formatters of `gateway/app/audit/logging.py` and `gateway/app/observability/logging.py`, and
what the gateway writes through them. Each record is one line, whatever stands in it, and the
lines tell what was reported and nothing else.
-/
namespace SecureGateway.Observability

open Audit JsonText

section Formatters

/-- `logging.LogRecord`: its level, its logger, its message without arguments, and the
attributes it was given as `extra`. -/
structure LogRecord where
  levelname : String
  name : String
  message : String
  extra : List (String × Scalar)

def text (s : String) : Scalar := .string s.toList

/-- The approved attributes that the record has, in the order of approval. -/
def LogRecord.approved (record : LogRecord) (fieldNames : List String) : List Member :=
  fieldNames.filterMap fun fieldName =>
    (record.extra.lookup fieldName).map fun value => ⟨fieldName.toList, value⟩

def LogRecord.head (record : LogRecord) : List Member :=
  [⟨"level".toList, text record.levelname⟩, ⟨"logger".toList, text record.name⟩,
    ⟨"message".toList, text record.message⟩]

def auditLogFields : List String :=
  ["event_id", "occurred_at", "event_type", "outcome", "request_id", "actor_user_id",
    "target_user_id", "permission_code", "role_name", "service_name", "method", "status_code",
    "reason_code"]

/-- The payload of `AuditJsonFormatter.format`. -/
def auditPayload (record : LogRecord) : List Member :=
  record.head ++ record.approved auditLogFields

def structuredFields : List String :=
  ["event", "request_id", "method", "route", "status_code", "duration_ms", "dependency",
    "dependency_status"]

/-- The payload of `JsonLogFormatter.format`, which reads the clock. -/
def requestPayload (now : Timestamp) (record : LogRecord) : List Member :=
  ⟨"timestamp".toList, .string (Python.isoformatMs now)⟩ ::
    (record.head ++ record.approved structuredFields)

end Formatters

section Emitters

/-- The entries that are not `None`. -/
def given (values : List (String × Option Scalar)) : List (String × Scalar) :=
  values.filterMap fun entry => entry.2.map fun value => (entry.1, value)

def securityAuditEventToLogFields (event : SecurityAuditEvent) : List (String × Scalar) :=
  [("event_id", text event.eventId.str),
    ("occurred_at", .string (Python.isoformatMs event.occurredAt)),
    ("event_type", text event.eventType.value),
    ("outcome", text event.outcome.value),
    ("request_id", text event.requestId.str)] ++
  given
    [("actor_user_id", event.actorUserId.map fun u => text u.str),
      ("target_user_id", event.targetUserId.map fun u => text u.str),
      ("permission_code", event.permissionCode.map text),
      ("role_name", event.roleName.map text),
      ("service_name", event.serviceName.map text),
      ("method", event.method.map text),
      ("status_code", event.statusCode.map fun c => .number (.ofInt c)),
      ("reason_code", event.reasonCode.map text)]

/-- `emit_security_audit_event`. -/
def securityAuditRecord (event : SecurityAuditEvent) : LogRecord where
  levelname := "INFO"
  name := "gateway.audit"
  message := event.eventType.value
  extra := securityAuditEventToLogFields event

/-- `emit_audit_persistence_failure`. -/
def auditPersistenceRecord (event : SecurityAuditEvent) : LogRecord where
  levelname := "WARNING"
  name := "gateway.audit.persistence"
  message := "audit_persistence_unavailable"
  extra :=
    [("event_id", text event.eventId.str),
      ("event_type", text event.eventType.value),
      ("outcome", text "unavailable"),
      ("request_id", text event.requestId.str),
      ("reason_code", text "audit_persistence_unavailable")]

/-- `emit_request_log`; the duration is the number `round` leaves. -/
def requestRecord (event requestId method route : String) (statusCode : ℤ)
    (durationMs : Number) : LogRecord where
  levelname := "INFO"
  name := "gateway.request"
  message := event
  extra :=
    [("event", text event),
      ("request_id", text requestId),
      ("method", text method),
      ("route", text route),
      ("status_code", .number (.ofInt statusCode)),
      ("duration_ms", .number durationMs)]

def readinessDependencies : List String := ["database", "redis"]

/-- `emit_readiness_dependency_log_best_effort`, for a dependency that has a name of its own. -/
def readinessRecord (requestId dependency : String) : LogRecord where
  levelname := "WARNING"
  name := "gateway.request"
  message := "readiness_dependency_unavailable"
  extra :=
    [("event", text "readiness_dependency_unavailable"),
      ("request_id", text requestId),
      ("method", text "GET"),
      ("route", text "/ready"),
      ("status_code", .number (.ofInt 503)),
      ("dependency", text dependency),
      ("dependency_status", text "unavailable")]

/-- A call of one of the emitters, with the clock as the formatter reads it. -/
inductive Emission where
  | securityAuditEvent (event : SecurityAuditEvent)
  | auditPersistenceFailure (event : SecurityAuditEvent)
  | requestLog (now : Timestamp) (event requestId method route : String) (statusCode : ℤ)
      (durationMs : Number)
  | readinessDependencyLog (now : Timestamp) (requestId dependency : String)

/-- The payloads of the records a call makes, none where the dependency has no fixed name. -/
def Emission.payloads : Emission → List (List Member)
  | .securityAuditEvent event => [auditPayload (securityAuditRecord event)]
  | .auditPersistenceFailure event => [auditPayload (auditPersistenceRecord event)]
  | .requestLog now event requestId method route statusCode durationMs =>
    [requestPayload now (requestRecord event requestId method route statusCode durationMs)]
  | .readinessDependencyLog now requestId dependency =>
    if dependency ∈ readinessDependencies then
      [requestPayload now (readinessRecord requestId dependency)]
    else []

/-- What the stream handlers write: each text and a newline. -/
def stderr (emissions : List Emission) : List Char :=
  emissions.flatMap fun e => e.payloads.flatMap fun payload => dumps payload ++ ['\n']

end Emitters

section Reading

variable {record record' : LogRecord} {fieldNames : List String} {fieldName : String}
  {ms ms' : List Member}

theorem lookup_cons (name : String) (value : Scalar) (ms : List Member) :
    lookup (⟨name.toList, value⟩ :: ms) fieldName.toList =
      if name = fieldName then some value else lookup ms fieldName.toList := by
  unfold lookup
  by_cases h : name = fieldName
  · rw [List.find?_cons_of_pos (by simp [h]), if_pos h]
    rfl
  · rw [List.find?_cons_of_neg (by simpa [String.toList_inj] using h), if_neg h]

/-- An approved attribute is in the text if and only if the record has it. -/
theorem lookup_approved (h : fieldName ∈ fieldNames) :
    lookup (record.approved fieldNames) fieldName.toList = record.extra.lookup fieldName := by
  have hall : lookup (record.approved fieldNames) fieldName.toList =
      if fieldName ∈ fieldNames then record.extra.lookup fieldName else none := by
    clear h
    induction fieldNames with
    | nil => rfl
    | cons name fieldNames ih =>
      unfold LogRecord.approved at ih ⊢
      cases hname : record.extra.lookup name with
      | none =>
        rw [List.filterMap_cons, hname, Option.map_none, ih]
        by_cases he : fieldName = name
        · rw [he, hname]
          simp
        · simp [he]
      | some value =>
        rw [List.filterMap_cons, hname, Option.map_some, lookup_cons, ih]
        by_cases he : name = fieldName
        · rw [if_pos he, ← he, hname, if_pos List.mem_cons_self]
        · simp [he, Ne.symm he]
  rw [hall, if_pos h]

theorem lookup_auditPayload (h : fieldName ∈ auditLogFields) :
    lookup (auditPayload record) fieldName.toList = record.extra.lookup fieldName := by
  have hfree : "level" ≠ fieldName ∧ "logger" ≠ fieldName ∧ "message" ≠ fieldName := by
    refine ⟨?_, ?_, ?_⟩ <;> rintro rfl <;> revert h <;> decide
  rw [auditPayload, LogRecord.head, List.cons_append, List.cons_append, List.cons_append,
    List.nil_append, lookup_cons, if_neg hfree.1, lookup_cons, if_neg hfree.2.1, lookup_cons,
    if_neg hfree.2.2, lookup_approved h]

theorem lookup_requestPayload {now : Timestamp} (h : fieldName ∈ structuredFields) :
    lookup (requestPayload now record) fieldName.toList = record.extra.lookup fieldName := by
  have hfree : "timestamp" ≠ fieldName ∧ "level" ≠ fieldName ∧ "logger" ≠ fieldName ∧
      "message" ≠ fieldName := by
    refine ⟨?_, ?_, ?_, ?_⟩ <;> rintro rfl <;> revert h <;> decide
  rw [requestPayload, LogRecord.head, List.cons_append, List.cons_append, List.cons_append,
    List.nil_append, lookup_cons, if_neg hfree.1, lookup_cons, if_neg hfree.2.1, lookup_cons,
    if_neg hfree.2.2.1, lookup_cons, if_neg hfree.2.2.2, lookup_approved h]

@[simp] theorem given_none (key : String) (values : List (String × Option Scalar)) :
    given ((key, none) :: values) = given values := rfl

@[simp] theorem given_some (key : String) (value : Scalar)
    (values : List (String × Option Scalar)) :
    given ((key, some value) :: values) = (key, value) :: given values := rfl

theorem lookup_given {values : List (String × Option Scalar)} (h : (values.map Prod.fst).Nodup)
    (name : String) : (given values).lookup name = (values.lookup name).join := by
  induction values with
  | nil => rfl
  | cons entry values ih =>
    obtain ⟨key, value⟩ := entry
    obtain ⟨hkey, hrest⟩ := List.nodup_cons.mp h
    have ih := ih hrest
    by_cases hname : name = key
    · have hnone : values.lookup name = none := by
        refine List.lookup_eq_none_iff.mpr fun entry hentry => ?_
        refine bne_iff_ne.mpr fun he => hkey (List.mem_map.mpr ⟨entry, hentry, ?_⟩)
        exact he.symm.trans hname
      have hbeq : (name == key) = true := beq_iff_eq.mpr hname
      cases value with
      | none => rw [given_none, ih, hnone, List.lookup_cons, hbeq]; rfl
      | some value => rw [given_some, List.lookup_cons, List.lookup_cons, hbeq]; rfl
    · have hbeq : (name == key) = false := beq_eq_false_iff_ne.mpr hname
      cases value with
      | none => rw [given_none, ih, List.lookup_cons, hbeq]
      | some value => rw [given_some, List.lookup_cons, List.lookup_cons, hbeq, ih]

end Reading

section Reports

/-- What a line tells. -/
inductive Report where
  | securityAuditEvent (fields : EventFields) (eventId requestId : Uuid) (occurredAtMs : ℤ)
  | auditPersistenceFailure (eventId requestId : Uuid) (eventType : AuditEventType)
  | requestLog (nowMs : ℤ) (event requestId method route : String) (statusCode : ℤ)
      (durationMs : Number)
  | readinessDependencyLog (nowMs : ℤ) (requestId dependency : String)
  deriving DecidableEq

def Emission.reports : Emission → List Report
  | .securityAuditEvent event =>
    [.securityAuditEvent event.toEventFields event.eventId event.requestId
      (event.occurredAt / 1000)]
  | .auditPersistenceFailure event =>
    [.auditPersistenceFailure event.eventId event.requestId event.eventType]
  | .requestLog now event requestId method route statusCode durationMs =>
    [.requestLog (now / 1000) event requestId method route statusCode durationMs]
  | .readinessDependencyLog now requestId dependency =>
    if dependency ∈ readinessDependencies then
      [.readinessDependencyLog (now / 1000) requestId dependency]
    else []

/-- The line of a report, as an emission at the start of its millisecond makes it. -/
def Report.payload : Report → List Member
  | .securityAuditEvent fields eventId requestId occurredAtMs =>
    auditPayload (securityAuditRecord ⟨fields, eventId, occurredAtMs * 1000, requestId⟩)
  | .auditPersistenceFailure eventId requestId eventType =>
    auditPayload (auditPersistenceRecord
      ⟨{ eventType, outcome := .unavailable }, eventId, 0, requestId⟩)
  | .requestLog nowMs event requestId method route statusCode durationMs =>
    requestPayload (nowMs * 1000)
      (requestRecord event requestId method route statusCode durationMs)
  | .readinessDependencyLog nowMs requestId dependency =>
    requestPayload (nowMs * 1000) (readinessRecord requestId dependency)

theorem isoformatMs_start (t : Timestamp) :
    Python.isoformatMs (t / 1000 * 1000) = Python.isoformatMs t :=
  Python.isoformatMs_congr (by omega)

/-- A line depends on nothing but its report. -/
theorem payloads_eq (e : Emission) : e.payloads = e.reports.map Report.payload := by
  cases e with
  | securityAuditEvent event =>
    simp [Emission.payloads, Emission.reports, Report.payload, securityAuditRecord,
      securityAuditEventToLogFields, isoformatMs_start]
  | auditPersistenceFailure event => rfl
  | requestLog now event requestId method route statusCode durationMs =>
    simp [Emission.payloads, Emission.reports, Report.payload, requestPayload, isoformatMs_start]
  | readinessDependencyLog now requestId dependency =>
    by_cases h : dependency ∈ readinessDependencies
    · simp [Emission.payloads, Emission.reports, Report.payload, requestPayload,
        isoformatMs_start, h]
    · simp [Emission.payloads, Emission.reports, h]

section Inversion

variable {record record' : LogRecord} {now : Timestamp} {fieldName : String}

theorem text_inj {s t : String} (h : text s = text t) : s = t :=
  String.toList_inj.mp (Scalar.string.inj h)

theorem text_str_inj {u v : Uuid} (h : text u.str = text v.str) : u = v := by
  have hparse := Uuid.parse_str u
  rw [text_inj h, Uuid.parse_str] at hparse
  exact (Option.some.inj hparse).symm

theorem number_inj {i j : ℤ} (h : Scalar.number (.ofInt i) = .number (.ofInt j)) : i = j :=
  ofInt_inj (Scalar.number.inj h)

theorem eventTypeValue_inj {t t' : AuditEventType} (h : t.value = t'.value) : t = t' := by
  cases t <;> cases t' <;> first | rfl | exact absurd h (by decide)

theorem outcomeValue_inj {o o' : AuditOutcome} (h : o.value = o'.value) : o = o' := by
  cases o <;> cases o' <;> first | rfl | exact absurd h (by decide)

/-- The millisecond of a moment that a `datetime` can hold. -/
def Dated (ms : ℤ) : Prop := earliestTimestamp ≤ ms * 1000 ∧ ms * 1000 ≤ latestTimestamp

theorem isoformat_inj {ms ms' : ℤ} (h : Dated ms) (h' : Dated ms')
    (htext : Scalar.string (Python.isoformatMs (ms * 1000)) =
      .string (Python.isoformatMs (ms' * 1000))) : ms = ms' := by
  have := Python.isoformatMs_inj h.1 h.2 h'.1 h'.2 (Scalar.string.inj htext)
  omega

/-- The moments of a report are ones that a `datetime` can hold. -/
def Report.Dated : Report → Prop
  | .securityAuditEvent _ _ _ occurredAtMs => Observability.Dated occurredAtMs
  | .auditPersistenceFailure _ _ _ => True
  | .requestLog nowMs _ _ _ _ _ _ => Observability.Dated nowMs
  | .readinessDependencyLog nowMs _ _ => Observability.Dated nowMs

/-- The logger and the level of a report's line. -/
def Report.origin : Report → String × String
  | .securityAuditEvent _ _ _ _ => ("gateway.audit", "INFO")
  | .auditPersistenceFailure _ _ _ => ("gateway.audit.persistence", "WARNING")
  | .requestLog _ _ _ _ _ _ _ => ("gateway.request", "INFO")
  | .readinessDependencyLog _ _ _ => ("gateway.request", "WARNING")

theorem lookup_auditHead :
    lookup (auditPayload record) "logger".toList = some (text record.name) ∧
      lookup (auditPayload record) "level".toList = some (text record.levelname) := by
  simp [auditPayload, LogRecord.head, lookup_cons, -String.reduceToList]

theorem lookup_requestHead :
    lookup (requestPayload now record) "logger".toList = some (text record.name) ∧
      lookup (requestPayload now record) "level".toList = some (text record.levelname) := by
  simp [requestPayload, LogRecord.head, lookup_cons, -String.reduceToList]

theorem lookup_origin (r : Report) :
    lookup r.payload "logger".toList = some (text r.origin.1) ∧
      lookup r.payload "level".toList = some (text r.origin.2) := by
  cases r with
  | securityAuditEvent fields eventId requestId ms => exact lookup_auditHead
  | auditPersistenceFailure eventId requestId eventType => exact lookup_auditHead
  | requestLog ms event requestId method route statusCode durationMs => exact lookup_requestHead
  | readinessDependencyLog ms requestId dependency => exact lookup_requestHead

theorem origin_eq {r r' : Report} (h : r.payload = r'.payload) : r.origin = r'.origin := by
  obtain ⟨hlogger, hlevel⟩ := lookup_origin r
  rw [h, (lookup_origin r').1] at hlogger
  rw [h, (lookup_origin r').2] at hlevel
  refine Prod.ext ?_ ?_
  · exact (text_inj (Option.some.inj hlogger)).symm
  · exact (text_inj (Option.some.inj hlevel)).symm

theorem extra_eq (h : auditPayload record = auditPayload record')
    (hname : fieldName ∈ auditLogFields) :
    record.extra.lookup fieldName = record'.extra.lookup fieldName := by
  rw [← lookup_auditPayload hname, h, lookup_auditPayload hname]

theorem requestExtra_eq {now' : Timestamp}
    (h : requestPayload now record = requestPayload now' record')
    (hname : fieldName ∈ structuredFields) :
    record.extra.lookup fieldName = record'.extra.lookup fieldName := by
  have hlookup := congrArg (lookup · fieldName.toList) h
  exact (lookup_requestPayload hname).symm.trans (hlookup.trans (lookup_requestPayload hname))

/-- The attributes of an event, `None` where it has none. -/
def eventValues (event : SecurityAuditEvent) : List (String × Option Scalar) :=
  [("event_id", some (text event.eventId.str)),
    ("occurred_at", some (.string (Python.isoformatMs event.occurredAt))),
    ("event_type", some (text event.eventType.value)),
    ("outcome", some (text event.outcome.value)),
    ("request_id", some (text event.requestId.str)),
    ("actor_user_id", event.actorUserId.map fun u => text u.str),
    ("target_user_id", event.targetUserId.map fun u => text u.str),
    ("permission_code", event.permissionCode.map text),
    ("role_name", event.roleName.map text),
    ("service_name", event.serviceName.map text),
    ("method", event.method.map text),
    ("status_code", event.statusCode.map fun c => .number (.ofInt c)),
    ("reason_code", event.reasonCode.map text)]

theorem logFields_eq (event : SecurityAuditEvent) :
    securityAuditEventToLogFields event = given (eventValues event) := rfl

theorem lookup_logFields (event : SecurityAuditEvent) (name : String) :
    (securityAuditRecord event).extra.lookup name = ((eventValues event).lookup name).join := by
  have hnodup : ((eventValues event).map Prod.fst).Nodup := by
    simp [eventValues]
  exact (congrArg (List.lookup name) (logFields_eq event)).trans (lookup_given hnodup name)

theorem eventFields_ext {f g : EventFields} (htype : f.eventType = g.eventType)
    (houtcome : f.outcome = g.outcome) (hactor : f.actorUserId = g.actorUserId)
    (htarget : f.targetUserId = g.targetUserId) (hpermission : f.permissionCode = g.permissionCode)
    (hrole : f.roleName = g.roleName) (hservice : f.serviceName = g.serviceName)
    (hmethod : f.method = g.method) (hstatus : f.statusCode = g.statusCode)
    (hreason : f.reasonCode = g.reasonCode) : f = g := by
  cases f
  cases g
  simp_all

theorem securityAuditPayload_inj {event event' : SecurityAuditEvent}
    (h : auditPayload (securityAuditRecord event) = auditPayload (securityAuditRecord event')) :
    event.toEventFields = event'.toEventFields ∧ event.eventId = event'.eventId ∧
      event.requestId = event'.requestId ∧
      Python.isoformatMs event.occurredAt = Python.isoformatMs event'.occurredAt := by
  have hvalue {name : String} (hname : name ∈ auditLogFields) :
      ((eventValues event).lookup name).join = ((eventValues event').lookup name).join := by
    rw [← lookup_logFields, ← lookup_logFields, extra_eq h hname]
  have hid : some (text event.eventId.str) = some (text event'.eventId.str) :=
    @hvalue "event_id" (by decide)
  have htime : some (Scalar.string (Python.isoformatMs event.occurredAt)) =
      some (.string (Python.isoformatMs event'.occurredAt)) := @hvalue "occurred_at" (by decide)
  have htype : some (text event.eventType.value) = some (text event'.eventType.value) :=
    @hvalue "event_type" (by decide)
  have houtcome : some (text event.outcome.value) = some (text event'.outcome.value) :=
    @hvalue "outcome" (by decide)
  have hrequest : some (text event.requestId.str) = some (text event'.requestId.str) :=
    @hvalue "request_id" (by decide)
  have hactor : event.actorUserId.map (fun u => text u.str) =
      event'.actorUserId.map fun u => text u.str := @hvalue "actor_user_id" (by decide)
  have htarget : event.targetUserId.map (fun u => text u.str) =
      event'.targetUserId.map fun u => text u.str := @hvalue "target_user_id" (by decide)
  have hpermission : event.permissionCode.map text = event'.permissionCode.map text :=
    @hvalue "permission_code" (by decide)
  have hrole : event.roleName.map text = event'.roleName.map text :=
    @hvalue "role_name" (by decide)
  have hservice : event.serviceName.map text = event'.serviceName.map text :=
    @hvalue "service_name" (by decide)
  have hmethod : event.method.map text = event'.method.map text :=
    @hvalue "method" (by decide)
  have hstatus : event.statusCode.map (fun c => Scalar.number (.ofInt c)) =
      event'.statusCode.map fun c => .number (.ofInt c) := @hvalue "status_code" (by decide)
  have hreason : event.reasonCode.map text = event'.reasonCode.map text :=
    @hvalue "reason_code" (by decide)
  have huuids := Option.map_injective fun _ _ => text_str_inj
  have htexts := Option.map_injective fun _ _ => text_inj
  have hnumbers := Option.map_injective fun _ _ => number_inj
  refine ⟨?_, text_str_inj (Option.some.inj hid), text_str_inj (Option.some.inj hrequest),
    Scalar.string.inj (Option.some.inj htime)⟩
  refine eventFields_ext (eventTypeValue_inj (text_inj (Option.some.inj htype)))
    (outcomeValue_inj (text_inj (Option.some.inj houtcome))) (huuids hactor) (huuids htarget)
    (htexts hpermission) (htexts hrole) (htexts hservice) (htexts hmethod) (hnumbers hstatus)
    (htexts hreason)

theorem auditPersistencePayload_inj {event event' : SecurityAuditEvent}
    (h : auditPayload (auditPersistenceRecord event) =
      auditPayload (auditPersistenceRecord event')) :
    event.eventId = event'.eventId ∧ event.requestId = event'.requestId ∧
      event.eventType = event'.eventType := by
  have hid : some (text event.eventId.str) = some (text event'.eventId.str) :=
    @extra_eq _ _ "event_id" h (by decide)
  have hrequest : some (text event.requestId.str) = some (text event'.requestId.str) :=
    @extra_eq _ _ "request_id" h (by decide)
  have htype : some (text event.eventType.value) = some (text event'.eventType.value) :=
    @extra_eq _ _ "event_type" h (by decide)
  exact ⟨text_str_inj (Option.some.inj hid), text_str_inj (Option.some.inj hrequest),
    eventTypeValue_inj (text_inj (Option.some.inj htype))⟩

theorem timestamp_eq {now now' : Timestamp}
    (h : requestPayload now record = requestPayload now' record') :
    Scalar.string (Python.isoformatMs now) = .string (Python.isoformatMs now') :=
  congrArg Member.value (List.cons.inj h).1

/-- What a report's line tells is that report. -/
theorem payload_inj {r r' : Report} (hr : r.Dated) (hr' : r'.Dated)
    (h : r.payload = r'.payload) : r = r' := by
  have horigin := origin_eq h
  cases r with
  | securityAuditEvent fields eventId requestId ms =>
    cases r' with
    | securityAuditEvent fields' eventId' requestId' ms' =>
      obtain ⟨hfields, hid, hrequest, htime⟩ := securityAuditPayload_inj h
      have hms := isoformat_inj hr hr' (congrArg Scalar.string htime)
      exact congr (congr (congr (congrArg Report.securityAuditEvent hfields) hid) hrequest) hms
    | _ => simp [Report.origin] at horigin
  | auditPersistenceFailure eventId requestId eventType =>
    cases r' with
    | auditPersistenceFailure eventId' requestId' eventType' =>
      obtain ⟨hid, hrequest, htype⟩ := auditPersistencePayload_inj h
      exact congr (congr (congrArg Report.auditPersistenceFailure hid) hrequest) htype
    | _ => simp [Report.origin] at horigin
  | requestLog ms event requestId method route statusCode durationMs =>
    cases r' with
    | requestLog ms' event' requestId' method' route' statusCode' durationMs' =>
      have hms := isoformat_inj hr hr' (timestamp_eq h)
      have hevent : some (text event) = some (text event') :=
        @requestExtra_eq _ _ _ "event" _ h (by decide)
      have hrequest : some (text requestId) = some (text requestId') :=
        @requestExtra_eq _ _ _ "request_id" _ h (by decide)
      have hmethod : some (text method) = some (text method') :=
        @requestExtra_eq _ _ _ "method" _ h (by decide)
      have hroute : some (text route) = some (text route') :=
        @requestExtra_eq _ _ _ "route" _ h (by decide)
      have hstatus : some (Scalar.number (.ofInt statusCode)) =
          some (.number (.ofInt statusCode')) :=
        @requestExtra_eq _ _ _ "status_code" _ h (by decide)
      have hduration : some (Scalar.number durationMs) = some (.number durationMs') :=
        @requestExtra_eq _ _ _ "duration_ms" _ h (by decide)
      rw [hms, text_inj (Option.some.inj hevent), text_inj (Option.some.inj hrequest),
        text_inj (Option.some.inj hmethod), text_inj (Option.some.inj hroute),
        number_inj (Option.some.inj hstatus), Scalar.number.inj (Option.some.inj hduration)]
    | _ => simp [Report.origin] at horigin
  | readinessDependencyLog ms requestId dependency =>
    cases r' with
    | readinessDependencyLog ms' requestId' dependency' =>
      have hms := isoformat_inj hr hr' (timestamp_eq h)
      have hrequest : some (text requestId) = some (text requestId') :=
        @requestExtra_eq _ _ _ "request_id" _ h (by decide)
      have hdependency : some (text dependency) = some (text dependency') :=
        @requestExtra_eq _ _ _ "dependency" _ h (by decide)
      rw [hms, text_inj (Option.some.inj hrequest), text_inj (Option.some.inj hdependency)]
    | _ => simp [Report.origin] at horigin

end Inversion

/-- The stream is one line for each report, in their order. -/
theorem stderr_eq (emissions : List Emission) :
    stderr emissions = writeLines ((emissions.flatMap Emission.reports).map Report.payload) := by
  unfold stderr writeLines
  rw [List.map_flatMap, List.flatMap_assoc]
  simp only [payloads_eq]

/-- The moments of an emission are ones that a `datetime` can hold. -/
def Emission.Dated : Emission → Prop
  | .securityAuditEvent event =>
    earliestTimestamp ≤ event.occurredAt ∧ event.occurredAt ≤ latestTimestamp
  | .auditPersistenceFailure _ => True
  | .requestLog now _ _ _ _ _ _ => earliestTimestamp ≤ now ∧ now ≤ latestTimestamp
  | .readinessDependencyLog now _ _ => earliestTimestamp ≤ now ∧ now ≤ latestTimestamp

theorem dated_ms {t : ℤ} (hlow : -62135596800000000 ≤ t) (hhigh : t ≤ 253402300799999999) :
    Dated (t / 1000) := by
  have hms : -62135596800000000 ≤ t / 1000 * 1000 ∧ t / 1000 * 1000 ≤ 253402300799999999 := by
    omega
  exact hms

theorem dated_reports {e : Emission} (h : e.Dated) : ∀ r ∈ e.reports, r.Dated := by
  intro r hr
  cases e with
  | securityAuditEvent event =>
    rw [List.mem_singleton.mp hr]
    exact dated_ms h.1 h.2
  | auditPersistenceFailure event =>
    rw [List.mem_singleton.mp hr]
    trivial
  | requestLog now event requestId method route statusCode durationMs =>
    rw [List.mem_singleton.mp hr]
    exact dated_ms h.1 h.2
  | readinessDependencyLog now requestId dependency =>
    by_cases hname : dependency ∈ readinessDependencies
    · rw [Emission.reports, if_pos hname] at hr
      rw [List.mem_singleton.mp hr]
      exact dated_ms h.1 h.2
    · rw [Emission.reports, if_neg hname] at hr
      cases hr

theorem payloads_inj {rs rs' : List Report} (hrs : ∀ r ∈ rs, r.Dated)
    (hrs' : ∀ r ∈ rs', r.Dated) (h : rs.map Report.payload = rs'.map Report.payload) :
    rs = rs' := by
  induction rs generalizing rs' with
  | nil => exact (List.map_eq_nil_iff.mp h.symm).symm
  | cons r rs ih =>
    cases rs' with
    | nil => simp at h
    | cons r' rs' =>
      obtain ⟨hhead, htail⟩ := List.cons.inj h
      rw [payload_inj (hrs r (by simp)) (hrs' r' (by simp)) hhead,
        ih (fun x hx => hrs x (by simp [hx])) (fun x hx => hrs' x (by simp [hx])) htail]

/-- The log, whatever texts the requests bring into it: cut at its newlines it is one line for
each report, every line reads back as its fields, and two logs are the same if and only if the
same was reported. -/
theorem logs_faithful {emissions emissions' : List Emission} (h : ∀ e ∈ emissions, e.Dated)
    (h' : ∀ e ∈ emissions', e.Dated) :
    (stderr emissions).splitOn '\n' =
        ((emissions.flatMap Emission.reports).map Report.payload).map dumps ++ [[]] ∧
      readLines (stderr emissions) =
        some ((emissions.flatMap Emission.reports).map Report.payload) ∧
      (stderr emissions = stderr emissions' ↔
        emissions.flatMap Emission.reports = emissions'.flatMap Emission.reports) := by
  have hdated {es : List Emission} (hes : ∀ e ∈ es, e.Dated) :
      ∀ r ∈ es.flatMap Emission.reports, r.Dated := by
    intro r hr
    obtain ⟨e, he, hr⟩ := List.mem_flatMap.mp hr
    exact dated_reports (hes e he) r hr
  refine ⟨?_, ?_, ?_, ?_⟩
  · rw [stderr_eq, splitOn_writeLines]
  · rw [stderr_eq, readLines_writeLines]
  · intro heq
    rw [stderr_eq, stderr_eq] at heq
    exact payloads_inj (hdated h) (hdated h') (writeLines_inj heq)
  · intro heq
    rw [stderr_eq, stderr_eq, heq]

/-- A method that closes its line and opens another is still one report. -/
theorem logs_faithful_forged :
    stderr [.requestLog 0 "request_completed" "id" "GET\"\x7d\n\x7b\"level\":\"INFO" "/ready" 503
        (.ofInt 1)] ≠
      stderr [.requestLog 0 "request_completed" "id" "GET" "/ready" 503 (.ofInt 1),
        .readinessDependencyLog 0 "id" "redis"] := by
  have hone : ∀ e ∈ [Emission.requestLog 0 "request_completed" "id"
      "GET\"\x7d\n\x7b\"level\":\"INFO" "/ready" 503 (.ofInt 1)], e.Dated := by
    simp [Emission.Dated, earliestTimestamp, latestTimestamp]
  have htwo : ∀ e ∈ [Emission.requestLog 0 "request_completed" "id" "GET" "/ready" 503
      (.ofInt 1), .readinessDependencyLog 0 "id" "redis"], e.Dated := by
    simp [Emission.Dated, earliestTimestamp, latestTimestamp]
  intro h
  have hreports := (logs_faithful hone htwo).2.2.mp h
  simp [Emission.reports, readinessDependencies] at hreports

end Reports

end SecureGateway.Observability
