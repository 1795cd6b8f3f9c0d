import SecureGateway.Gateway.Interface

/-! `record_request_security_event` of `gateway/app/audit/dependencies.py`. -/
namespace SecureGateway.Gateway

open Interleaving Audit

/-- The request as the routes read it: what the client sent, the peer's address, and the
correlation identifier that the middleware has drawn for it. -/
structure HttpRequest where
  method : String
  headers : List (String × String)
  clientHost : Option String
  scheme : String
  queryParams : List (String × String)
  requestId : Uuid
  /-- The bearer token found by `OAuth2PasswordBearer`. -/
  bearerToken : Option String

variable (cfg : Config) (http : HttpRequest)

/-- `create_security_audit_event`. -/
def createSecurityAuditEvent (fields : EventFields) : Action SecurityAuditEvent := do
  let eventId ← invoke .uuid4
  let occurredAt ← invoke .utcNow
  Prog.liftExcept <| SecurityAuditEvent.postInit
    { fields with
      method := fields.method.map cfg.unicode.upper
      eventId
      occurredAt
      requestId := http.requestId }

/-- `record_security_event_best_effort` around `AuditService.record`: the event is logged
first, and only a back-end error of the append is swallowed. Without a service it is logged
only. -/
def recordSecurityEventBestEffort (event : SecurityAuditEvent) : Action Unit := do
  let _ ← invoke (.emitSecurityAuditEvent event)
  if cfg.auditConfigured then do
    let appended ← invoke (.appendEvent event)
    match appended with
    | .ok _ => pure ()
    | .error (.fault f _) => throw f.raised
    | .error _ => invoke (.emitAuditPersistenceFailure event)
  else pure ()

def recordRequestSecurityEvent (fields : EventFields) : Action Unit := do
  let event ← createSecurityAuditEvent cfg http fields
  let _ ← invoke (.metric (.securityEvent event.eventType event.outcome))
  recordSecurityEventBestEffort cfg event

end SecureGateway.Gateway
