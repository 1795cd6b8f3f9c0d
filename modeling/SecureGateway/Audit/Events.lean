import SecureGateway.Auth.Users

/-! The audit events of `gateway/app/audit/models.py` and their validation. -/
namespace SecureGateway.Audit

inductive AuditEventType where
  | userRegistered
  | loginSucceeded
  | loginFailed
  | accountLocked
  | authenticationBackendUnavailable
  | authorizationDenied
  | authorizationBackendUnavailable
  | roleListRead
  | roleAssigned
  | roleRemoved
  | rateLimitRejected
  | rateLimitBackendUnavailable
  deriving DecidableEq, Repr

inductive AuditOutcome where
  | success
  | failure
  | denied
  | unavailable
  deriving DecidableEq, Repr

def AuditEventType.value : AuditEventType → String
  | .userRegistered => "user_registered"
  | .loginSucceeded => "login_succeeded"
  | .loginFailed => "login_failed"
  | .accountLocked => "account_locked"
  | .authenticationBackendUnavailable => "authentication_backend_unavailable"
  | .authorizationDenied => "authorization_denied"
  | .authorizationBackendUnavailable => "authorization_backend_unavailable"
  | .roleListRead => "role_list_read"
  | .roleAssigned => "role_assigned"
  | .roleRemoved => "role_removed"
  | .rateLimitRejected => "rate_limit_rejected"
  | .rateLimitBackendUnavailable => "rate_limit_backend_unavailable"

def AuditOutcome.value : AuditOutcome → String
  | .success => "success"
  | .failure => "failure"
  | .denied => "denied"
  | .unavailable => "unavailable"

/-- The arguments of `record_request_security_event`; a field that is not given is `None`. -/
structure EventFields where
  eventType : AuditEventType
  outcome : AuditOutcome
  actorUserId : Option Uuid := none
  targetUserId : Option Uuid := none
  permissionCode : Option String := none
  roleName : Option String := none
  serviceName : Option String := none
  method : Option String := none
  statusCode : Option ℤ := none
  reasonCode : Option String := none
  deriving DecidableEq

structure SecurityAuditEvent extends EventFields where
  eventId : Uuid
  occurredAt : Timestamp
  requestId : Uuid
  deriving DecidableEq

/-- `_validate_optional_code`. -/
def validateOptionalCode (name : String) (value : Option String) (maxLength : ℕ) :
    Except Raised Unit :=
  match value with
  | none => .ok ()
  | some v =>
    if v = "" ∨ v ≠ Python.strip v ∨ v.length > maxLength then
      .error (.valueError s!"{name} has an invalid value.")
    else .ok ()

/-- `SecurityAuditEvent.__post_init__`; every event here has an aware timestamp. -/
def SecurityAuditEvent.postInit (e : SecurityAuditEvent) : Except Raised SecurityAuditEvent := do
  if e.statusCode.all fun c => 100 ≤ c ∧ c ≤ 599 then pure ()
    else .error (.valueError "status_code must be between 100 and 599.")
  validateOptionalCode "permission_code" e.permissionCode 160
  validateOptionalCode "role_name" e.roleName 160
  validateOptionalCode "service_name" e.serviceName 160
  validateOptionalCode "method" e.method 16
  validateOptionalCode "reason_code" e.reasonCode 160
  return e

end SecureGateway.Audit
