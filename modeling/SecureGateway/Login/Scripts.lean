import SecureGateway.Foundation.Expiry
import SecureGateway.Foundation.Timed
import SecureGateway.RateLimit.Policy

/-!
# The login-protection scripts

The policy and the three Lua scripts of `gateway/app/rate_limit/login.py` and
`login_scripts.py`, over one Redis key. Both periods of a policy are at most one day, so a
PEXPIRE of these scripts never leaves the server's range.
-/
namespace SecureGateway.Login

/-- The accepted policies: what `__post_init__` lets through. -/
structure LoginProtectionPolicy where
  name : String
  failureThreshold : ℤ
  failureWindowSeconds : ℤ
  lockoutSeconds : ℤ
  name_matches : RateLimit.policyNameMatches name = true
  failureThreshold_range : 1 ≤ failureThreshold ∧ failureThreshold ≤ 100
  failureWindow_range : 1 ≤ failureWindowSeconds ∧ failureWindowSeconds ≤ 86400
  lockout_range : 1 ≤ lockoutSeconds ∧ lockoutSeconds ≤ 86400

namespace LoginProtectionPolicy

/-- `_validate_integer`. -/
def validateInteger (name : String) (value minimum maximum : ℤ) :
    Except String { v : ℤ // minimum ≤ v ∧ v ≤ maximum } :=
  if h : value < minimum ∨ value > maximum then
    .error s!"{name} must be an integer between {minimum} and {maximum}."
  else .ok ⟨value, by omega⟩

/-- `LoginProtectionPolicy(...)`: the checks in the order of `__post_init__`. -/
def create (name : String) (failureThreshold failureWindowSeconds lockoutSeconds : ℤ) :
    Except String LoginProtectionPolicy :=
  if Python.strip name ≠ name then
    .error "Policy name must not contain leading or trailing whitespace."
  else if hn : RateLimit.policyNameMatches name = true then do
    let threshold ← validateInteger "failure_threshold" failureThreshold 1 100
    let window ← validateInteger "failure_window_seconds" failureWindowSeconds 1 86400
    let lockout ← validateInteger "lockout_seconds" lockoutSeconds 1 86400
    return ⟨name, threshold, window, lockout, hn, threshold.2, window.2, lockout.2⟩
  else
    .error "Policy name must contain 1 to 64 lowercase letters, numbers, ':', '_' or '-'."

def failureWindowMs (policy : LoginProtectionPolicy) : ℤ := policy.failureWindowSeconds * 1000

def lockoutMs (policy : LoginProtectionPolicy) : ℤ := policy.lockoutSeconds * 1000

end LoginProtectionPolicy

/-- `ACCOUNT_LOGIN_PROTECTION_POLICY`. -/
def accountLoginProtectionPolicy : LoginProtectionPolicy where
  name := "account-login"
  failureThreshold := 5
  failureWindowSeconds := 900
  lockoutSeconds := 300
  name_matches := by decide
  failureThreshold_range := by decide
  failureWindow_range := by decide
  lockout_range := by decide

/-- The two optional fields of the hash. -/
structure LoginState where
  failures : Option ℤ
  lockedUntilMs : Option ℤ
  deriving DecidableEq, Repr

/-- The three values a status or failure script returns. -/
structure LoginReply where
  locked : ℤ
  failures : ℤ
  retryAfterMs : ℤ
  deriving DecidableEq, Repr

abbrev LoginKey := Redis.Key LoginState

/-- `tonumber(state[1]) or 0`. -/
def storedFailures (state : LoginKey) : ℤ := (state.bind (·.value.failures)).getD 0

/-- `tonumber(state[2]) or 0`. -/
def storedLockedUntil (state : LoginKey) : ℤ := (state.bind (·.value.lockedUntilMs)).getD 0

/-- `LOGIN_LOCK_STATUS_SCRIPT`, run by a server whose clock shows `serverMs`. -/
def loginLockStatusScript (nowMs serverMs : ℤ) (key : LoginKey) :
    Except String LoginReply × LoginKey :=
  if nowMs < 0 then (.error "invalid timestamp", key)
  else
    let state := key.live serverMs
    let failures := storedFailures state
    let lockedUntilMs := storedLockedUntil state
    if lockedUntilMs > nowMs then (.ok ⟨1, failures, lockedUntilMs - nowMs⟩, state)
    else if lockedUntilMs > 0 then (.ok ⟨0, 0, 0⟩, none)
    else (.ok ⟨0, failures, 0⟩, state)

/-- `LOGIN_FAILURE_SCRIPT`, run by a server whose clock shows `serverMs`. -/
def loginFailureScript (threshold nowMs failureWindowMs lockoutMs serverMs : ℤ) (key : LoginKey) :
    Except String LoginReply × LoginKey :=
  if threshold ≤ 0 then (.error "invalid threshold", key)
  else if nowMs < 0 then (.error "invalid timestamp", key)
  else if failureWindowMs ≤ 0 then (.error "invalid failure window", key)
  else if lockoutMs ≤ 0 then (.error "invalid lockout duration", key)
  else
    let state := key.live serverMs
    let failures := storedFailures state
    let lockedUntilMs := storedLockedUntil state
    if lockedUntilMs > nowMs then (.ok ⟨1, failures, lockedUntilMs - nowMs⟩, state)
    else
      -- An expired lock is deleted with its count before the failure is recorded.
      let state : LoginKey := if lockedUntilMs > 0 then none else state
      let failures := if lockedUntilMs > 0 then 0 else failures
      let failures := failures + 1
      if failures ≥ threshold then
        let locked := state.write ⟨some failures, some (nowMs + lockoutMs)⟩
        (.ok ⟨1, failures, lockoutMs⟩, some (Redis.Key.expireIn serverMs lockoutMs locked))
      else
        let counted := state.write ⟨some failures, none⟩
        (.ok ⟨0, failures, 0⟩, some (Redis.Key.expireIn serverMs failureWindowMs counted))

/-- `LOGIN_RESET_SCRIPT`: DEL, which tells whether the key was there. -/
def loginResetScript (serverMs : ℤ) (key : LoginKey) : Bool × LoginKey :=
  ((key.live serverMs).isSome, none)

end SecureGateway.Login
