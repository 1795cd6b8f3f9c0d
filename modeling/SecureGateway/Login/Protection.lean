import SecureGateway.Gateway.Interface

/-! `RedisLoginProtection` of `gateway/app/rate_limit/login.py`. -/
namespace SecureGateway.Gateway

open Interleaving Login

structure LoginProtectionDecision where
  locked : Bool
  failures : ℤ
  retryAfterSeconds : ℤ
  deriving DecidableEq, Repr

variable (cfg : Config)

def canonicalizeLoginIdentifier (identifier : String) : String :=
  let normalizedIdentifier := cfg.unicode.canonical identifier
  if normalizedIdentifier = "" then "<empty-login-identifier>" else normalizedIdentifier

namespace RedisLoginProtection

/-- `_build_key`. -/
def buildKey (identifier : String) (policy : LoginProtectionPolicy) : String :=
  cfg.redisKeyPrefix ++ ":login-protection:" ++ policy.name ++ ":" ++
    cfg.sha256Hex (canonicalizeLoginIdentifier cfg identifier)

/-- `_read_clock`. -/
def readClock : Action ℤ := do
  let nowMs ← invoke .clockMs
  if nowMs < 0 then
    throw (.valueError "The login-protection clock returned an invalid timestamp.")
  else pure nowMs

/-- `_evaluate`: the reply of the script, or the exception its failure becomes. -/
def evaluated {α : Type} (r : Except RedisFault α) : Action α :=
  match r with
  | .ok a => pure a
  | .error ⟨none, _⟩ =>
    throw (.loginProtectionBackend "Redis login-protection backend is unavailable.")
  | .error ⟨some f, _⟩ => throw f.raised

/-- `_parse_decision` on three integers. -/
def parseDecision (raw : LoginReply) : Except Raised LoginProtectionDecision :=
  if raw.locked ≠ 0 ∧ raw.locked ≠ 1 then
    .error (.loginProtectionBackend "Redis returned an invalid lock state.")
  else if raw.failures < 0 ∨ raw.retryAfterMs < 0 then
    .error (.loginProtectionBackend "Redis returned invalid login-protection measurements.")
  else if raw.locked ≠ 1 ∧ raw.retryAfterMs ≠ 0 then
    .error (.loginProtectionBackend "Redis returned an inconsistent login-protection response.")
  else
    .ok ⟨raw.locked = 1, raw.failures,
      if raw.locked = 1 then ⌈(raw.retryAfterMs : ℚ) / 1000⌉ else 0⟩

def checkLock (identifier : String) (policy : LoginProtectionPolicy) :
    Action LoginProtectionDecision := do
  let nowMs ← readClock
  let raw ← invoke (.evalLockStatus (buildKey cfg identifier policy) nowMs)
  let reply ← evaluated raw
  Prog.liftExcept (parseDecision reply)

def recordFailure (identifier : String) (policy : LoginProtectionPolicy) :
    Action LoginProtectionDecision := do
  let nowMs ← readClock
  let raw ← invoke (.evalLoginFailure (buildKey cfg identifier policy) policy.failureThreshold
    nowMs policy.failureWindowMs policy.lockoutMs)
  let reply ← evaluated raw
  Prog.liftExcept (parseDecision reply)

def reset (identifier : String) (policy : LoginProtectionPolicy) : Action Bool := do
  let raw ← invoke (.evalLoginReset (buildKey cfg identifier policy))
  evaluated raw

end RedisLoginProtection

end SecureGateway.Gateway
