import Mathlib.Data.Rat.Floor

/-!
# The circuit breaker of one upstream service

The settings, the permits and the four operations of `ServiceCircuitBreaker`, as
`gateway/app/proxy/resilience.py` computes them. No operation awaits inside its lock, so
each one is a function from the fields before it to its result and the fields after it.
The clock reading an operation may take is the argument `now`, in exact seconds.
-/
namespace SecureGateway.Resilience

inductive CircuitState where
  | closed
  | opened
  | halfOpen
  deriving DecidableEq, Repr

/-- The accepted configurations: what `__post_init__` lets through. -/
structure UpstreamResilienceSettings where
  maxAttempts : ℕ
  retryBaseDelaySeconds : ℚ
  failureThreshold : ℕ
  recoveryTimeoutSeconds : ℚ
  maxAttempts_range : 1 ≤ maxAttempts ∧ maxAttempts ≤ 3
  retryBaseDelay_range : 0 ≤ retryBaseDelaySeconds ∧ retryBaseDelaySeconds ≤ 2
  failureThreshold_range : 1 ≤ failureThreshold ∧ failureThreshold ≤ 20
  recoveryTimeout_range : 1 ≤ recoveryTimeoutSeconds ∧ recoveryTimeoutSeconds ≤ 300
  deriving DecidableEq

/-- `UpstreamResilienceSettings(...)`: the first range that fails names its error. -/
def UpstreamResilienceSettings.create (maxAttempts : ℤ) (retryBaseDelaySeconds : ℚ)
    (failureThreshold : ℤ) (recoveryTimeoutSeconds : ℚ) :
    Except String UpstreamResilienceSettings :=
  if hm : 1 ≤ maxAttempts ∧ maxAttempts ≤ 3 then
    if hd : 0 ≤ retryBaseDelaySeconds ∧ retryBaseDelaySeconds ≤ 2 then
      if hf : 1 ≤ failureThreshold ∧ failureThreshold ≤ 20 then
        if hr : 1 ≤ recoveryTimeoutSeconds ∧ recoveryTimeoutSeconds ≤ 300 then
          .ok ⟨maxAttempts.toNat, retryBaseDelaySeconds, failureThreshold.toNat,
            recoveryTimeoutSeconds, by omega, hd, by omega, hr⟩
        else .error "recovery_timeout_seconds must be between 1 and 300 seconds."
      else .error "failure_threshold must be between 1 and 20."
    else .error "retry_base_delay_seconds must be between 0 and 2 seconds."
  else .error "max_attempts must be between 1 and 3."

/-- The environment defaults: two attempts, 0.1 s, three failures, 10 s. -/
def UpstreamResilienceSettings.default : UpstreamResilienceSettings where
  maxAttempts := 2
  retryBaseDelaySeconds := 1 / 10
  failureThreshold := 3
  recoveryTimeoutSeconds := 10
  maxAttempts_range := by decide
  retryBaseDelay_range := by norm_num
  failureThreshold_range := by decide
  recoveryTimeout_range := by norm_num

/-- Admission token of one logical call, bound to the generation it was issued under. -/
structure CircuitPermit where
  generation : ℕ
  halfOpenProbe : Bool
  deriving DecidableEq, Repr

/-- `CircuitOpenError`: its constructor raises the delay to at least one second. -/
structure CircuitOpenError where
  retryAfterSeconds : ℤ
  deriving DecidableEq, Repr

def CircuitOpenError.create (retryAfterSeconds : ℤ) : CircuitOpenError :=
  ⟨max 1 retryAfterSeconds⟩

structure ServiceCircuitBreaker where
  state : CircuitState
  consecutiveFailures : ℕ
  openedAt : Option ℚ
  halfOpenProbeInFlight : Bool
  generation : ℕ
  deriving DecidableEq, Repr

namespace ServiceCircuitBreaker

def initial : ServiceCircuitBreaker where
  state := .closed
  consecutiveFailures := 0
  openedAt := none
  halfOpenProbeInFlight := false
  generation := 0

variable (settings : UpstreamResilienceSettings) (now : ℚ)

def retryAfterUnlocked (b : ServiceCircuitBreaker) : ℤ :=
  match b.openedAt with
  | none => 0
  | some openedAt =>
    let remaining := settings.recoveryTimeoutSeconds - (now - openedAt)
    if remaining ≤ 0 then 0 else max 1 ⌈remaining⌉

def beforeRequest (b : ServiceCircuitBreaker) :
    Except CircuitOpenError CircuitPermit × ServiceCircuitBreaker :=
  match b.state with
  | .closed => (.ok ⟨b.generation, false⟩, b)
  | .opened =>
    let retryAfter := b.retryAfterUnlocked settings now
    if retryAfter > 0 then (.error (.create retryAfter), b)
    else
      (.ok ⟨b.generation + 1, true⟩,
        { b with
          state := .halfOpen
          halfOpenProbeInFlight := true
          generation := b.generation + 1 })
  | .halfOpen =>
    if b.halfOpenProbeInFlight then (.error (.create 1), b)
    else (.ok ⟨b.generation, true⟩, { b with halfOpenProbeInFlight := true })

def recordSuccess (permit : CircuitPermit) (b : ServiceCircuitBreaker) :
    Bool × ServiceCircuitBreaker :=
  if permit.generation ≠ b.generation then (false, b)
  else if permit.halfOpenProbe then
    if b.state ≠ .halfOpen ∨ b.halfOpenProbeInFlight = false then (false, b)
    else
      (true,
        { state := .closed
          consecutiveFailures := 0
          openedAt := none
          halfOpenProbeInFlight := false
          generation := b.generation + 1 })
  else if b.state ≠ .closed then (false, b)
  else (false, { b with consecutiveFailures := 0, openedAt := none })

def recordFailure (permit : CircuitPermit) (b : ServiceCircuitBreaker) :
    Bool × ServiceCircuitBreaker :=
  if permit.generation ≠ b.generation then (false, b)
  else if permit.halfOpenProbe then
    if b.state ≠ .halfOpen ∨ b.halfOpenProbeInFlight = false then (false, b)
    else
      (true,
        { state := .opened
          consecutiveFailures := settings.failureThreshold
          openedAt := some now
          halfOpenProbeInFlight := false
          generation := b.generation + 1 })
  else if b.state ≠ .closed then (false, b)
  else if b.consecutiveFailures + 1 ≥ settings.failureThreshold then
    (true,
      { state := .opened
        consecutiveFailures := b.consecutiveFailures + 1
        openedAt := some now
        halfOpenProbeInFlight := false
        generation := b.generation + 1 })
  else (false, { b with consecutiveFailures := b.consecutiveFailures + 1 })

def recordNeutral (permit : CircuitPermit) (b : ServiceCircuitBreaker) :
    Bool × ServiceCircuitBreaker :=
  if permit.generation ≠ b.generation then (false, b)
  else if permit.halfOpenProbe ∧ b.state = .halfOpen ∧ b.halfOpenProbeInFlight then
    (true,
      { b with
        state := .opened
        openedAt := some now
        halfOpenProbeInFlight := false
        generation := b.generation + 1 })
  else (false, b)

end ServiceCircuitBreaker

/-- Which of the three `record_*` methods settles a permit. -/
inductive Settlement where
  | success
  | failure
  | neutral
  deriving DecidableEq, Repr

/-- `record_success`, `record_failure` or `record_neutral`, chosen by the settlement. -/
def ServiceCircuitBreaker.record (settings : UpstreamResilienceSettings) (now : ℚ)
    (permit : CircuitPermit) (b : ServiceCircuitBreaker) :
    Settlement → Bool × ServiceCircuitBreaker
  | .success => b.recordSuccess permit
  | .failure => b.recordFailure settings now permit
  | .neutral => b.recordNeutral now permit

end SecureGateway.Resilience
