import Mathlib.Data.Rat.Floor
import SecureGateway.Python.Text

/-! Token-bucket configuration and decisions, from `gateway/app/rate_limit/models.py`. -/
namespace SecureGateway.RateLimit

/-- `[a-z0-9]`, the first character of a policy name. -/
def policyNameHead (c : Char) : Bool := c.isLower || c.isDigit

/-- `[a-z0-9:_-]`, every later character. -/
def policyNameTail (c : Char) : Bool := policyNameHead c || c == ':' || c == '_' || c == '-'

/-- `_POLICY_NAME_PATTERN.fullmatch`. -/
def policyNameMatches (name : String) : Bool :=
  match name.toList with
  | [] => false
  | c :: rest => policyNameHead c && rest.all policyNameTail && rest.length ≤ 63

/-- The accepted policies: what `__post_init__` lets through. -/
structure RateLimitPolicy where
  name : String
  capacity : ℕ
  refillRatePerSecond : ℚ
  cost : ℕ
  name_matches : policyNameMatches name = true
  capacity_range : 1 ≤ capacity ∧ capacity ≤ 1000000
  refillRate_range : 0 < refillRatePerSecond ∧ refillRatePerSecond ≤ 1000000
  cost_range : 1 ≤ cost ∧ cost ≤ capacity

namespace RateLimitPolicy

/-- `RateLimitPolicy(...)`: the checks in the order of `__post_init__`. -/
def create (name : String) (capacity : ℤ) (refillRatePerSecond : ℚ) (cost : ℤ) :
    Except String RateLimitPolicy :=
  if Python.strip name ≠ name then
    .error "Policy name must not contain leading or trailing whitespace."
  else if hn : policyNameMatches name = true then
    if hc : 1 ≤ capacity ∧ capacity ≤ 1000000 then
      if hr : 0 < refillRatePerSecond ∧ refillRatePerSecond ≤ 1000000 then
        if hk : 1 ≤ cost ∧ cost ≤ capacity then
          .ok ⟨name, capacity.toNat, refillRatePerSecond, cost.toNat, hn, by omega, hr, by omega⟩
        else .error "Cost must be an integer between 1 and the bucket capacity."
      else .error "Refill rate must be finite, greater than 0 and at most 1000000."
    else .error "Capacity must be an integer between 1 and 1000000."
  else
    .error "Policy name must contain 1 to 64 lowercase letters, numbers, ':', '_' or '-'."

variable (policy : RateLimitPolicy)

/-- Twice the time an empty bucket needs to refill, in whole seconds. -/
def stateTtlSeconds : ℤ :=
  let secondsToFull := (policy.capacity : ℚ) / policy.refillRatePerSecond
  max 1 ⌈secondsToFull * 2⌉

/-- The `ttl_ms` argument that `check` sends. -/
def stateTtlMs : ℤ := policy.stateTtlSeconds * 1000

theorem refillRate_pos : 0 < policy.refillRatePerSecond := policy.refillRate_range.1

theorem stateTtlMs_pos : 0 < policy.stateTtlMs := by
  have : 1 ≤ policy.stateTtlSeconds := le_max_left _ _
  unfold stateTtlMs
  omega

/-- The expiry time is long enough to refill an empty bucket twice. -/
theorem capacity_le_ttl :
    2 * (policy.capacity : ℚ) ≤ (policy.stateTtlMs : ℚ) * policy.refillRatePerSecond / 1000 := by
  have hr := policy.refillRate_pos
  have hceil : (policy.capacity : ℚ) / policy.refillRatePerSecond * 2 ≤
      (policy.stateTtlSeconds : ℚ) := by
    refine (Int.le_ceil _).trans ?_
    exact_mod_cast le_max_right 1 ⌈(policy.capacity : ℚ) / policy.refillRatePerSecond * 2⌉
  calc 2 * (policy.capacity : ℚ)
      = (policy.capacity : ℚ) / policy.refillRatePerSecond * 2 * policy.refillRatePerSecond := by
        field_simp
    _ ≤ (policy.stateTtlSeconds : ℚ) * policy.refillRatePerSecond := by gcongr
    _ = (policy.stateTtlMs : ℚ) * policy.refillRatePerSecond / 1000 := by
        simp only [stateTtlMs]
        push_cast
        ring

end RateLimitPolicy

/-- `PROXY_RATE_LIMIT_POLICY`. -/
def proxyRateLimitPolicy : RateLimitPolicy where
  name := "authenticated-proxy"
  capacity := 60
  refillRatePerSecond := 1
  cost := 1
  name_matches := by decide
  capacity_range := by decide
  refillRate_range := by norm_num
  cost_range := by decide

/-- `RateLimitDecision`, with the constraints of its `__post_init__` as fields. -/
structure RateLimitDecision where
  allowed : Bool
  limit : ℤ
  remaining : ℤ
  retryAfterSeconds : ℤ
  resetAfterSeconds : ℤ
  limit_pos : 1 ≤ limit
  remaining_range : 0 ≤ remaining ∧ remaining ≤ limit
  retryAfter_nonneg : 0 ≤ retryAfterSeconds
  resetAfter_nonneg : 0 ≤ resetAfterSeconds
  allowed_no_delay : allowed = true → retryAfterSeconds = 0
  deriving DecidableEq

end SecureGateway.RateLimit
