import SecureGateway.RateLimit.Figures

/-!
# The expiry of a policy

Which accepted policies give their buckets a deadline that Redis can store. The time to live is
a quotient by the rate, and the constructor bounds the rate from above only.
-/
namespace SecureGateway.RateLimit

variable {policy : RateLimitPolicy} {now : ℤ} {key : Redis.Key Bucket}

/-- The times of day that a policy has to serve: milliseconds that a double holds exactly. -/
def ClockRange (now : ℤ) : Prop := 0 ≤ now ∧ now < 2 ^ 53

/-- The longest time to live, in whole seconds, that is in range at every time of day. -/
def longestTtlSeconds : ℤ := (2 ^ 63 - 2 ^ 53) / 1000

/-- A check writes the bucket and gives it its deadline. -/
def Expires (policy : RateLimitPolicy) (now : ℤ) (key : Redis.Key Bucket) : Prop :=
  ∃ reply bucket, evalBucket policy now key =
    (.ok reply, some ⟨bucket, some (now + policy.stateTtlMs)⟩)

structure UsableExpiry (policy : RateLimitPolicy) : Prop where
  ttl_pos : 0 < policy.stateTtlMs
  /-- The time, in milliseconds, in which an empty bucket fills. -/
  refill_le_ttl : (policy.capacity : ℚ) / policy.refillRatePerSecond * 1000 ≤ policy.stateTtlMs
  inRange : ∀ now, ClockRange now → DeadlineInRange policy now
  expires : ∀ now key, ClockRange now → Expires policy now key

theorem refill_le_ttl (policy : RateLimitPolicy) :
    (policy.capacity : ℚ) / policy.refillRatePerSecond * 1000 ≤ policy.stateTtlMs := by
  have hrate := policy.refillRate_pos
  have httl := policy.capacity_le_ttl
  have hcapacity : (0 : ℚ) ≤ policy.capacity := by positivity
  rw [div_mul_eq_mul_div, div_le_iff₀ hrate]
  linarith

/-- PEXPIRE succeeds exactly where the deadline is in range. -/
theorem expires_iff (h0 : 0 ≤ now) : Expires policy now key ↔ DeadlineInRange policy now := by
  rcases le_or_gt (now + policy.stateTtlMs) Redis.maxExpiry with hx | hx
  · constructor
    · intro _
      exact hx
    · intro _
      exact ⟨_, _, evalBucket_of_le policy key h0 hx⟩
  · constructor
    · rintro ⟨reply, bucket, heval⟩
      rw [evalBucket_of_lt policy key h0 hx] at heval
      cases heval
    · intro hrange
      exact (not_le.mpr hx hrange).elim

/-- The last time of day decides for all of them. -/
theorem inRange_iff_ttl (policy : RateLimitPolicy) :
    (∀ now, ClockRange now → DeadlineInRange policy now) ↔
      policy.stateTtlSeconds ≤ longestTtlSeconds := by
  have hlongest : longestTtlSeconds = 9214364837600034 := by decide
  rw [hlongest]
  constructor
  · intro h
    have hlast := h (2 ^ 53 - 1) ⟨by decide, by decide⟩
    simp only [DeadlineInRange, RateLimitPolicy.stateTtlMs, Redis.maxExpiry] at hlast
    omega
  · rintro h now ⟨h0, hlt⟩
    simp only [DeadlineInRange, RateLimitPolicy.stateTtlMs, Redis.maxExpiry]
    omega

theorem ttlSeconds_le_iff (policy : RateLimitPolicy) {n : ℤ} (hn : 1 ≤ n) :
    policy.stateTtlSeconds ≤ n ↔
      2 * (policy.capacity : ℚ) ≤ n * policy.refillRatePerSecond := by
  have hrate := policy.refillRate_pos
  calc policy.stateTtlSeconds ≤ n
      ↔ ⌈(policy.capacity : ℚ) / policy.refillRatePerSecond * 2⌉ ≤ n := by
        simp only [RateLimitPolicy.stateTtlSeconds, max_le_iff, hn, true_and]
    _ ↔ (policy.capacity : ℚ) / policy.refillRatePerSecond * 2 ≤ n := Int.ceil_le
    _ ↔ 2 * (policy.capacity : ℚ) ≤ n * policy.refillRatePerSecond := by
        rw [div_mul_eq_mul_div, div_le_iff₀ hrate, mul_comm (policy.capacity : ℚ)]

end SecureGateway.RateLimit
