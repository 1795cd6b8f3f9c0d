import SecureGateway.Foundation.Metering
import SecureGateway.RateLimit.Figures

/-!
# Which requests the limiter admits

The checks of one key as a gate. What a check finds is the least headroom over the windows of
the admitted requests, so the stored bucket can be left out: the policy alone says which of the
arrivals are admitted.
-/
namespace SecureGateway.RateLimit

variable {policy : RateLimitPolicy} {t t' : ℤ} {key : Redis.Key Bucket} {times : List ℤ}

/-- The checks of one key: what each does to the key, and whether it lets its request pass. -/
def gate (policy : RateLimitPolicy) : Metering.Gate (Redis.Key Bucket) where
  next key t := (check policy t key).2
  admits key t :=
    match (check policy t key).1 with
    | .ok decision => decision.allowed
    | .error _ => false

theorem gate_admits_iff : (gate policy).admits key t = true ↔ Allowed policy t key := by
  simp only [gate, Allowed]
  cases (check policy t key).1 with
  | error message => simp
  | ok decision => simp

/-- Between checks the tokens found fill like a reservoir, over expiry too. -/
theorem tokensFound_fills (h : WellFormed policy key t) (htt' : t ≤ t')
    (hx : DeadlineInRange policy t') :
    tokensFound policy t' key = Reservoir.level (policy.capacity : ℚ)
      (policy.refillRatePerSecond / 1000) (tokensFound policy t key) (t' - t) := by
  have hspan : (t : ℚ) ≤ t' := by exact_mod_cast htt'
  have hrate := ratePerMs_pos policy
  cases key with
  | none =>
    have hrefill := mul_nonneg (sub_nonneg.mpr hspan) hrate.le
    have hfull : ∀ u, tokensFound policy u none = policy.capacity := by
      intro u
      rw [tokensFound, Redis.Key.live_none, Option.map_none, refill_none (by positivity)]
    rw [hfull, hfull, Reservoir.level, min_eq_left]
    linarith
  | some e =>
    obtain ⟨b, d, rfl, rfl, hd, h0, hc⟩ := h.stored (deadlineInRange_mono hx htt')
    obtain ⟨d', rfl⟩ : ∃ d', t' = b.lastRefillMs + d + d' :=
      ⟨t' - (b.lastRefillMs + d), by omega⟩
    have hd' : 0 ≤ d' := by omega
    rw [add_assoc, tokensFound_written h0 hc (by omega), tokensFound_written h0 hc hd]
    have hlater :
        (((b.lastRefillMs + (d + d') : ℤ) : ℚ) - (b.lastRefillMs + d : ℤ)) = (d' : ℤ) := by
      push_cast
      ring
    rw [hlater, Reservoir.level_level hrate.le (by exact_mod_cast hd')]
    push_cast
    rfl

theorem gate_admits_iff_found (h : WellFormed policy key t)
    (ht : t ≤ Redis.maxExpiry - policy.stateTtlMs) :
    (gate policy).admits key t = true ↔ (policy.cost : ℚ) ≤ tokensFound policy t key := by
  rw [gate_admits_iff, allowed_iff h.time_nonneg, DeadlineInRange]
  exact and_iff_right (by omega)

theorem gate_drains (h : WellFormed policy key t)
    (ht : t ≤ Redis.maxExpiry - policy.stateTtlMs) :
    tokensFound policy t ((gate policy).next key t) =
      Reservoir.draw (policy.cost : ℚ) (tokensFound policy t key) := by
  have hx : DeadlineInRange policy t := by
    unfold DeadlineInRange
    omega
  exact tokensFound_at_once key h.time_nonneg hx

theorem gate_fills (h : WellFormed policy key t) (htt' : t ≤ t')
    (ht' : t' ≤ Redis.maxExpiry - policy.stateTtlMs) :
    tokensFound policy t' key = Reservoir.level (policy.capacity : ℚ)
      (policy.refillRatePerSecond / 1000) (tokensFound policy t key) (t' - t) := by
  refine tokensFound_fills h htt' ?_
  unfold DeadlineInRange
  omega

/-- The tokens found meter the gate as long as deadlines fit Redis. -/
def meter (policy : RateLimitPolicy) :
    Metering.Meter (gate policy) policy.capacity (policy.refillRatePerSecond / 1000) policy.cost
      (Redis.maxExpiry - policy.stateTtlMs) where
  Valid := WellFormed policy
  level key t := tokensFound policy t key
  valid_next h := wellFormed_next h
  valid_mono := wellFormed_mono
  admits_iff := gate_admits_iff_found
  drains := gate_drains
  fills := gate_fills

/-- The arrivals that are let through, of those that find an absent key first. -/
def admitted (policy : RateLimitPolicy) (times : List ℤ) : List ℤ :=
  (gate policy).admitted none times

/-- No window holds requests for more than a full bucket and what its span refills. -/
def WithinRate (policy : RateLimitPolicy) (log : List ℤ) : Prop :=
  Metering.Conforms policy.capacity (policy.refillRatePerSecond / 1000) policy.cost log

theorem meter_full (policy : RateLimitPolicy) : (meter policy).level none 0 = policy.capacity := by
  change tokensFound policy 0 none = policy.capacity
  rw [tokensFound, Redis.Key.live_none, Option.map_none, refill_none (by positivity)]

theorem pairwise_from_zero (hsorted : times.Pairwise (· ≤ ·)) (hnonneg : ∀ t ∈ times, 0 ≤ t) :
    (0 :: times).Pairwise (· ≤ ·) := List.pairwise_cons.mpr ⟨hnonneg, hsorted⟩

theorem proxy_deadlineInRange (ht : t ≤ 2 ^ 60) : DeadlineInRange proxyRateLimitPolicy t := by
  have httl : proxyRateLimitPolicy.stateTtlMs = 120000 := by
    norm_num [RateLimitPolicy.stateTtlMs, RateLimitPolicy.stateTtlSeconds, proxyRateLimitPolicy]
  rw [DeadlineInRange, httl]
  unfold Redis.maxExpiry
  omega

end SecureGateway.RateLimit
