import SecureGateway.RateLimit.TokenBucket

/-!
# Clock readings out of order

The script clamps a negative elapsed time to zero, but then writes its own `now_ms` as the
new refill time even when that moves the time back. A later check refills that span again.
-/
namespace SecureGateway.RateLimit

variable {policy : RateLimitPolicy} {b : Bucket} {u t : ℤ}

/-- The tokens a check at `t` compares with its cost when the hash holds `b`. -/
def tokensAt (policy : RateLimitPolicy) (b : Bucket) (t : ℤ) : ℚ :=
  refill policy.capacity policy.refillRatePerSecond (some b) t

/-- The hash that a check at `u` leaves behind. -/
def afterCheck (policy : RateLimitPolicy) (b : Bucket) (u : ℤ) : Bucket :=
  ⟨consume policy.cost (tokensAt policy b u), u⟩

/-- `afterCheck` is what the script writes to a live key, whatever PEXPIRE then does. -/
theorem afterCheck_eq_written (policy : RateLimitPolicy) (e : Redis.Entry Bucket) (u : ℤ)
    (hl : Redis.Key.live u (some e) = some e) :
    written policy u (some e) = afterCheck policy e.value u := by
  simp [written, afterCheck, tokensAt, hl]

/-- The stored tokens as the script clamps them. -/
def clamped (policy : RateLimitPolicy) (b : Bucket) : ℚ := max 0 (min policy.capacity b.tokens)

theorem clamped_range (policy : RateLimitPolicy) (b : Bucket) :
    0 ≤ clamped policy b ∧ clamped policy b ≤ policy.capacity :=
  ⟨le_max_left _ _, max_le (by positivity) (min_le_left _ _)⟩

theorem tokensAt_of_le (ht : b.lastRefillMs ≤ t) :
    tokensAt policy b t = min (policy.capacity : ℚ)
      (clamped policy b + ((t : ℚ) - b.lastRefillMs) * policy.refillRatePerSecond / 1000) := by
  have ht' : (0 : ℚ) ≤ (t : ℚ) - b.lastRefillMs := by
    have : (b.lastRefillMs : ℚ) ≤ t := by exact_mod_cast ht
    linarith
  simp [tokensAt, refill, clamped, ht']

theorem tokensAt_of_lt (hu : u < b.lastRefillMs) : tokensAt policy b u = clamped policy b := by
  have hu' : (u : ℚ) - b.lastRefillMs ≤ 0 := by
    have : (u : ℚ) ≤ b.lastRefillMs := by exact_mod_cast hu.le
    linarith
  have h := (clamped_range policy b).2
  unfold clamped at h ⊢
  simp only [tokensAt, refill, Option.elim, max_eq_left hu']
  rw [zero_mul, zero_div, add_zero, min_eq_right h]

/-- The tokens at `t` once the check at `u` has run. -/
theorem tokensAt_afterCheck (hut : u ≤ t) :
    tokensAt policy (afterCheck policy b u) t = min (policy.capacity : ℚ)
      (consume policy.cost (tokensAt policy b u) +
        ((t : ℚ) - u) * policy.refillRatePerSecond / 1000) := by
  have hrange : 0 ≤ consume policy.cost (tokensAt policy b u) ∧
      consume policy.cost (tokensAt policy b u) ≤ (policy.capacity : ℚ) :=
    ⟨consume_nonneg (refill_nonneg (by positivity) policy.refillRate_pos.le),
      (consume_le (by positivity)).trans refill_le_capacity⟩
  exact refill_some hrange.1 hrange.2 hut

/-- The extra check cannot create credit when its reading is not behind the stored one, when
the bucket is full by `t` anyway, or when its own cost covers the span it refills twice. -/
def NoCredit (policy : RateLimitPolicy) (b : Bucket) (u t : ℤ) : Prop :=
  b.lastRefillMs ≤ u ∨
  (policy.capacity : ℚ) ≤
    clamped policy b + ((t : ℚ) - b.lastRefillMs) * policy.refillRatePerSecond / 1000 ∨
  ((policy.cost : ℚ) ≤ clamped policy b ∧
    ((b.lastRefillMs : ℚ) - u) * policy.refillRatePerSecond / 1000 ≤ policy.cost)

theorem tokensAt_mono_of_le (hlu : b.lastRefillMs ≤ u) (hut : u ≤ t) :
    tokensAt policy (afterCheck policy b u) t ≤ tokensAt policy b t := by
  have hrate := policy.refillRate_pos
  rw [tokensAt_afterCheck hut, tokensAt_of_le (hlu.trans hut)]
  refine min_le_min le_rfl ?_
  have hconsume : consume policy.cost (tokensAt policy b u) ≤ tokensAt policy b u :=
    consume_le (by positivity)
  have hat : tokensAt policy b u ≤
      clamped policy b + ((u : ℚ) - b.lastRefillMs) * policy.refillRatePerSecond / 1000 := by
    rw [tokensAt_of_le hlu]
    exact min_le_right _ _
  have hring : ((t : ℚ) - b.lastRefillMs) * policy.refillRatePerSecond / 1000 =
      ((u : ℚ) - b.lastRefillMs) * policy.refillRatePerSecond / 1000 +
        ((t : ℚ) - u) * policy.refillRatePerSecond / 1000 := by ring
  linarith

/-- With a reading behind the stored one, the comparison is between the cost taken and the
span counted twice. -/
theorem tokensAt_le_iff_of_lt (hlu : u < b.lastRefillMs) (hlt : b.lastRefillMs ≤ t) :
    tokensAt policy (afterCheck policy b u) t ≤ tokensAt policy b t ↔
      (policy.capacity : ℚ) ≤
        clamped policy b + ((t : ℚ) - b.lastRefillMs) * policy.refillRatePerSecond / 1000 ∨
      consume policy.cost (clamped policy b) +
        ((b.lastRefillMs : ℚ) - u) * policy.refillRatePerSecond / 1000 ≤ clamped policy b := by
  have hring : ((t : ℚ) - u) * policy.refillRatePerSecond / 1000 =
      ((t : ℚ) - b.lastRefillMs) * policy.refillRatePerSecond / 1000 +
        ((b.lastRefillMs : ℚ) - u) * policy.refillRatePerSecond / 1000 := by ring
  rw [tokensAt_afterCheck (hlu.le.trans hlt), tokensAt_of_le hlt, tokensAt_of_lt hlu, hring]
  set base := ((t : ℚ) - b.lastRefillMs) * policy.refillRatePerSecond / 1000
  set again := ((b.lastRefillMs : ℚ) - u) * policy.refillRatePerSecond / 1000
  constructor
  · intro h
    rcases le_or_gt (policy.capacity : ℚ) (clamped policy b + base) with hfull | hroom
    · exact Or.inl hfull
    · right
      rw [min_eq_right hroom.le] at h
      rcases min_le_iff.mp h with hcap | hle
      · linarith
      · linarith
  · rintro (hfull | hle)
    · rw [min_eq_left hfull]
      exact min_le_left _ _
    · refine min_le_min le_rfl ?_
      linarith

/-- Exactly when an additional check at `u` leaves a check at `t` no better off. -/
theorem extra_check_no_credit_iff (policy : RateLimitPolicy) (b : Bucket) (u t : ℤ)
    (hlt : b.lastRefillMs ≤ t) (hut : u ≤ t) :
    tokensAt policy (afterCheck policy b u) t ≤ tokensAt policy b t ↔ NoCredit policy b u t := by
  have hrate := policy.refillRate_pos
  rcases le_or_gt b.lastRefillMs u with hlu | hlu
  · exact ⟨fun _ => Or.inl hlu, fun _ => tokensAt_mono_of_le hlu hut⟩
  · have hpos : 0 < ((b.lastRefillMs : ℚ) - u) * policy.refillRatePerSecond / 1000 := by
      have : (u : ℚ) < b.lastRefillMs := by exact_mod_cast hlu
      have : 0 < (b.lastRefillMs : ℚ) - u := by linarith
      positivity
    have hnot : ¬ b.lastRefillMs ≤ u := not_le.mpr hlu
    rw [tokensAt_le_iff_of_lt hlu hlt]
    simp only [NoCredit, hnot, false_or, consume]
    refine or_congr_right ?_
    split
    · next hcost =>
      constructor
      · intro h
        exact ⟨hcost, by linarith⟩
      · rintro ⟨-, h⟩
        linarith
    · next hcost =>
      constructor
      · intro h
        linarith
      · rintro ⟨h, -⟩
        exact (hcost h).elim

theorem extra_check_no_credit_in_order :
    (⟨3, 10000⟩ : Bucket).lastRefillMs ≤ 12000 ∧
      tokensAt proxyRateLimitPolicy (afterCheck proxyRateLimitPolicy ⟨3, 10000⟩ 11000) 12000 ≤
        tokensAt proxyRateLimitPolicy ⟨3, 10000⟩ 12000 := by
  refine ⟨by decide, ?_⟩
  exact (extra_check_no_credit_iff proxyRateLimitPolicy ⟨3, 10000⟩ 11000 12000 (by decide)
    (by decide)).mpr (Or.inl (by decide))

/-- An empty bucket refilled at second 10, then a check that read its clock at second 5: the
denied check moves the refill time back, and a check at second 10 finds five tokens. -/
theorem extra_check_creates_credit :
    (⟨0, 10000⟩ : Bucket).lastRefillMs ≤ 10000 ∧ (5000 : ℤ) ≤ 10000 ∧
      ¬ tokensAt proxyRateLimitPolicy (afterCheck proxyRateLimitPolicy ⟨0, 10000⟩ 5000) 10000 ≤
        tokensAt proxyRateLimitPolicy ⟨0, 10000⟩ 10000 := by
  refine ⟨by decide, by decide, ?_⟩
  simp only [tokensAt, afterCheck, refill, consume, proxyRateLimitPolicy, Option.elim]
  norm_num

end SecureGateway.RateLimit
