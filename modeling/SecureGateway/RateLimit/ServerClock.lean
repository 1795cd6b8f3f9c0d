import SecureGateway.RateLimit.Bound

/-!
# A server ahead of the reading

A check reads the clock before Redis runs its script: the script refills by the reading, and
expiry goes by the clock of the server. As long as no reading is older than half the time to
live, the difference does not show.
-/
namespace SecureGateway.RateLimit

variable {policy : RateLimitPolicy} {t s d : ℤ} {key key' : Redis.Key Bucket} {b : Bucket}

/-- The script with the arguments `check` sends, run by a server at `serverMs`. -/
def evalBucketAt (policy : RateLimitPolicy) (nowMs serverMs : ℤ) (key : Redis.Key Bucket) :
    Except String ScriptReply × Redis.Key Bucket :=
  tokenBucketScript policy.capacity policy.refillRatePerSecond policy.cost nowMs
    policy.stateTtlMs serverMs key

/-- The tokens that it finds. -/
def foundAt (policy : RateLimitPolicy) (nowMs serverMs : ℤ) (key : Redis.Key Bucket) : ℚ :=
  refill policy.capacity policy.refillRatePerSecond ((key.live serverMs).map Redis.Entry.value)
    nowMs

theorem evalBucketAt_of_le (key : Redis.Key Bucket) (ht : 0 ≤ t)
    (hx : s + policy.stateTtlMs ≤ Redis.maxExpiry) :
    evalBucketAt policy t s key = (.ok (replyTo policy (foundAt policy t s key)),
      some ⟨⟨consume policy.cost (foundAt policy t s key), t⟩,
        some (s + policy.stateTtlMs)⟩) := by
  have hcap : ¬ (policy.capacity : ℚ) ≤ 0 := by
    have := policy.capacity_range.1
    have : (1 : ℚ) ≤ policy.capacity := by exact_mod_cast this
    linarith
  have hcost : ¬ (policy.cost : ℚ) ≤ 0 := by
    have := policy.cost_range.1
    have : (1 : ℚ) ≤ policy.cost := by exact_mod_cast this
    linarith
  have hrate : ¬ policy.refillRatePerSecond ≤ 0 := not_le.mpr policy.refillRate_pos
  have hnow : ¬ t < 0 := by omega
  have httl : ¬ policy.stateTtlMs ≤ 0 := not_le.mpr policy.stateTtlMs_pos
  simp only [evalBucketAt, tokenBucketScript, if_neg hcap, if_neg hrate, if_neg hcost, if_neg hnow,
    if_neg httl, Redis.Key.pexpire, if_pos hx]
  rfl

/-- Half the time to live is enough to fill the bucket from any level. -/
theorem full_after_half {tokens : ℚ} (h0 : 0 ≤ tokens) (hd : policy.stateTtlMs ≤ 2 * d) :
    Reservoir.level (policy.capacity : ℚ) (policy.refillRatePerSecond / 1000) tokens d =
      policy.capacity := by
  apply Reservoir.level_eq_capacity (ratePerMs_pos policy)
  rw [div_le_iff₀ (ratePerMs_pos policy)]
  have httl := policy.capacity_le_ttl
  have hd' : (policy.stateTtlMs : ℚ) ≤ 2 * d := by exact_mod_cast hd
  have hfill : (policy.stateTtlMs : ℚ) * (policy.refillRatePerSecond / 1000) ≤
      2 * d * (policy.refillRatePerSecond / 1000) :=
    mul_le_mul_of_nonneg_right hd' (ratePerMs_pos policy).le
  linarith

/-- The key of the server holds the bucket of the checks, and for as long as they would. -/
structure Follows (policy : RateLimitPolicy) (key key' : Redis.Key Bucket) : Prop where
  same : key.map Redis.Entry.value = key'.map Redis.Entry.value
  deadline : ∀ e ∈ key, ∃ d, e.expiresAt = some d ∧ e.value.lastRefillMs + policy.stateTtlMs ≤ d

theorem follows_absent (policy : RateLimitPolicy) : Follows policy none none := ⟨rfl, by simp⟩

/-- What the script finds is what a check at the reading would find. -/
theorem Follows.found (hf : Follows policy key key') (hw : WellFormed policy key' t)
    (hx : t + policy.stateTtlMs ≤ Redis.maxExpiry) (hlag : 2 * (s - t) ≤ policy.stateTtlMs) :
    foundAt policy t s key = tokensFound policy t key' := by
  cases key with
  | none =>
    cases key' with
    | none => rfl
    | some e' => cases hf.same
  | some e =>
    cases key' with
    | none => cases hf.same
    | some e' =>
      obtain ⟨b, d, rfl, rfl, hd, h0, hc⟩ := hw.stored hx
      obtain ⟨u, hu, hlate⟩ := hf.deadline e rfl
      obtain ⟨value, expiresAt⟩ := e
      obtain rfl : value = b := Option.some.inj hf.same
      change expiresAt = some u at hu
      subst hu
      change value.lastRefillMs + policy.stateTtlMs ≤ u at hlate
      rw [tokensFound_written h0 hc hd, foundAt]
      rcases le_or_gt s u with hlive | hgone
      · rw [Redis.Key.live_some_of_le hlive]
        exact refill_eq_level h0 hc hd
      · rw [Redis.Key.live_some_of_lt hgone, Option.map_none, refill_none (by positivity)]
        exact (full_after_half h0 (by omega)).symm

/-- The script at the reading leaves the key as a check at the reading would. -/
theorem Follows.next (hf : Follows policy key key') (hw : WellFormed policy key' t)
    (hx : s + policy.stateTtlMs ≤ Redis.maxExpiry) (hts : t ≤ s)
    (hlag : 2 * (s - t) ≤ policy.stateTtlMs) :
    (evalBucketAt policy t s key).1 = (evalBucket policy t key').1 ∧
      Follows policy (evalBucketAt policy t s key).2 ((checks policy).next key' t) := by
  have hxt : t + policy.stateTtlMs ≤ Redis.maxExpiry := by omega
  have hfound := hf.found hw hxt hlag
  have hnext : (checks policy).next key' t =
      some ⟨written policy t key', some (t + policy.stateTtlMs)⟩ := by
    change (evalBucket policy t key').2 = _
    rw [evalBucket_of_le policy key' hw.time_nonneg hxt]
  rw [evalBucketAt_of_le key hw.time_nonneg hx, evalBucket_of_le policy key' hw.time_nonneg hxt,
    hfound, hnext]
  refine ⟨rfl, rfl, ?_⟩
  intro e he
  cases he
  exact ⟨_, rfl, by change t + policy.stateTtlMs ≤ s + policy.stateTtlMs; omega⟩

end SecureGateway.RateLimit
