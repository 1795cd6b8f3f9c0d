import SecureGateway.Foundation.Budget
import SecureGateway.Foundation.Reservoir
import SecureGateway.RateLimit.TokenBucket

/-!
# The rate bound

The tokens available to a check are a balance for the checks of one key: an allowed check
takes its cost from them, and between checks they grow no faster than the refill rate. A key
that expires jumps to a full bucket, but its deadline lies beyond the time it needs to fill.
-/
namespace SecureGateway.RateLimit

variable {policy : RateLimitPolicy} {t t' d : ℤ} {key : Redis.Key Bucket} {b : Bucket}

/-- The checks of one key as a spending machine: an allowed check spends the policy's cost. -/
def checks (policy : RateLimitPolicy) : Budget.Machine (Redis.Key Bucket) where
  next key t := (check policy t key).2
  spend key t :=
    match (check policy t key).1 with
    | .ok d => if d.allowed then policy.cost else 0
    | .error _ => 0

/-- The tokens a check at `t` would find. Past the expiry range every check fails. -/
def available (policy : RateLimitPolicy) (key : Redis.Key Bucket) (t : ℤ) : ℚ :=
  if t + policy.stateTtlMs ≤ Redis.maxExpiry then
    refill policy.capacity policy.refillRatePerSecond ((key.live t).map Redis.Entry.value) t
  else 0

/-- A stored bucket is within its bounds and, while checks can still succeed, carries the
deadline of its last check. -/
structure WellFormed (policy : RateLimitPolicy) (key : Redis.Key Bucket) (t : ℤ) : Prop where
  time_nonneg : 0 ≤ t
  tokens : ∀ e ∈ key, 0 ≤ e.value.tokens ∧ e.value.tokens ≤ policy.capacity
  deadline : ∀ e ∈ key, t + policy.stateTtlMs ≤ Redis.maxExpiry →
    e.value.lastRefillMs ≤ t ∧ e.expiresAt = some (e.value.lastRefillMs + policy.stateTtlMs)

theorem wellFormed_absent (policy : RateLimitPolicy) : WellFormed policy none 0 :=
  ⟨le_rfl, by simp, by simp⟩

/-- Within Redis's range a stored bucket carries the deadline of its last check, `d` ago. -/
theorem WellFormed.stored {e : Redis.Entry Bucket} (h : WellFormed policy (some e) t)
    (hx : t + policy.stateTtlMs ≤ Redis.maxExpiry) :
    ∃ (b : Bucket) (d : ℤ), e = ⟨b, some (b.lastRefillMs + policy.stateTtlMs)⟩ ∧
      t = b.lastRefillMs + d ∧ 0 ≤ d ∧ 0 ≤ b.tokens ∧ b.tokens ≤ policy.capacity := by
  obtain ⟨h0, hc⟩ := h.tokens e rfl
  obtain ⟨hlast, hdeadline⟩ := h.deadline e rfl hx
  obtain ⟨b, expiresAt⟩ := e
  change expiresAt = some (b.lastRefillMs + policy.stateTtlMs) at hdeadline
  subst hdeadline
  change b.lastRefillMs ≤ t at hlast
  exact ⟨b, t - b.lastRefillMs, rfl, by omega, by omega, h0, hc⟩

theorem wellFormed_mono (h : WellFormed policy key t) (htt' : t ≤ t') :
    WellFormed policy key t' := by
  refine ⟨h.time_nonneg.trans htt', h.tokens, ?_⟩
  intro e he hx
  obtain ⟨hlast, hd⟩ := h.deadline e he (by omega)
  exact ⟨hlast.trans htt', hd⟩

theorem written_tokens (policy : RateLimitPolicy) (t : ℤ) (key : Redis.Key Bucket) :
    0 ≤ (written policy t key).tokens ∧ (written policy t key).tokens ≤ policy.capacity := by
  have hrate := policy.refillRate_pos.le
  exact ⟨consume_nonneg (refill_nonneg (by positivity) hrate),
    (consume_le (by positivity)).trans refill_le_capacity⟩

/-- The key as a check leaves it, with the deadline of that check. -/
theorem wellFormed_written (ht : 0 ≤ t) :
    WellFormed policy (some ⟨written policy t key, some (t + policy.stateTtlMs)⟩) t := by
  refine ⟨ht, ?_, ?_⟩ <;> simp only [Option.mem_some_iff, forall_eq']
  · exact written_tokens policy t key
  · intro _
    exact ⟨le_rfl, rfl⟩

theorem wellFormed_next (h : WellFormed policy key t) :
    WellFormed policy ((checks policy).next key t) t := by
  rcases check_cases policy key h.time_nonneg with ⟨-, hkey, -⟩ | ⟨hx, hkey, -⟩
  · change WellFormed policy (check policy t key).2 t
    rw [hkey]
    exact wellFormed_written h.time_nonneg
  · refine ⟨h.time_nonneg, ?_, ?_⟩ <;> simp only [checks, hkey, Option.mem_some_iff, forall_eq']
    · exact written_tokens policy t key
    · intro hle
      omega

theorem available_nonneg (policy : RateLimitPolicy) (key : Redis.Key Bucket) (t : ℤ) :
    0 ≤ available policy key t := by
  unfold available
  split
  · exact refill_nonneg (by positivity) policy.refillRate_pos.le
  · exact le_rfl

theorem available_le_capacity (policy : RateLimitPolicy) (key : Redis.Key Bucket) (t : ℤ) :
    available policy key t ≤ policy.capacity := by
  unfold available
  split
  · exact refill_le_capacity
  · positivity

/-- The balance a check leaves behind at its own time. -/
theorem available_written (hx : t + policy.stateTtlMs ≤ Redis.maxExpiry) :
    available policy (some ⟨written policy t key, some (t + policy.stateTtlMs)⟩) t =
      (written policy t key).tokens := by
  obtain ⟨h0, hc⟩ := written_tokens policy t key
  have httl := policy.stateTtlMs_pos
  rw [available, if_pos hx, Redis.Key.live_some_of_le (by omega), Option.map_some,
    refill_some h0 hc (show (written policy t key).lastRefillMs ≤ t from le_rfl)]
  have hself : (t : ℚ) - (written policy t key).lastRefillMs = 0 := sub_self _
  rw [hself, zero_mul, zero_div, add_zero, min_eq_right hc]

theorem available_pays (h : WellFormed policy key t) :
    (checks policy).spend key t + available policy ((checks policy).next key t) t ≤
      available policy key t := by
  rcases check_cases policy key h.time_nonneg with ⟨hx, hkey, hallowed⟩ | ⟨hx, hkey, m, herr⟩
  · have hnext : (checks policy).next key t =
        some ⟨written policy t key, some (t + policy.stateTtlMs)⟩ := hkey
    rw [hnext, available_written hx, available, if_pos hx]
    have hcost : (0 : ℚ) ≤ policy.cost := by positivity
    simp only [checks, written]
    cases hd : (check policy t key).1 with
    | error m => simpa using consume_le hcost
    | ok d =>
      cases ha : d.allowed with
      | false => simpa [ha] using consume_le hcost
      | true => simp [consume, ha, (hallowed d hd).mp ha]
  · have hdead : ¬ t + policy.stateTtlMs ≤ Redis.maxExpiry := by omega
    simp [checks, herr, available, hdead]

theorem ratePerMs_pos (policy : RateLimitPolicy) : 0 < policy.refillRatePerSecond / 1000 := by
  have := policy.refillRate_pos
  positivity

/-- The time to live is long enough to fill the bucket from any level. -/
theorem full_after_ttl {tokens : ℚ} (h0 : 0 ≤ tokens) (hd : policy.stateTtlMs ≤ d) :
    Reservoir.level (policy.capacity : ℚ) (policy.refillRatePerSecond / 1000) tokens d =
      policy.capacity := by
  apply Reservoir.level_eq_capacity (ratePerMs_pos policy)
  rw [div_le_iff₀ (ratePerMs_pos policy)]
  have httl := policy.capacity_le_ttl
  have hd' : (policy.stateTtlMs : ℚ) ≤ d := by exact_mod_cast hd
  have hfill : (policy.stateTtlMs : ℚ) * (policy.refillRatePerSecond / 1000) ≤
      d * (policy.refillRatePerSecond / 1000) :=
    mul_le_mul_of_nonneg_right hd' (ratePerMs_pos policy).le
  have hcap : (0 : ℚ) ≤ policy.capacity := by positivity
  linarith

/-- A well-formed hash fills like a reservoir. -/
theorem refill_eq_level (h0 : 0 ≤ b.tokens) (hc : b.tokens ≤ policy.capacity) (hd : 0 ≤ d) :
    refill policy.capacity policy.refillRatePerSecond (some b) (b.lastRefillMs + d) =
      Reservoir.level (policy.capacity : ℚ) (policy.refillRatePerSecond / 1000) b.tokens d := by
  rw [refill_some h0 hc (by omega), Reservoir.level]
  congr 2
  push_cast
  ring

/-- So does the key that a check has written: once it expires, the bucket has had the time to
fill twice over. -/
theorem tokensFound_written (h0 : 0 ≤ b.tokens) (hc : b.tokens ≤ policy.capacity) (hd : 0 ≤ d) :
    tokensFound policy (b.lastRefillMs + d)
        (some ⟨b, some (b.lastRefillMs + policy.stateTtlMs)⟩) =
      Reservoir.level (policy.capacity : ℚ) (policy.refillRatePerSecond / 1000) b.tokens d := by
  rcases le_or_gt d policy.stateTtlMs with hlive | hgone
  · rw [tokensFound, Redis.Key.live_some_of_le (by omega)]
    exact refill_eq_level h0 hc hd
  · rw [tokensFound, Redis.Key.live_some_of_lt (by omega), Option.map_none,
      refill_none (by positivity)]
    exact (full_after_ttl h0 hgone.le).symm

/-- Between checks the balance grows at the refill rate. -/
theorem available_grows (h : WellFormed policy key t) (htt' : t ≤ t') :
    available policy key t' ≤
      available policy key t + policy.refillRatePerSecond / 1000 * (t' - t) := by
  have hspan : (t : ℚ) ≤ t' := by exact_mod_cast htt'
  have hrate := ratePerMs_pos policy
  have hgrowth : 0 ≤ policy.refillRatePerSecond / 1000 * ((t' : ℚ) - t) :=
    mul_nonneg hrate.le (sub_nonneg.mpr hspan)
  have havail := available_nonneg policy key t
  by_cases hx' : t' + policy.stateTtlMs ≤ Redis.maxExpiry
  · have hx : t + policy.stateTtlMs ≤ Redis.maxExpiry := by omega
    cases key with
    | none =>
      simp only [available, hx, hx', if_true, Redis.Key.live_none, Option.map_none]
      rw [refill_none (by positivity), refill_none (by positivity)]
      linarith
    | some e =>
      -- Both times as delays after the last check.
      obtain ⟨b, d, rfl, rfl, hd0, h0, hc⟩ := h.stored hx
      obtain ⟨d', rfl⟩ : ∃ d', t' = b.lastRefillMs + d' := ⟨t' - b.lastRefillMs, by omega⟩
      have hdd' : d ≤ d' := by omega
      have hlevel := Reservoir.level_le_add (policy.capacity : ℚ) b.tokens hrate.le
        (show (d : ℚ) ≤ d' by exact_mod_cast hdd')
      have ht : available policy (some ⟨b, some (b.lastRefillMs + policy.stateTtlMs)⟩)
          (b.lastRefillMs + d) = Reservoir.level (policy.capacity : ℚ)
            (policy.refillRatePerSecond / 1000) b.tokens d :=
        (if_pos hx).trans (tokensFound_written h0 hc (by omega))
      have ht' : available policy (some ⟨b, some (b.lastRefillMs + policy.stateTtlMs)⟩)
          (b.lastRefillMs + d') = Reservoir.level (policy.capacity : ℚ)
            (policy.refillRatePerSecond / 1000) b.tokens d' :=
        (if_pos hx').trans (tokensFound_written h0 hc (by omega))
      rw [ht, ht']
      push_cast
      linarith
  · rw [available, if_neg hx']
    linarith

/-- The available tokens are an account for the checks of a key. -/
def tokenAccount (policy : RateLimitPolicy) :
    Budget.Account (checks policy) (policy.refillRatePerSecond / 1000) where
  Valid := WellFormed policy
  balance := available policy
  valid_next := wellFormed_next
  valid_mono := wellFormed_mono
  nonneg _ := available_nonneg policy _ _
  pays := available_pays
  grows := available_grows

/-- For every run from an absent key: the stored tokens stay within the bucket, and every
window of the run spends at most one full bucket and what its span refills. -/
theorem rate_bound (policy : RateLimitPolicy) (before window after : List ℤ) (t₁ : ℤ)
    (hsorted : (before ++ (t₁ :: window) ++ after).Pairwise (· ≤ ·))
    (hnonneg : ∀ t ∈ before ++ (t₁ :: window) ++ after, 0 ≤ t) :
    (∀ e ∈ (checks policy).run none (before ++ (t₁ :: window) ++ after),
      0 ≤ e.value.tokens ∧ e.value.tokens ≤ policy.capacity) ∧
    (checks policy).total ((checks policy).run none before) (t₁ :: window) ≤
      policy.capacity +
        policy.refillRatePerSecond * (((window.getLast?.getD t₁ : ℤ) : ℚ) - t₁) / 1000 := by
  have hrun : ∀ times : List ℤ, times.Pairwise (· ≤ ·) → (∀ t ∈ times, 0 ≤ t) →
      WellFormed policy ((checks policy).run none times) (times.getLast?.getD 0) := by
    intro times hs hn
    exact (tokenAccount policy).valid_run (wellFormed_absent policy)
      (List.pairwise_cons.mpr ⟨hn, hs⟩)
  constructor
  · exact (hrun _ hsorted hnonneg).tokens
  · rw [List.append_assoc] at hsorted hnonneg
    obtain ⟨hbefore, hrest, hcross⟩ := List.pairwise_append.mp hsorted
    have hwindow : (t₁ :: window).Pairwise (· ≤ ·) := (List.pairwise_append.mp hrest).1
    have hlast : before.getLast?.getD 0 ≤ t₁ := by
      cases hl : before.getLast? with
      | none => exact hnonneg t₁ (by simp)
      | some u => exact hcross u (List.mem_of_getLast? hl) t₁ (by simp)
    have hvalid : WellFormed policy ((checks policy).run none before) t₁ :=
      wellFormed_mono (hrun before hbefore fun t ht => hnonneg t (by simp [ht])) hlast
    have htotal := (tokenAccount policy).total_le hvalid hwindow
    have hcap := available_le_capacity policy ((checks policy).run none before) t₁
    have hbalance : (tokenAccount policy).balance ((checks policy).run none before) t₁ =
        available policy ((checks policy).run none before) t₁ := rfl
    rw [hbalance] at htotal
    refine htotal.trans ?_
    have hring : policy.refillRatePerSecond / 1000 *
        (((window.getLast?.getD t₁ : ℤ) : ℚ) - t₁) =
        policy.refillRatePerSecond * (((window.getLast?.getD t₁ : ℤ) : ℚ) - t₁) / 1000 := by ring
    linarith

theorem rate_bound_proxy :
    ([0] ++ (250 :: [250, 90000]) ++ [90001] : List ℤ).Pairwise (· ≤ ·) ∧
      (checks proxyRateLimitPolicy).total ((checks proxyRateLimitPolicy).run none [0])
        (250 :: [250, 90000]) ≤ 60 + 1 * (90000 - 250) / 1000 := by
  have hsorted : ([0] ++ (250 :: [250, 90000]) ++ [90001] : List ℤ).Pairwise (· ≤ ·) := by decide
  have h := (rate_bound proxyRateLimitPolicy [0] [250, 90000] [90001] 250 hsorted
    (by decide)).2
  exact ⟨hsorted, by simpa [proxyRateLimitPolicy] using h⟩

end SecureGateway.RateLimit
