import SecureGateway.RateLimit.Bound
import SecureGateway.RateLimit.Limiter

/-!
# The advertised figures

What a check tells its client about the bucket: the delay until a check is allowed again, the
checks that are left, and the time until the bucket is full. A written hash fills like a
reservoir, also past its deadline; the figures are that reservoir's waiting times, rounded.
-/
namespace SecureGateway.RateLimit

open Gateway

variable {policy : RateLimitPolicy} {t d : ℤ} {key : Redis.Key Bucket}

/-- A check at `t` is answered, and allowed. -/
def Allowed (policy : RateLimitPolicy) (t : ℤ) (key : Redis.Key Bucket) : Prop :=
  ∃ decision, (check policy t key).1 = .ok decision ∧ decision.allowed = true

/-- Redis can store the deadline that a check at `t` gives its key. -/
def DeadlineInRange (policy : RateLimitPolicy) (t : ℤ) : Prop :=
  t + policy.stateTtlMs ≤ Redis.maxExpiry

theorem tokensFound_range (policy : RateLimitPolicy) (t : ℤ) (key : Redis.Key Bucket) :
    0 ≤ tokensFound policy t key ∧ tokensFound policy t key ≤ policy.capacity :=
  ⟨refill_nonneg (by positivity) policy.refillRate_pos.le, refill_le_capacity⟩

theorem cost_pos (policy : RateLimitPolicy) : 0 < policy.cost := policy.cost_range.1

theorem cost_le_capacity (policy : RateLimitPolicy) : (policy.cost : ℚ) ≤ policy.capacity := by
  exact_mod_cast policy.cost_range.2

/-- The script's division by the rate per second, in milliseconds. -/
theorem div_rate_mul (policy : RateLimitPolicy) (a : ℚ) :
    a / policy.refillRatePerSecond * 1000 = a / (policy.refillRatePerSecond / 1000) := by
  have := policy.refillRate_pos
  field_simp

/-- The decision behind a reply: every figure of it, with the two roundings in one. -/
theorem decisionOf_replyTo (policy : RateLimitPolicy) {tokens : ℚ} (h0 : 0 ≤ tokens)
    (hc : tokens ≤ policy.capacity) :
    ∃ decision, decisionOf policy (replyTo policy tokens).allowed (replyTo policy tokens).tokens
        (replyTo policy tokens).retryAfterMs (replyTo policy tokens).resetAfterMs =
          .ok decision ∧
      (decision.allowed = true ↔ (policy.cost : ℚ) ≤ tokens) ∧
      decision.remaining = ⌊consume policy.cost tokens⌋ ∧
      (tokens < policy.cost →
        decision.retryAfterSeconds = ⌈(policy.cost - tokens) / policy.refillRatePerSecond⌉) ∧
      decision.resetAfterSeconds =
        ⌈(policy.capacity - consume policy.cost tokens) / policy.refillRatePerSecond⌉ := by
  have hrate := policy.refillRate_pos
  have hnn : 0 ≤ consume policy.cost tokens := consume_nonneg h0
  have hle : consume (policy.cost : ℚ) tokens ≤ policy.capacity :=
    (consume_le (by positivity)).trans hc
  have hsecond : ∀ a : ℚ, ⌈(⌈a * 1000⌉ : ℚ) / 1000⌉ = ⌈a⌉ := by
    intro a
    have := Reservoir.ceil_ceil_div (show 0 < 1000 by omega) (a * 1000)
    simpa using this
  have hreset : 0 ≤ (replyTo policy tokens).resetAfterMs := by
    have : 0 ≤ (policy.capacity : ℚ) - consume policy.cost tokens := by linarith
    exact Int.ceil_nonneg (by positivity)
  have hretry : 0 ≤ (replyTo policy tokens).retryAfterMs := by
    simp only [replyTo]
    split
    · exact le_rfl
    · next hlt =>
      have : 0 ≤ (policy.cost : ℚ) - tokens := by linarith
      exact Int.ceil_nonneg (by positivity)
  have hflag : ¬ ((replyTo policy tokens).allowed ≠ 0 ∧ (replyTo policy tokens).allowed ≠ 1) := by
    simp only [replyTo]
    split <;> simp
  have hmeasure : ¬ ((replyTo policy tokens).retryAfterMs < 0 ∨
      (replyTo policy tokens).resetAfterMs < 0) := by omega
  rw [decisionOf, if_neg hflag, dif_neg hmeasure]
  refine ⟨_, rfl, ?_, ?_, ?_, ?_⟩
  · simp only [replyTo]
    split <;> simp_all
  · have hfloor : ⌊consume (policy.cost : ℚ) tokens⌋ ≤ policy.capacity := by
      have := Int.floor_le_floor hle
      rwa [Int.floor_natCast] at this
    have hfloor0 : 0 ≤ ⌊consume (policy.cost : ℚ) tokens⌋ := Int.floor_nonneg.mpr hnn
    simp only [replyTo]
    omega
  · intro hlt
    simp only [replyTo, if_neg (not_le.mpr hlt), zero_ne_one, if_false, hsecond]
  · simp only [replyTo, hsecond]

theorem allowed_iff (ht : 0 ≤ t) :
    Allowed policy t key ↔
      DeadlineInRange policy t ∧ (policy.cost : ℚ) ≤ tokensFound policy t key := by
  rw [Allowed, check_eq]
  rcases le_or_gt (t + policy.stateTtlMs) Redis.maxExpiry with hx | hx
  · obtain ⟨h0, hc⟩ := tokensFound_range policy t key
    obtain ⟨decision, hd, ha, -⟩ := decisionOf_replyTo policy h0 hc
    simp only [evalBucket_of_le policy key ht hx, Except.bind, hd]
    constructor
    · rintro ⟨e, he, hallowed⟩
      cases he
      exact ⟨hx, ha.mp hallowed⟩
    · rintro ⟨-, hcost⟩
      exact ⟨decision, rfl, ha.mpr hcost⟩
  · simp only [evalBucket_of_lt policy key ht hx, Except.bind]
    constructor
    · rintro ⟨e, he, -⟩
      cases he
    · rintro ⟨hr, -⟩
      exact (not_le.mpr hx hr).elim

/-- The bucket a check at `t` leaves behind, `d` milliseconds later. -/
theorem tokensFound_after (ht : 0 ≤ t) (hx : DeadlineInRange policy t) (hd : 0 ≤ d) :
    tokensFound policy (t + d) (evalBucket policy t key).2 =
      Reservoir.level (policy.capacity : ℚ) (policy.refillRatePerSecond / 1000)
        (consume policy.cost (tokensFound policy t key)) d := by
  obtain ⟨h0, hc⟩ := written_tokens policy t key
  rw [evalBucket_of_le policy key ht hx]
  exact tokensFound_written (b := written policy t key) h0 hc hd

/-- A denial's delay is the least after which a check is allowed, and a client that waits as
long as `Retry-After` says is allowed. -/
def RetryTruthful (policy : RateLimitPolicy) (t : ℤ) (after : Redis.Key Bucket)
    (reply : ScriptReply) (decision : RateLimitDecision) : Prop :=
  decision.allowed = false →
    IsLeast {d : ℤ | 0 ≤ d ∧ Allowed policy (t + d) after} reply.retryAfterMs ∧
    (buildRateLimitHeaders decision).lookup "Retry-After" =
      some (toString (max 1 decision.retryAfterSeconds)) ∧
    Allowed policy (t + 1000 * max 1 decision.retryAfterSeconds) after

/-- Of the checks that follow in the same millisecond, exactly the advertised ones are allowed. -/
def RemainingTruthful (policy : RateLimitPolicy) (t : ℤ) (after : Redis.Key Bucket)
    (decision : RateLimitDecision) : Prop :=
  (buildRateLimitHeaders decision).lookup "X-RateLimit-Remaining" =
      some (toString decision.remaining) ∧
    ∀ n : ℕ, Allowed policy t ((checks policy).run after (List.replicate n t)) ↔
      (n : ℤ) < decision.remaining / policy.cost

/-- Left alone for `X-RateLimit-Reset` seconds, the bucket is full. -/
def ResetTruthful (policy : RateLimitPolicy) (t : ℤ) (after : Redis.Key Bucket)
    (decision : RateLimitDecision) : Prop :=
  (buildRateLimitHeaders decision).lookup "X-RateLimit-Reset" =
      some (toString decision.resetAfterSeconds) ∧
    ∀ u, t + 1000 * decision.resetAfterSeconds ≤ u →
      tokensFound policy u after = policy.capacity

/-- The script answers a check at `t`, the parser accepts the answer, and what it advertises
is true. -/
def FiguresTruthful (policy : RateLimitPolicy) (t : ℤ) (key : Redis.Key Bucket) : Prop :=
  ∃ reply decision, (evalBucket policy t key).1 = .ok reply ∧
    decisionOf policy reply.allowed reply.tokens reply.retryAfterMs reply.resetAfterMs =
      .ok decision ∧
    RetryTruthful policy t (evalBucket policy t key).2 reply decision ∧
    RemainingTruthful policy t (evalBucket policy t key).2 decision ∧
    ResetTruthful policy t (evalBucket policy t key).2 decision

theorem lookup_remaining (decision : RateLimitDecision) :
    (buildRateLimitHeaders decision).lookup "X-RateLimit-Remaining" =
      some (toString decision.remaining) := rfl

theorem lookup_reset (decision : RateLimitDecision) :
    (buildRateLimitHeaders decision).lookup "X-RateLimit-Reset" =
      some (toString decision.resetAfterSeconds) := rfl

theorem lookup_retryAfter {decision : RateLimitDecision} (h : decision.allowed = false) :
    (buildRateLimitHeaders decision).lookup "Retry-After" =
      some (toString (max 1 decision.retryAfterSeconds)) := by
  simp only [buildRateLimitHeaders, h]
  rfl

/-- The whole seconds a denied client is told to wait. -/
theorem waitSeconds_pos {tokens : ℚ} (h : tokens < policy.cost) :
    1 ≤ ⌈((policy.cost : ℚ) - tokens) / policy.refillRatePerSecond⌉ := by
  have hrate := policy.refillRate_pos
  have hgap : 0 < (policy.cost : ℚ) - tokens := by linarith
  exact Int.one_le_ceil_iff.mpr (by positivity)

/-- The delay in milliseconds fits into the seconds advertised for it. -/
theorem ceil_ms_le (policy : RateLimitPolicy) (a : ℚ) :
    ⌈a / policy.refillRatePerSecond * 1000⌉ ≤ 1000 * ⌈a / policy.refillRatePerSecond⌉ := by
  rw [Int.ceil_le]
  push_cast
  have := Int.le_ceil (a / policy.refillRatePerSecond)
  linarith

theorem allowed_after_iff (ht : 0 ≤ t) (hx : DeadlineInRange policy t)
    (hdenied : tokensFound policy t key < policy.cost) (hd : 0 ≤ d) :
    Allowed policy (t + d) (evalBucket policy t key).2 ↔ DeadlineInRange policy (t + d) ∧
      ⌈(policy.cost - tokensFound policy t key) / policy.refillRatePerSecond * 1000⌉ ≤ d := by
  rw [allowed_iff (by omega), tokensFound_after ht hx hd, consume, if_neg (not_le.mpr hdenied),
    Reservoir.ceil_le_iff (ratePerMs_pos policy) (cost_le_capacity policy), div_rate_mul]

theorem deadlineInRange_mono {u : ℤ} (h : DeadlineInRange policy u) (htu : t ≤ u) :
    DeadlineInRange policy t := by
  unfold DeadlineInRange at h ⊢
  omega

/-- A client that is told to wait is told the truth as long as the check it waits for can
still be carried out. -/
theorem retryTruthful_iff {decision : RateLimitDecision} (ht : 0 ≤ t)
    (hx : DeadlineInRange policy t) (hdenied : tokensFound policy t key < policy.cost)
    (ha : decision.allowed = false)
    (hs : decision.retryAfterSeconds =
      ⌈(policy.cost - tokensFound policy t key) / policy.refillRatePerSecond⌉) :
    RetryTruthful policy t (evalBucket policy t key).2 (replyTo policy (tokensFound policy t key))
        decision ↔
      DeadlineInRange policy (t + 1000 *
        ⌈(policy.cost - tokensFound policy t key) / policy.refillRatePerSecond⌉) := by
  have hone := waitSeconds_pos hdenied
  have hmax : max 1 decision.retryAfterSeconds =
      ⌈(policy.cost - tokensFound policy t key) / policy.refillRatePerSecond⌉ := by omega
  have hms := ceil_ms_le policy (policy.cost - tokensFound policy t key)
  have hreply : (replyTo policy (tokensFound policy t key)).retryAfterMs =
      ⌈(policy.cost - tokensFound policy t key) / policy.refillRatePerSecond * 1000⌉ :=
    if_neg (not_le.mpr hdenied)
  have hnn : 0 ≤
      ⌈(policy.cost - tokensFound policy t key) / policy.refillRatePerSecond * 1000⌉ := by
    have hrate := policy.refillRate_pos
    have hgap : 0 ≤ (policy.cost : ℚ) - tokensFound policy t key := by linarith
    exact Int.ceil_nonneg (by positivity)
  rw [RetryTruthful, hmax, hreply]
  constructor
  · intro h
    obtain ⟨-, -, hallowed⟩ := h ha
    exact ((allowed_after_iff ht hx hdenied (by omega)).mp hallowed).1
  · intro hlater _
    refine ⟨⟨⟨hnn, ?_⟩, ?_⟩, ?_, ?_⟩
    · rw [allowed_after_iff ht hx hdenied hnn]
      exact ⟨deadlineInRange_mono hlater (by omega), le_rfl⟩
    · rintro d ⟨hd, hallowed⟩
      exact ((allowed_after_iff ht hx hdenied hd).mp hallowed).2
    · rw [lookup_retryAfter ha, hmax]
    · rw [allowed_after_iff ht hx hdenied (by omega)]
      exact ⟨hlater, hms⟩

/-- In the millisecond of a check the bucket holds what the check has left. -/
theorem tokensFound_at_once (key : Redis.Key Bucket) (ht : 0 ≤ t)
    (hx : DeadlineInRange policy t) :
    tokensFound policy t (evalBucket policy t key).2 =
      consume policy.cost (tokensFound policy t key) := by
  have h : tokensFound policy (t + 0) (evalBucket policy t key).2 = _ :=
    tokensFound_after ht hx le_rfl
  rw [add_zero, Int.cast_zero] at h
  exact h.trans (Reservoir.level_zero (written_tokens policy t key).2)

/-- Checks in one millisecond draw on the bucket as it stands. -/
theorem tokensFound_replicate (ht : 0 ≤ t) (hx : DeadlineInRange policy t) (n : ℕ) :
    tokensFound policy t
        ((checks policy).run (evalBucket policy t key).2 (List.replicate n t)) =
      (consume (policy.cost : ℚ))^[n] (consume policy.cost (tokensFound policy t key)) := by
  induction n generalizing key with
  | zero => exact tokensFound_at_once key ht hx
  | succ n ih =>
    have hstep : (checks policy).run (evalBucket policy t key).2 (List.replicate (n + 1) t) =
        (checks policy).run (evalBucket policy t (evalBucket policy t key).2).2
          (List.replicate n t) := rfl
    rw [hstep, ih, tokensFound_at_once key ht hx, Function.iterate_succ_apply]

theorem remainingTruthful {decision : RateLimitDecision} (ht : 0 ≤ t)
    (hx : DeadlineInRange policy t)
    (hr : decision.remaining = ⌊consume policy.cost (tokensFound policy t key)⌋) :
    RemainingTruthful policy t (evalBucket policy t key).2 decision := by
  refine ⟨lookup_remaining decision, ?_⟩
  intro n
  rw [allowed_iff ht, tokensFound_replicate ht hx, and_iff_right hx, hr]
  exact Reservoir.le_draw_iterate_iff_floor (cost_pos policy) n _

theorem resetTruthful {decision : RateLimitDecision} (ht : 0 ≤ t)
    (hx : DeadlineInRange policy t)
    (hr : decision.resetAfterSeconds = ⌈(policy.capacity -
      consume policy.cost (tokensFound policy t key)) / policy.refillRatePerSecond⌉) :
    ResetTruthful policy t (evalBucket policy t key).2 decision := by
  refine ⟨lookup_reset decision, ?_⟩
  intro u hu
  have hms := ceil_ms_le policy (policy.capacity - consume policy.cost (tokensFound policy t key))
  have hnn : 0 ≤ ⌈(policy.capacity - consume policy.cost (tokensFound policy t key)) /
      policy.refillRatePerSecond * 1000⌉ := by
    have hc := (written_tokens policy t key).2
    have hrate := policy.refillRate_pos
    have hgap : 0 ≤ policy.capacity - consume policy.cost (tokensFound policy t key) :=
      sub_nonneg.mpr hc
    exact Int.ceil_nonneg (by positivity)
  rw [hr] at hu
  obtain ⟨d, rfl⟩ : ∃ d, u = t + d := ⟨u - t, by omega⟩
  rw [tokensFound_after ht hx (by omega)]
  apply Reservoir.level_eq_capacity (ratePerMs_pos policy)
  rw [← div_rate_mul, ← Int.ceil_le]
  omega

/-- Exactly when the figures of a check are true: Redis must be able to store its deadline,
and after a denial also the deadline of the check that the client is told to wait for. -/
theorem figures_truthful_iff (policy : RateLimitPolicy) (t : ℤ) (key : Redis.Key Bucket)
    (ht : 0 ≤ t) :
    FiguresTruthful policy t key ↔
      DeadlineInRange policy t ∧
        (tokensFound policy t key < policy.cost →
          DeadlineInRange policy (t + 1000 *
            ⌈(policy.cost - tokensFound policy t key) / policy.refillRatePerSecond⌉)) := by
  rcases le_or_gt (t + policy.stateTtlMs) Redis.maxExpiry with hx | hx
  · obtain ⟨h0, hc⟩ := tokensFound_range policy t key
    obtain ⟨decision, hdecision, hallowed, hremaining, hretry, hreset⟩ :=
      decisionOf_replyTo policy h0 hc
    have hreply : (evalBucket policy t key).1 =
        .ok (replyTo policy (tokensFound policy t key)) := by
      rw [evalBucket_of_le policy key ht hx]
    have hfigures : FiguresTruthful policy t key ↔
        RetryTruthful policy t (evalBucket policy t key).2
          (replyTo policy (tokensFound policy t key)) decision := by
      constructor
      · rintro ⟨reply, decision', hr, hd, h, -⟩
        cases hreply.symm.trans hr
        cases hdecision.symm.trans hd
        exact h
      · intro h
        exact ⟨_, decision, hreply, hdecision, h, remainingTruthful ht hx hremaining,
          resetTruthful ht hx hreset⟩
    rw [hfigures]
    rcases lt_or_ge (tokensFound policy t key) policy.cost with hdenied | henough
    · have ha : decision.allowed = false := by
        rw [← Bool.not_eq_true, hallowed]
        exact not_le.mpr hdenied
      rw [retryTruthful_iff ht hx hdenied ha (hretry hdenied)]
      exact ⟨fun h => ⟨hx, fun _ => h⟩, fun h => h.2 hdenied⟩
    · have ha : decision.allowed = true := hallowed.mpr henough
      constructor
      · intro _
        exact ⟨hx, fun h => (not_le.mpr h henough).elim⟩
      · intro _ hfalse
        rw [ha] at hfalse
        cases hfalse
  · constructor
    · rintro ⟨reply, decision, hr, -⟩
      rw [evalBucket_of_lt policy key ht hx] at hr
      cases hr
    · rintro ⟨hr, -⟩
      exact (not_le.mpr hx hr).elim

/-- An empty proxy bucket: the denied client is told to come back in one second. -/
theorem figures_truthful_denied :
    (0 : ℤ) ≤ 90000 ∧
      FiguresTruthful proxyRateLimitPolicy 90000 (some ⟨⟨0, 90000⟩, some 210000⟩) := by
  refine ⟨by omega, (figures_truthful_iff _ _ _ (by omega)).mpr ?_⟩
  have httl : proxyRateLimitPolicy.stateTtlMs = 120000 := by
    norm_num [RateLimitPolicy.stateTtlMs, RateLimitPolicy.stateTtlSeconds, proxyRateLimitPolicy]
  have hfound : tokensFound proxyRateLimitPolicy 90000 (some ⟨⟨0, 90000⟩, some 210000⟩) = 0 := by
    rw [tokensFound, Redis.Key.live_some_of_le (by omega)]
    norm_num [refill, proxyRateLimitPolicy]
  rw [DeadlineInRange, DeadlineInRange, hfound, httl]
  norm_num [Redis.maxExpiry, proxyRateLimitPolicy]

/-- One token in `2 ^ 80` seconds. -/
def slowPolicy : RateLimitPolicy where
  name := "slow"
  capacity := 1
  refillRatePerSecond := 1 / 2 ^ 80
  cost := 1
  name_matches := by decide
  capacity_range := by decide
  refillRate_range := by norm_num
  cost_range := by decide

theorem create_slowPolicy : RateLimitPolicy.create "slow" 1 (1 / 2 ^ 80) 1 = .ok slowPolicy := by
  have hstrip : Python.strip "slow" = "slow" := by decide
  have hname : policyNameMatches "slow" = true := by decide
  norm_num [RateLimitPolicy.create, hstrip, hname, slowPolicy]

theorem slowPolicy_outOfRange : Redis.maxExpiry < 0 + slowPolicy.stateTtlMs := by
  norm_num [RateLimitPolicy.stateTtlMs, RateLimitPolicy.stateTtlSeconds, slowPolicy,
    Redis.maxExpiry]

/-- The constructor accepts a rate so low that no check of the policy is ever answered: the
time to live does not fit into Redis's range, and PEXPIRE fails. -/
theorem slow_policy_unanswered :
    RateLimitPolicy.create "slow" 1 (1 / 2 ^ 80) 1 = .ok slowPolicy ∧
      ¬ FiguresTruthful slowPolicy 0 none := by
  refine ⟨create_slowPolicy, ?_⟩
  rintro ⟨reply, decision, hr, -⟩
  rw [evalBucket_of_lt slowPolicy none le_rfl slowPolicy_outOfRange] at hr
  cases hr

end SecureGateway.RateLimit
