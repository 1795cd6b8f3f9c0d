import SecureGateway.Foundation.Expiry
import SecureGateway.RateLimit.Policy

/-!
# The token-bucket script

`TOKEN_BUCKET_SCRIPT` over one Redis key and `RedisRateLimiter.check` around it. Lua numbers
are exact rationals; `tostring` and `tonumber` are exact, so the hash holds the numbers.
-/
namespace SecureGateway.RateLimit

/-- The two fields of the hash. -/
structure Bucket where
  tokens : ℚ
  lastRefillMs : ℤ
  deriving DecidableEq, Repr

/-- The four values the script returns. -/
structure ScriptReply where
  allowed : ℤ
  tokens : ℚ
  retryAfterMs : ℤ
  resetAfterMs : ℤ
  deriving DecidableEq, Repr

/-- The tokens the script compares with the cost: the stored ones clamped, then refilled for
the elapsed time; an absent hash counts as a full bucket. -/
def refill (capacity refillRate : ℚ) (stored : Option Bucket) (nowMs : ℤ) : ℚ :=
  let tokens := stored.elim capacity Bucket.tokens
  let lastRefillMs := stored.elim nowMs Bucket.lastRefillMs
  let tokens := max 0 (min capacity tokens)
  let elapsedMs : ℚ := max 0 (nowMs - lastRefillMs)
  min capacity (tokens + elapsedMs * refillRate / 1000)

/-- The tokens left once the cost has been taken, if there were enough. -/
def consume (requested tokens : ℚ) : ℚ :=
  if requested ≤ tokens then tokens - requested else tokens

/-- `TOKEN_BUCKET_SCRIPT`, run by a server whose clock shows `serverMs`. A PEXPIRE that the
server refuses aborts the script after HSET has already written the hash. -/
def tokenBucketScript (capacity refillRate requested : ℚ) (nowMs ttlMs serverMs : ℤ)
    (key : Redis.Key Bucket) : Except String ScriptReply × Redis.Key Bucket :=
  if capacity ≤ 0 then (.error "invalid capacity", key)
  else if refillRate ≤ 0 then (.error "invalid refill rate", key)
  else if requested ≤ 0 then (.error "invalid token cost", key)
  else if nowMs < 0 then (.error "invalid timestamp", key)
  else if ttlMs ≤ 0 then (.error "invalid ttl", key)
  else
    let state := key.live serverMs
    let tokens := refill capacity refillRate (state.map Redis.Entry.value) nowMs
    let allowed : ℤ := if requested ≤ tokens then 1 else 0
    let retryAfterMs := if requested ≤ tokens then 0 else ⌈(requested - tokens) / refillRate * 1000⌉
    let tokens := consume requested tokens
    let resetAfterMs := ⌈(capacity - tokens) / refillRate * 1000⌉
    let written := state.write ⟨tokens, nowMs⟩
    match Redis.Key.pexpire serverMs ttlMs written with
    | none => (.error "invalid expire time in 'pexpire' command", some written)
    | some final => (.ok ⟨allowed, tokens, retryAfterMs, resetAfterMs⟩, some final)

/-- The part of `_parse_result` behind the conversions: range checks, then the decision. -/
def decisionOf (policy : RateLimitPolicy) (allowedValue : ℤ) (tokens : ℚ)
    (retryAfterMs resetAfterMs : ℤ) : Except String RateLimitDecision :=
  if allowedValue ≠ 0 ∧ allowedValue ≠ 1 then
    .error "Redis returned an invalid rate-limit decision."
  else if h : retryAfterMs < 0 ∨ resetAfterMs < 0 then
    .error "Redis returned invalid rate-limit measurements."
  else
    .ok
      { allowed := allowedValue = 1
        limit := policy.capacity
        remaining := max 0 (min policy.capacity ⌊tokens⌋)
        retryAfterSeconds := if allowedValue = 1 then 0 else ⌈(retryAfterMs : ℚ) / 1000⌉
        resetAfterSeconds := ⌈(resetAfterMs : ℚ) / 1000⌉
        limit_pos := by exact_mod_cast policy.capacity_range.1
        remaining_range := by omega
        retryAfter_nonneg := by
          have hr : (0 : ℚ) ≤ (retryAfterMs : ℚ) / 1000 := by
            have : 0 ≤ retryAfterMs := by omega
            positivity
          split
          · exact le_rfl
          · exact Int.ceil_nonneg hr
        resetAfter_nonneg := by
          have : 0 ≤ resetAfterMs := by omega
          exact Int.ceil_nonneg (by positivity)
        allowed_no_delay := fun ha => if_pos (by simpa using ha) }

/-- `RedisRateLimiter.check` on its key, by a gateway and a server that read one clock. Every
error of the script or of the parser reaches the caller as `RateLimitBackendError`. -/
def check (policy : RateLimitPolicy) (nowMs : ℤ) (key : Redis.Key Bucket) :
    Except String RateLimitDecision × Redis.Key Bucket :=
  let r := tokenBucketScript policy.capacity policy.refillRatePerSecond policy.cost nowMs
    policy.stateTtlMs nowMs key
  (r.1.bind fun reply =>
    decisionOf policy reply.allowed reply.tokens reply.retryAfterMs reply.resetAfterMs, r.2)

variable {policy : RateLimitPolicy} {nowMs : ℤ} {key : Redis.Key Bucket}
  {capacity refillRate : ℚ} {stored : Option Bucket}

theorem refill_nonneg (hc : 0 ≤ capacity) (hr : 0 ≤ refillRate) :
    0 ≤ refill capacity refillRate stored nowMs := by
  refine le_min hc ?_
  have h1 : (0 : ℚ) ≤ max 0 (min capacity (stored.elim capacity Bucket.tokens)) := le_max_left _ _
  have h2 : (0 : ℚ) ≤ max 0 ((nowMs : ℚ) - (stored.elim nowMs Bucket.lastRefillMs : ℤ)) :=
    le_max_left _ _
  positivity

theorem refill_le_capacity : refill capacity refillRate stored nowMs ≤ capacity := min_le_left _ _

theorem refill_none (hc : 0 ≤ capacity) : refill capacity refillRate none nowMs = capacity := by
  simp [refill, hc]

/-- A well-formed hash is refilled from its own tokens and time. -/
theorem refill_some {b : Bucket} (h0 : 0 ≤ b.tokens) (hc : b.tokens ≤ capacity)
    (ht : b.lastRefillMs ≤ nowMs) :
    refill capacity refillRate (some b) nowMs =
      min capacity (b.tokens + ((nowMs : ℚ) - b.lastRefillMs) * refillRate / 1000) := by
  have ht' : (0 : ℚ) ≤ (nowMs : ℚ) - b.lastRefillMs := by
    have : (b.lastRefillMs : ℚ) ≤ nowMs := by exact_mod_cast ht
    linarith
  simp [refill, hc, h0, ht']

theorem consume_nonneg {requested tokens : ℚ} (h0 : 0 ≤ tokens) : 0 ≤ consume requested tokens := by
  unfold consume
  split
  · linarith
  · exact h0

theorem consume_le {requested tokens : ℚ} (hr : 0 ≤ requested) :
    consume requested tokens ≤ tokens := by
  unfold consume
  split
  · linarith
  · exact le_rfl

theorem decisionOf_allowed {allowedValue retryAfterMs resetAfterMs : ℤ} {tokens : ℚ}
    {d : RateLimitDecision}
    (h : decisionOf policy allowedValue tokens retryAfterMs resetAfterMs = .ok d) :
    d.allowed = true ↔ allowedValue = 1 := by
  unfold decisionOf at h
  split at h
  · cases h
  · split at h
    · cases h
    · cases h
      simp

/-- The hash every check writes, whether or not PEXPIRE then succeeds. -/
def written (policy : RateLimitPolicy) (nowMs : ℤ) (key : Redis.Key Bucket) : Bucket :=
  ⟨consume policy.cost (refill policy.capacity policy.refillRatePerSecond
    ((key.live nowMs).map Redis.Entry.value) nowMs), nowMs⟩

/-- The script with the arguments `check` sends. -/
def evalBucket (policy : RateLimitPolicy) (nowMs : ℤ) (key : Redis.Key Bucket) :
    Except String ScriptReply × Redis.Key Bucket :=
  tokenBucketScript policy.capacity policy.refillRatePerSecond policy.cost nowMs
    policy.stateTtlMs nowMs key

/-- The tokens a check finds in its key. -/
def tokensFound (policy : RateLimitPolicy) (nowMs : ℤ) (key : Redis.Key Bucket) : ℚ :=
  refill policy.capacity policy.refillRatePerSecond ((key.live nowMs).map Redis.Entry.value) nowMs

/-- The four values for a check that finds `tokens`. -/
def replyTo (policy : RateLimitPolicy) (tokens : ℚ) : ScriptReply where
  allowed := if (policy.cost : ℚ) ≤ tokens then 1 else 0
  tokens := consume policy.cost tokens
  retryAfterMs :=
    if (policy.cost : ℚ) ≤ tokens then 0
    else ⌈(policy.cost - tokens) / policy.refillRatePerSecond * 1000⌉
  resetAfterMs :=
    ⌈(policy.capacity - consume policy.cost tokens) / policy.refillRatePerSecond * 1000⌉

/-- No argument of a policy trips the script's guards; only PEXPIRE can still fail. -/
theorem evalBucket_eq (policy : RateLimitPolicy) (key : Redis.Key Bucket) (hn : 0 ≤ nowMs) :
    evalBucket policy nowMs key =
      if nowMs + policy.stateTtlMs ≤ Redis.maxExpiry then
        (.ok (replyTo policy (tokensFound policy nowMs key)),
          some ⟨written policy nowMs key, some (nowMs + policy.stateTtlMs)⟩)
      else
        (.error "invalid expire time in 'pexpire' command",
          some ((key.live nowMs).write (written policy nowMs key))) := by
  have hcap : ¬ (policy.capacity : ℚ) ≤ 0 := by
    have := policy.capacity_range.1
    have : (1 : ℚ) ≤ policy.capacity := by exact_mod_cast this
    linarith
  have hcost : ¬ (policy.cost : ℚ) ≤ 0 := by
    have := policy.cost_range.1
    have : (1 : ℚ) ≤ policy.cost := by exact_mod_cast this
    linarith
  have hrate : ¬ policy.refillRatePerSecond ≤ 0 := not_le.mpr policy.refillRate_pos
  have hnow : ¬ nowMs < 0 := by omega
  have httl : ¬ policy.stateTtlMs ≤ 0 := not_le.mpr policy.stateTtlMs_pos
  simp only [evalBucket, tokenBucketScript, if_neg hcap, if_neg hrate, if_neg hcost, if_neg hnow,
    if_neg httl]
  by_cases hx : nowMs + policy.stateTtlMs ≤ Redis.maxExpiry
  · simp only [Redis.Key.pexpire, if_pos hx]
    rfl
  · simp only [Redis.Key.pexpire, if_neg hx]
    rfl

theorem evalBucket_of_le (policy : RateLimitPolicy) (key : Redis.Key Bucket) (hn : 0 ≤ nowMs)
    (hx : nowMs + policy.stateTtlMs ≤ Redis.maxExpiry) :
    evalBucket policy nowMs key =
      (.ok (replyTo policy (tokensFound policy nowMs key)),
        some ⟨written policy nowMs key, some (nowMs + policy.stateTtlMs)⟩) := by
  rw [evalBucket_eq policy key hn, if_pos hx]

theorem evalBucket_of_lt (policy : RateLimitPolicy) (key : Redis.Key Bucket) (hn : 0 ≤ nowMs)
    (hx : Redis.maxExpiry < nowMs + policy.stateTtlMs) :
    evalBucket policy nowMs key =
      (.error "invalid expire time in 'pexpire' command",
        some ((key.live nowMs).write (written policy nowMs key))) := by
  rw [evalBucket_eq policy key hn, if_neg (not_le.mpr hx)]

/-- A check is one evaluation of the script and the decision read from its reply. -/
theorem check_eq (policy : RateLimitPolicy) (t : ℤ) (key : Redis.Key Bucket) :
    check policy t key = ((evalBucket policy t key).1.bind fun reply =>
      decisionOf policy reply.allowed reply.tokens reply.retryAfterMs reply.resetAfterMs,
      (evalBucket policy t key).2) := rfl

/-- What a check does to its key and which decisions it can give. -/
theorem check_cases (policy : RateLimitPolicy) (key : Redis.Key Bucket) (hn : 0 ≤ nowMs) :
    (nowMs + policy.stateTtlMs ≤ Redis.maxExpiry ∧
      (check policy nowMs key).2 =
        some ⟨written policy nowMs key, some (nowMs + policy.stateTtlMs)⟩ ∧
      ∀ d, (check policy nowMs key).1 = .ok d →
        (d.allowed = true ↔ (policy.cost : ℚ) ≤ refill policy.capacity policy.refillRatePerSecond
          ((key.live nowMs).map Redis.Entry.value) nowMs)) ∨
    (Redis.maxExpiry < nowMs + policy.stateTtlMs ∧
      (check policy nowMs key).2 =
        some ((key.live nowMs).write (written policy nowMs key)) ∧
      ∃ message, (check policy nowMs key).1 = .error message) := by
  rcases le_or_gt (nowMs + policy.stateTtlMs) Redis.maxExpiry with hx | hx
  · left
    rw [check_eq, evalBucket_of_le policy key hn hx]
    refine ⟨hx, rfl, ?_⟩
    intro d hd
    rw [decisionOf_allowed hd, replyTo]
    change (if (policy.cost : ℚ) ≤ tokensFound policy nowMs key then (1 : ℤ) else 0) = 1 ↔
      (policy.cost : ℚ) ≤ tokensFound policy nowMs key
    split <;> simp_all
  · right
    rw [check_eq, evalBucket_of_lt policy key hn hx]
    exact ⟨hx, rfl, _, rfl⟩

end SecureGateway.RateLimit
