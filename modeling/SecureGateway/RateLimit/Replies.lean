import SecureGateway.Login.Protection
import SecureGateway.Python.Numbers
import SecureGateway.RateLimit.Delays
import SecureGateway.RateLimit.TokenBucket

/-!
# Replies of Redis

`RedisRateLimiter._parse_result` and `RedisLoginProtection._parse_decision` on whatever
redis-py hands them. The conversions stand in a `try`; the divisions of the delays do not.
-/
namespace SecureGateway.Gateway

open RateLimit Python

inductive RawReply where
  /-- Neither a list nor a tuple. -/
  | other
  | sequence (items : List Scalar)

/-- `math.ceil(ms / 1000)`. -/
def ceilSeconds (ms : ℤ) : Except Raised ℤ :=
  match trueDiv ms 1000 with
  | .ok quotient => .ok ⌈quotient⌉
  | .error _ => .error (.other "OverflowError")

variable (decimal : Char → Option ℕ)

/-- The `try` around the conversions. -/
def converted {α : Type} (backend : Raised) : Except ConversionError α → Except Raised α
  | .ok a => .ok a
  | .error .typeError | .error .valueError | .error .overflowError => .error backend

section RateLimiter

/-- `RateLimitDecision(...)`: the checks in the order of `__post_init__`. -/
def createRateLimitDecision (allowed : Bool)
    (limit remaining retryAfterSeconds resetAfterSeconds : ℤ) : Except Raised RateLimitDecision :=
  if hl : 1 ≤ limit then
    if hr : 0 ≤ remaining ∧ remaining ≤ limit then
      if ha : 0 ≤ retryAfterSeconds then
        if hs : 0 ≤ resetAfterSeconds then
          if hd : allowed = true → retryAfterSeconds = 0 then
            .ok ⟨allowed, limit, remaining, retryAfterSeconds, resetAfterSeconds, hl, hr, ha, hs,
              hd⟩
          else .error (.valueError "An allowed request cannot have a retry delay.")
        else .error (.valueError "reset_after_seconds must be a non-negative integer.")
      else .error (.valueError "retry_after_seconds must be a non-negative integer.")
    else .error (.valueError "remaining must be between 0 and limit.")
  else .error (.valueError "limit must be a positive integer.")

/-- The four values, converted. -/
structure RateLimitReading where
  allowed : ℤ
  tokens : Binary64
  retryAfterMs : ℤ
  resetAfterMs : ℤ
  deriving DecidableEq

def RawReply.rateLimitReading : RawReply → Except Raised RateLimitReading
  | .sequence [allowed, tokens, retryAfterMs, resetAfterMs] =>
    converted (.rateLimitBackend "Redis returned malformed rate-limit values.") do
      let allowed ← allowed.toInt decimal
      let tokens ← tokens.toFloat decimal
      let retryAfterMs ← retryAfterMs.toInt decimal
      let resetAfterMs ← resetAfterMs.toInt decimal
      return ⟨allowed, tokens, retryAfterMs, resetAfterMs⟩
  | _ => .error (.rateLimitBackend "Redis returned an invalid rate-limit response.")

/-- `_parse_result` behind the conversions. -/
def decideRateLimit (policy : RateLimitPolicy) (reading : RateLimitReading) :
    Except Raised RateLimitDecision :=
  if reading.allowed ≠ 0 ∧ reading.allowed ≠ 1 then
    .error (.rateLimitBackend "Redis returned an invalid rate-limit decision.")
  else
    match reading.tokens with
    | .finite tokens =>
      if reading.retryAfterMs < 0 ∨ reading.resetAfterMs < 0 then
        .error (.rateLimitBackend "Redis returned invalid rate-limit measurements.")
      else do
        let remaining := max 0 (min (policy.capacity : ℤ) ⌊tokens⌋)
        let allowed := decide (reading.allowed = 1)
        let retryAfterSeconds ← if allowed then .ok 0 else ceilSeconds reading.retryAfterMs
        let resetAfterSeconds ← ceilSeconds reading.resetAfterMs
        createRateLimitDecision allowed policy.capacity remaining retryAfterSeconds
          resetAfterSeconds
    | .infinity _ | .nan =>
      .error (.rateLimitBackend "Redis returned invalid rate-limit measurements.")

/-- `RedisRateLimiter._parse_result`. -/
def RedisRateLimiter.parseResult (policy : RateLimitPolicy) (raw : RawReply) :
    Except Raised RateLimitDecision := do
  let reading ← raw.rateLimitReading decimal
  decideRateLimit policy reading

end RateLimiter

section LoginProtection

/-- `LoginProtectionDecision(...)`: the checks in the order of `__post_init__`. -/
def createLoginProtectionDecision (locked : Bool) (failures retryAfterSeconds : ℤ) :
    Except Raised LoginProtectionDecision :=
  if failures < 0 then .error (.valueError "failures must be a non-negative integer.")
  else if retryAfterSeconds < 0 then
    .error (.valueError "retry_after_seconds must be a non-negative integer.")
  else if locked = false ∧ retryAfterSeconds ≠ 0 then
    .error (.valueError "An unlocked account cannot have a retry delay.")
  else .ok ⟨locked, failures, retryAfterSeconds⟩

/-- The three values, converted. -/
def RawReply.loginReading : RawReply → Except Raised Login.LoginReply
  | .sequence [locked, failures, retryAfterMs] =>
    converted (.loginProtectionBackend "Redis returned malformed login-protection values.") do
      let locked ← locked.toInt decimal
      let failures ← failures.toInt decimal
      let retryAfterMs ← retryAfterMs.toInt decimal
      return ⟨locked, failures, retryAfterMs⟩
  | _ => .error (.loginProtectionBackend "Redis returned an invalid login-protection response.")

/-- `_parse_decision` behind the conversions. -/
def decideLogin (reading : Login.LoginReply) : Except Raised LoginProtectionDecision :=
  if reading.locked ≠ 0 ∧ reading.locked ≠ 1 then
    .error (.loginProtectionBackend "Redis returned an invalid lock state.")
  else if reading.failures < 0 ∨ reading.retryAfterMs < 0 then
    .error (.loginProtectionBackend "Redis returned invalid login-protection measurements.")
  else if reading.locked ≠ 1 ∧ reading.retryAfterMs ≠ 0 then
    .error (.loginProtectionBackend "Redis returned an inconsistent login-protection response.")
  else do
    let locked := decide (reading.locked = 1)
    let retryAfterSeconds ← if locked then ceilSeconds reading.retryAfterMs else .ok 0
    createLoginProtectionDecision locked reading.failures retryAfterSeconds

/-- `RedisLoginProtection._parse_decision`, conversions included. -/
def RedisLoginProtection.parseRawDecision (raw : RawReply) :
    Except Raised LoginProtectionDecision := do
  let reading ← raw.loginReading decimal
  decideLogin reading

end LoginProtection

section Delays

/-- From this delay on, its quotient by 1000 is no double. -/
@[irreducible] def overflowMs : ℤ := 1000 * (2 ^ 1024 - 2 ^ 970)

variable {ms : ℤ}

theorem cast_overflowMs : (overflowMs : ℚ) = (2 ^ 1024 - 2 ^ 970) * 1000 := by
  have h (m n : ℕ) : ((1000 * (2 ^ m - 2 ^ n) : ℤ) : ℚ) = (2 ^ m - 2 ^ n) * 1000 := by
    push_cast
    ring
  unfold overflowMs
  exact h 1024 970

/-- The whole of `ceilSeconds` on a delay. -/
theorem ceilSeconds_eq (h : 0 ≤ ms) :
    ceilSeconds ms =
      if ms < overflowMs then .ok ⌈Binary64.round ((ms : ℚ) / 1000)⌉
      else .error (.other "OverflowError") := by
  have hx : (0 : ℚ) ≤ (ms : ℚ) / 1000 := by
    have : (0 : ℚ) ≤ ms := by exact_mod_cast h
    positivity
  have hover : 2 ^ 1024 ≤ |Binary64.round ((ms : ℚ) / (1000 : ℤ))| ↔ overflowMs ≤ ms := by
    rw [Int.cast_ofNat, abs_of_nonneg (Binary64.round_nonneg hx), Binary64.overflow_iff hx,
      le_div_iff₀ (by norm_num), ← cast_overflowMs, Int.cast_le]
  rcases lt_or_ge ms overflowMs with hlt | hge
  · rw [ceilSeconds, trueDiv, if_neg (hover.not.mpr (not_le.mpr hlt)), if_pos hlt,
      Int.cast_ofNat]
  · rw [ceilSeconds, trueDiv, if_pos (hover.mpr hge), if_neg (not_lt.mpr hge)]

theorem ceilSeconds_nonneg {seconds : ℤ} (h : 0 ≤ ms) (hs : ceilSeconds ms = .ok seconds) :
    0 ≤ seconds := by
  rw [ceilSeconds_eq h] at hs
  split at hs
  · cases hs
    apply Int.ceil_nonneg
    apply Binary64.round_nonneg
    have : (0 : ℚ) ≤ ms := by exact_mod_cast h
    positivity
  · cases hs

/-- The delay reaches the client rounded up, as it was meant to. -/
def DelayKept (ms : ℤ) : Prop := ms < overflowMs ∧ CeilingKept ms.toNat

theorem ceilSeconds_exact_iff (h : 0 ≤ ms) :
    ceilSeconds ms = .ok ⌈(ms : ℚ) / 1000⌉ ↔ DelayKept ms := by
  obtain ⟨n, rfl⟩ := Int.eq_ofNat_of_zero_le h
  rw [ceilSeconds_eq h, DelayKept, Int.toNat_natCast, ← ceil_round_iff, Int.cast_natCast]
  split
  · next hlt => simp [hlt]
  · next hge => simp [hge]

theorem lt_overflowMs (h : ms < 2 ^ 64) : ms < overflowMs := by
  have hshort : (2 : ℤ) ^ 64 ≤ 2 ^ 970 := pow_le_pow_right₀ one_le_two (by decide)
  have hdouble : (2 : ℤ) ^ 971 = 2 * 2 ^ 970 := pow_succ' 2 970
  have htop : (2 : ℤ) ^ 971 ≤ 2 ^ 1024 := pow_le_pow_right₀ one_le_two (by decide)
  unfold overflowMs
  generalize (2 : ℤ) ^ 970 = a at *
  generalize (2 : ℤ) ^ 971 = b at *
  generalize (2 : ℤ) ^ 1024 = c at *
  omega

/-- Delays of less than `2 ^ 44` seconds are kept. -/
theorem delayKept_of_short (h : ms < 1000 * 2 ^ 44) : DelayKept ms :=
  ⟨lt_overflowMs (by omega), ceilingKept_of_lt (by omega)⟩

theorem ceilSeconds_short (h0 : 0 ≤ ms) (h : ms < 1000 * 2 ^ 44) :
    ceilSeconds ms = .ok ⌈(ms : ℚ) / 1000⌉ :=
  (ceilSeconds_exact_iff h0).mpr (delayKept_of_short h)

end Delays

/-- Decoding ends in a good decision, or in the error that the callers answer with 503. -/
def FailClosed {α : Type} (backend : String → Raised) (good : α → Prop) : Except Raised α → Prop
  | .ok decision => good decision
  | .error error => ∃ message, error = backend message

section RateLimiterDecoding

/-- What a decision says of the values it was read from; the constraints of its `__post_init__`
are those of its type. -/
structure RateLimitDecoded (policy : RateLimitPolicy) (reading : RateLimitReading)
    (d : RateLimitDecision) : Prop where
  limit : d.limit = policy.capacity
  remaining : 0 ≤ d.remaining ∧ d.remaining ≤ policy.capacity
  noDelay : d.allowed = true → d.retryAfterSeconds = 0
  delay : d.allowed = false → d.retryAfterSeconds = ⌈(reading.retryAfterMs : ℚ) / 1000⌉

/-- The delays of a reading that passes the checks can be divided, and the one that is reported
keeps its ceiling. -/
def RateLimitReading.DelaysKept (reading : RateLimitReading) : Prop :=
  (reading.allowed = 0 ∨ reading.allowed = 1) → (∃ tokens, reading.tokens = .finite tokens) →
    0 ≤ reading.retryAfterMs → 0 ≤ reading.resetAfterMs →
      reading.resetAfterMs < overflowMs ∧ (reading.allowed = 0 → DelayKept reading.retryAfterMs)

variable {policy : RateLimitPolicy} {reading : RateLimitReading} {tokens : ℚ}

/-- The constructor accepts what `_parse_result` gives it. -/
theorem createRateLimitDecision_ok (policy : RateLimitPolicy) (tokens : ℚ) {allowed : Bool}
    {retry reset : ℤ} (hr : 0 ≤ retry)
    (hs : 0 ≤ reset) (hd : allowed = true → retry = 0) :
    ∃ d, createRateLimitDecision allowed policy.capacity
        (max 0 (min (policy.capacity : ℤ) ⌊tokens⌋)) retry reset = .ok d ∧
      d.limit = policy.capacity ∧ d.allowed = allowed ∧ d.retryAfterSeconds = retry := by
  have hl : (1 : ℤ) ≤ policy.capacity := by exact_mod_cast policy.capacity_range.1
  rw [createRateLimitDecision, dif_pos hl, dif_pos (by omega), dif_pos hr, dif_pos hs, dif_pos hd]
  exact ⟨_, rfl, rfl, rfl, rfl⟩

/-- A reading that passes the checks of its values. -/
theorem decideRateLimit_eq (ha : reading.allowed = 0 ∨ reading.allowed = 1)
    (ht : reading.tokens = .finite tokens) (hr : 0 ≤ reading.retryAfterMs)
    (hs : 0 ≤ reading.resetAfterMs) :
    decideRateLimit policy reading = (do
      let retryAfterSeconds ←
        if decide (reading.allowed = 1) then .ok 0 else ceilSeconds reading.retryAfterMs
      let resetAfterSeconds ← ceilSeconds reading.resetAfterMs
      createRateLimitDecision (decide (reading.allowed = 1)) policy.capacity
        (max 0 (min (policy.capacity : ℤ) ⌊tokens⌋)) retryAfterSeconds resetAfterSeconds) := by
  rw [decideRateLimit, if_neg (by omega), ht]
  dsimp only
  rw [if_neg (by omega)]

theorem not_failClosed_overflow {α : Type} {backend : String → Raised} {good : α → Prop}
    (hb : ∀ message, backend message ≠ .other "OverflowError") :
    ¬ FailClosed backend good (.error (.other "OverflowError")) := by
  rintro ⟨message, h⟩
  exact hb message h.symm

/-- The last division, and the constructor. -/
theorem finish_failClosed {allowed : Bool} {retry : ℤ} (hr : 0 ≤ retry)
    (hd : allowed = true → retry = 0) (hs : 0 ≤ reading.resetAfterMs) :
    FailClosed .rateLimitBackend (RateLimitDecoded policy reading) (do
      let resetAfterSeconds ← ceilSeconds reading.resetAfterMs
      createRateLimitDecision allowed policy.capacity
        (max 0 (min (policy.capacity : ℤ) ⌊tokens⌋)) retry resetAfterSeconds) ↔
      reading.resetAfterMs < overflowMs ∧
        (allowed = false → retry = ⌈(reading.retryAfterMs : ℚ) / 1000⌉) := by
  cases hreset : ceilSeconds reading.resetAfterMs with
  | error e =>
    rw [ceilSeconds_eq hs] at hreset
    split at hreset
    · cases hreset
    · next hover =>
      cases hreset
      refine iff_of_false (not_failClosed_overflow ?_) fun h => hover h.1
      intro message h
      cases h
  | ok reset =>
    have hnonneg := ceilSeconds_nonneg hs hreset
    have hlt : reading.resetAfterMs < overflowMs := by
      by_contra hover
      rw [ceilSeconds_eq hs, if_neg hover] at hreset
      cases hreset
    obtain ⟨d, hcreate, hlimit, hallowed, hretry⟩ :=
      createRateLimitDecision_ok policy tokens hr hnonneg hd
    change FailClosed _ _ (createRateLimitDecision _ _ _ _ _) ↔ _
    rw [hcreate]
    constructor
    · intro h
      refine ⟨hlt, fun ha => ?_⟩
      rw [← hretry]
      exact h.delay (hallowed.trans ha)
    · rintro ⟨-, hdelay⟩
      refine ⟨hlimit, hlimit ▸ d.remaining_range, fun ha => ?_, fun ha => ?_⟩
      · rw [hretry]
        exact hd (hallowed.symm.trans ha)
      · rw [hretry]
        exact hdelay (hallowed.symm.trans ha)

theorem decideRateLimit_failClosed_iff (policy : RateLimitPolicy) (reading : RateLimitReading) :
    FailClosed .rateLimitBackend (RateLimitDecoded policy reading)
      (decideRateLimit policy reading) ↔ reading.DelaysKept := by
  by_cases ha : reading.allowed = 0 ∨ reading.allowed = 1
  swap
  · rw [decideRateLimit, if_pos (by omega)]
    exact iff_of_true ⟨_, rfl⟩ fun h => (ha h).elim
  by_cases ht : ∃ tokens, reading.tokens = .finite tokens
  swap
  · rw [decideRateLimit, if_neg (by omega)]
    refine iff_of_true ?_ fun _ h => (ht h).elim
    split
    · next tokens htokens => exact (ht ⟨tokens, htokens⟩).elim
    · exact ⟨_, rfl⟩
    · exact ⟨_, rfl⟩
  obtain ⟨tokens, ht'⟩ := ht
  by_cases hsign : 0 ≤ reading.retryAfterMs ∧ 0 ≤ reading.resetAfterMs
  swap
  · rw [decideRateLimit, if_neg (by omega), ht']
    dsimp only
    rw [if_pos (by omega)]
    exact iff_of_true ⟨_, rfl⟩ fun _ _ hr hs => (hsign ⟨hr, hs⟩).elim
  obtain ⟨hr, hs⟩ := hsign
  have hkept : reading.DelaysKept ↔
      reading.resetAfterMs < overflowMs ∧ (reading.allowed = 0 → DelayKept reading.retryAfterMs) :=
    ⟨fun h => h ha ⟨tokens, ht'⟩ hr hs, fun h _ _ _ _ => h⟩
  rw [decideRateLimit_eq ha ht' hr hs, hkept]
  rcases ha with ha | ha
  · have hdecide : decide (reading.allowed = 1) = false := decide_eq_false (by omega)
    rw [hdecide]
    cases hretry : ceilSeconds reading.retryAfterMs with
    | error e =>
      have hnot : ¬ DelayKept reading.retryAfterMs := by
        rw [← ceilSeconds_exact_iff hr, hretry]
        intro h
        cases h
      rw [ceilSeconds_eq hr] at hretry
      split at hretry
      · cases hretry
      · cases hretry
        refine iff_of_false (not_failClosed_overflow ?_) fun h => hnot (h.2 ha)
        intro message h
        cases h
    | ok retry =>
      have hexact : retry = ⌈(reading.retryAfterMs : ℚ) / 1000⌉ ↔
          DelayKept reading.retryAfterMs := by
        rw [← ceilSeconds_exact_iff hr, hretry, Except.ok.injEq]
      refine (finish_failClosed (ceilSeconds_nonneg hr hretry) (fun h => by cases h) hs).trans ?_
      rw [hexact]
      simp [ha]
  · have hdecide : decide (reading.allowed = 1) = true := decide_eq_true ha
    rw [hdecide]
    refine (finish_failClosed le_rfl (fun _ => rfl) hs).trans ?_
    simp [ha]

end RateLimiterDecoding

section LoginDecoding

structure LoginDecoded (reading : Login.LoginReply) (d : LoginProtectionDecision) : Prop where
  failures : 0 ≤ d.failures
  retryAfter : 0 ≤ d.retryAfterSeconds
  noDelay : d.locked = false → d.retryAfterSeconds = 0
  delay : d.locked = true → d.retryAfterSeconds = ⌈(reading.retryAfterMs : ℚ) / 1000⌉

/-- The same of a reading of a login state: only a lock has a delay. -/
def LoginDelayKept (reading : Login.LoginReply) : Prop :=
  reading.locked = 1 → 0 ≤ reading.failures → 0 ≤ reading.retryAfterMs →
    DelayKept reading.retryAfterMs

theorem createLoginProtectionDecision_ok {locked : Bool} {failures retry : ℤ} (hf : 0 ≤ failures)
    (hr : 0 ≤ retry) (hd : locked = false → retry = 0) :
    createLoginProtectionDecision locked failures retry = .ok ⟨locked, failures, retry⟩ := by
  have hdelay : ¬ (locked = false ∧ retry ≠ 0) := fun h => h.2 (hd h.1)
  rw [createLoginProtectionDecision, if_neg (by omega), if_neg (by omega), if_neg hdelay]

theorem decideLogin_failClosed_iff (reading : Login.LoginReply) :
    FailClosed .loginProtectionBackend (LoginDecoded reading) (decideLogin reading) ↔
      LoginDelayKept reading := by
  rw [decideLogin]
  split
  · exact iff_of_true ⟨_, rfl⟩ fun h => by omega
  next hl =>
  split
  · exact iff_of_true ⟨_, rfl⟩ fun _ hf hr => by omega
  next hsign =>
  have hf : 0 ≤ reading.failures := by omega
  have hr : 0 ≤ reading.retryAfterMs := by omega
  split
  · exact iff_of_true ⟨_, rfl⟩ fun h => by omega
  by_cases hlock : reading.locked = 1
  · have hkept : LoginDelayKept reading ↔ DelayKept reading.retryAfterMs :=
      ⟨fun h => h hlock hf hr, fun h _ _ _ => h⟩
    rw [decide_eq_true hlock, hkept, ← ceilSeconds_exact_iff hr]
    cases hretry : ceilSeconds reading.retryAfterMs with
    | error e =>
      rw [ceilSeconds_eq hr] at hretry
      split at hretry
      · cases hretry
      · cases hretry
        refine iff_of_false (not_failClosed_overflow ?_) ?_
        · intro message h
          cases h
        · intro h
          cases h
    | ok retry =>
      have hnonneg := ceilSeconds_nonneg hr hretry
      change FailClosed _ _ (createLoginProtectionDecision true reading.failures retry) ↔ _
      rw [createLoginProtectionDecision_ok hf hnonneg (fun h => by cases h), Except.ok.injEq]
      constructor
      · intro h
        exact h.delay rfl
      · intro h
        exact ⟨hf, hnonneg, (fun h' => by cases h'), fun _ => h⟩
  · rw [decide_eq_false hlock]
    refine iff_of_true ?_ fun h => (hlock h).elim
    change FailClosed _ _ (createLoginProtectionDecision false reading.failures 0)
    rw [createLoginProtectionDecision_ok hf le_rfl fun _ => rfl]
    exact ⟨hf, le_rfl, (fun _ => rfl), fun h => by cases h⟩

end LoginDecoding

section Replies

variable {decimal}

theorem converted_error {α : Type} {backend e : Raised} {r : Except ConversionError α}
    (h : converted backend r = .error e) : e = backend := by
  unfold converted at h
  split at h <;> cases h <;> rfl

theorem rateLimitReading_error {raw : RawReply} {e : Raised}
    (h : raw.rateLimitReading decimal = .error e) : ∃ message, e = .rateLimitBackend message := by
  unfold RawReply.rateLimitReading at h
  split at h
  · exact ⟨_, converted_error h⟩
  · cases h
    exact ⟨_, rfl⟩

theorem loginReading_error {raw : RawReply} {e : Raised}
    (h : raw.loginReading decimal = .error e) : ∃ message, e = .loginProtectionBackend message := by
  unfold RawReply.loginReading at h
  split at h
  · exact ⟨_, converted_error h⟩
  · cases h
    exact ⟨_, rfl⟩

theorem parseResult_of_reading {policy : RateLimitPolicy} {raw : RawReply}
    {reading : RateLimitReading} (h : raw.rateLimitReading decimal = .ok reading) :
    RedisRateLimiter.parseResult decimal policy raw = decideRateLimit policy reading := by
  rw [RedisRateLimiter.parseResult, h]
  rfl

theorem parseRawDecision_of_reading {raw : RawReply} {reading : Login.LoginReply}
    (h : raw.loginReading decimal = .ok reading) :
    RedisLoginProtection.parseRawDecision decimal raw = decideLogin reading := by
  rw [RedisLoginProtection.parseRawDecision, h]
  rfl

/-- Decoding fails closed exactly where its decision on the converted values does. -/
theorem failClosed_bind_iff {α β : Type} {backend : String → Raised} {read : Except Raised α}
    {decide : α → Except Raised β} {good : α → β → Prop} {kept : α → Prop}
    (herror : ∀ e, read = .error e → ∃ message, e = backend message)
    (hdecide : ∀ a, FailClosed backend (good a) (decide a) ↔ kept a) :
    FailClosed backend (fun b => ∃ a, read = .ok a ∧ good a b) (read >>= decide) ↔
      ∀ a, read = .ok a → kept a := by
  cases read with
  | error e => exact iff_of_true (herror e rfl) fun a h => by cases h
  | ok a =>
    have hgood : (fun b => ∃ a', (.ok a : Except Raised α) = .ok a' ∧ good a' b) = good a := by
      funext b
      simp
    rw [hgood]
    refine (hdecide a).trans ⟨fun h a' ha => ?_, fun h => h a rfl⟩
    cases ha
    exact h

section Claims

variable (decimal)

/-- What is promised of `_parse_result` on one reply. -/
def RateLimitFailClosed (policy : RateLimitPolicy) (raw : RawReply) : Prop :=
  FailClosed .rateLimitBackend
    (fun d => ∃ reading, raw.rateLimitReading decimal = .ok reading ∧
      RateLimitDecoded policy reading d)
    (RedisRateLimiter.parseResult decimal policy raw)

/-- What is promised of `_parse_decision` on one reply. -/
def LoginFailClosed (raw : RawReply) : Prop :=
  FailClosed .loginProtectionBackend
    (fun d => ∃ reading, raw.loginReading decimal = .ok reading ∧ LoginDecoded reading d)
    (RedisLoginProtection.parseRawDecision decimal raw)

theorem rateLimitFailClosed_iff (policy : RateLimitPolicy) (raw : RawReply) :
    RateLimitFailClosed decimal policy raw ↔
      ∀ reading, raw.rateLimitReading decimal = .ok reading → reading.DelaysKept :=
  failClosed_bind_iff (fun _ => rateLimitReading_error) (decideRateLimit_failClosed_iff policy)

theorem loginFailClosed_iff (raw : RawReply) :
    LoginFailClosed decimal raw ↔
      ∀ reading, raw.loginReading decimal = .ok reading → LoginDelayKept reading :=
  failClosed_bind_iff (fun _ => loginReading_error) decideLogin_failClosed_iff

end Claims

/-- Both decoders fail closed, and report the ceiling of the delay, exactly on the replies whose
delays a double can carry. -/
theorem replies_fail_closed_iff (decimal : Char → Option ℕ) :
    (∀ (policy : RateLimitPolicy) (raw : RawReply),
      RateLimitFailClosed decimal policy raw ↔
        ∀ reading, raw.rateLimitReading decimal = .ok reading → reading.DelaysKept) ∧
    ∀ raw : RawReply,
      LoginFailClosed decimal raw ↔
        ∀ reading, raw.loginReading decimal = .ok reading → LoginDelayKept reading :=
  ⟨rateLimitFailClosed_iff decimal, loginFailClosed_iff decimal⟩

section Failing

theorem overflowMs_le : overflowMs ≤ 10 ^ 400 := by
  have hpow : (2 : ℤ) ^ 1024 ≤ 10 ^ 397 := by
    calc (2 : ℤ) ^ 1024 ≤ 2 ^ (3 * 397) := pow_le_pow_right₀ one_le_two (by decide)
      _ = (2 ^ 3) ^ 397 := pow_mul 2 3 397
      _ ≤ 10 ^ 397 := pow_le_pow_left₀ (by decide) (by decide) 397
  have hsplit : (10 : ℤ) ^ 400 = 1000 * 10 ^ 397 := pow_add 10 3 397
  have hpos : (0 : ℤ) < 2 ^ 970 := pow_pos two_pos 970
  unfold overflowMs
  rw [hsplit]
  generalize (2 : ℤ) ^ 970 = a at *
  generalize (2 : ℤ) ^ 1024 = b at *
  generalize (10 : ℤ) ^ 397 = c at *
  omega

/-- One millisecond more than `2 ^ 44` seconds. -/
theorem ceilSeconds_lost : ceilSeconds 17592186044416001 = .ok 17592186044416 := by
  have hulp : Binary64.ulp (17592186044416001 / 1000) = 1 / 256 := by
    rw [Binary64.ulp, Binary64.exponent_of_pow_le (k := 44) (by norm_num) (by norm_num)]
    norm_num
  have hround : Binary64.roundEven (17592186044416001 / 1000 / (1 / 256)) = 4503599627370496 := by
    apply le_antisymm
    · rw [← not_lt, Binary64.lt_roundEven_iff]
      norm_num
    · apply Binary64.le_roundEven
      norm_num
  have hvalue : Binary64.round (17592186044416001 / 1000) = (17592186044416 : ℤ) := by
    rw [Binary64.round, hulp, hround]
    norm_num
  rw [ceilSeconds_eq (by decide), if_pos (lt_overflowMs (by decide)), Int.cast_ofNat, hvalue,
    Int.ceil_intCast]

theorem toFloat_zero : Scalar.toFloat decimal (.int 0) = .ok (.finite 0) := by
  have hround : Binary64.round ((0 : ℤ) : ℚ) = 0 := by
    simp [Binary64.round, Binary64.roundEven]
  have hpos : (0 : ℚ) < 2 ^ 1024 := pow_pos two_pos 1024
  rw [Scalar.toFloat, hround, abs_zero, if_neg (not_le.mpr hpos)]

/-- A denied check whose delay has 401 digits. -/
def hugeDelay : RawReply := .sequence [.int 0, .int 0, .int (10 ^ 400), .int 0]

theorem hugeDelay_reading :
    hugeDelay.rateLimitReading decimal = .ok ⟨0, .finite 0, 10 ^ 400, 0⟩ := by
  simp only [hugeDelay, RawReply.rateLimitReading, Scalar.toInt, toFloat_zero]
  rfl

/-- A lock that ends a millisecond after `2 ^ 44` seconds. -/
def longLock : RawReply := .sequence [.int 1, .int 5, .int 17592186044416001]

theorem longLock_reading :
    longLock.loginReading decimal = .ok ⟨1, 5, 17592186044416001⟩ := rfl

/-- A delay that no double reaches raises `OverflowError` past the `try`; a long one that rounding
takes to a whole second comes out a second short. -/
theorem huge_delays_escape :
    RedisRateLimiter.parseResult asciiDecimal proxyRateLimitPolicy hugeDelay =
        .error (.other "OverflowError") ∧
      ¬ RateLimitFailClosed asciiDecimal proxyRateLimitPolicy hugeDelay ∧
      RedisLoginProtection.parseRawDecision asciiDecimal longLock =
        .ok ⟨true, 5, 17592186044416⟩ ∧
      ¬ LoginFailClosed asciiDecimal longLock := by
  have hparse : RedisRateLimiter.parseResult asciiDecimal proxyRateLimitPolicy hugeDelay =
      .error (.other "OverflowError") := by
    have hceil : ceilSeconds (10 ^ 400) = .error (.other "OverflowError") := by
      rw [ceilSeconds_eq (by positivity), if_neg (not_lt.mpr overflowMs_le)]
    rw [parseResult_of_reading hugeDelay_reading,
      decideRateLimit_eq (Or.inl rfl) rfl (by positivity) le_rfl]
    simp only [hceil]
    rfl
  have hlock : RedisLoginProtection.parseRawDecision asciiDecimal longLock =
      .ok ⟨true, 5, 17592186044416⟩ := by
    rw [parseRawDecision_of_reading longLock_reading]
    simp only [decideLogin, ceilSeconds_lost]
    rfl
  refine ⟨hparse, ?_, hlock, ?_⟩
  · rw [RateLimitFailClosed, hparse]
    refine not_failClosed_overflow ?_
    intro message h
    cases h
  · rw [LoginFailClosed, hlock]
    rintro ⟨reading, hreading, hdecoded⟩
    rw [longLock_reading] at hreading
    cases hreading
    have hdelay := hdecoded.delay rfl
    norm_num at hdelay

end Failing

end Replies

end SecureGateway.Gateway
