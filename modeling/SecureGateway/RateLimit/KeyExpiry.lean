import SecureGateway.Foundation.Timed
import SecureGateway.RateLimit.Bound

/-!
# Expiry is invisible

The checks of one key on a server that drops the key at any moment after its deadline, beside
the same checks on a server that never drops it. Both find the same tokens: a bucket that has
reached its deadline is full, and so is an absent one.
-/
namespace SecureGateway.RateLimit

variable {policy : RateLimitPolicy} {t : ℤ} {key : Redis.Key Bucket}

/-- Checks of one key, each with the server's choice whether the key, if it is past its
deadline, has been dropped by then. -/
def expiring (policy : RateLimitPolicy) :
    Timed.Machine (Redis.Key Bucket) Bool (Except String ScriptReply) where
  step key t dropped := evalBucket policy t (key.lagging dropped t)

/-- The same checks where the key is never dropped. -/
def lasting (policy : RateLimitPolicy) :
    Timed.Machine (Redis.Key Bucket) Bool (Except String ScriptReply) where
  step key t _ := evalBucket policy t (key.lagging false t)

/-- Past its deadline a bucket is full, dropped or not. -/
theorem tokensFound_lagging (h : WellFormed policy key t)
    (hx : t + policy.stateTtlMs ≤ Redis.maxExpiry) (dropped : Bool) :
    tokensFound policy t (key.lagging dropped t) = tokensFound policy t key := by
  cases key with
  | none => rfl
  | some e =>
    obtain ⟨b, d, rfl, rfl, hd0, h0, hc⟩ := h.stored hx
    rcases lt_or_ge d policy.stateTtlMs with hbefore | hafter
    · rw [Redis.Key.lagging_of_lt (by omega)]
    · rw [tokensFound_written h0 hc (by omega), full_after_ttl h0 hafter]
      cases dropped with
      | true =>
        rw [Redis.Key.lagging_dropped (by omega)]
        exact refill_none (by positivity)
      | false =>
        rw [Redis.Key.lagging_kept (by omega)]
        exact (refill_eq_level h0 hc (by omega)).trans (full_after_ttl h0 hafter)

/-- The reply and the hash written are functions of the tokens found; past Redis's range every
check fails alike. -/
def expirySimulation (policy : RateLimitPolicy) :
    Timed.Simulation (expiring policy) (lasting policy) where
  Rel key key' t := 0 ≤ t ∧
    (key = key' ∧ WellFormed policy key t ∨ Redis.maxExpiry < t + policy.stateTtlMs)
  mono := by
    rintro key key' t u ⟨h0, hsame | hout⟩ htu
    · exact ⟨h0.trans htu, Or.inl ⟨hsame.1, wellFormed_mono hsame.2 htu⟩⟩
    · exact ⟨h0.trans htu, Or.inr (by omega)⟩
  step := by
    rintro key key' t dropped ⟨h0, hrel⟩
    rcases le_or_gt (t + policy.stateTtlMs) Redis.maxExpiry with hx | hx
    · obtain ⟨rfl, hwell⟩ : key = key' ∧ WellFormed policy key t := by
        rcases hrel with hsame | hout
        · exact hsame
        · omega
      have hfound : tokensFound policy t (key.lagging dropped t) =
          tokensFound policy t (key.lagging false t) := by
        rw [tokensFound_lagging hwell hx, tokensFound_lagging hwell hx]
      have hwritten : written policy t (key.lagging dropped t) =
          written policy t (key.lagging false t) := by
        change (⟨consume policy.cost (tokensFound policy t _), t⟩ : Bucket) =
          ⟨consume policy.cost (tokensFound policy t _), t⟩
        rw [hfound]
      have hstep : evalBucket policy t (key.lagging dropped t) =
          evalBucket policy t (key.lagging false t) := by
        rw [evalBucket_of_le policy _ h0 hx, evalBucket_of_le policy _ h0 hx, hfound, hwritten]
      refine ⟨congrArg Prod.fst hstep, h0, Or.inl ⟨congrArg Prod.snd hstep, ?_⟩⟩
      change WellFormed policy (evalBucket policy t (key.lagging dropped t)).2 t
      rw [evalBucket_of_le policy _ h0 hx]
      exact wellFormed_written h0
    · refine ⟨?_, h0, Or.inr hx⟩
      change (evalBucket policy t (key.lagging dropped t)).1 =
        (evalBucket policy t (key'.lagging false t)).1
      rw [evalBucket_of_lt policy _ h0 hx, evalBucket_of_lt policy _ h0 hx]

/-- On every run of checks the replies do not tell whether Redis drops the key, nor when. -/
theorem expiry_invisible (policy : RateLimitPolicy) (ops : List (ℤ × Bool))
    (ho : Timed.Ordered 0 ops) :
    (expiring policy).replies none ops = (lasting policy).replies none ops :=
  (expirySimulation policy).replies_eq ⟨le_rfl, Or.inl ⟨rfl, wellFormed_absent policy⟩⟩ ho

/-- The proxy bucket is dropped at its deadline, two minutes after the first check. -/
theorem expiry_invisible_proxy :
    Redis.Key.lagging true 120000 ((expiring proxyRateLimitPolicy).step none 0 false).2 = none ∧
      (expiring proxyRateLimitPolicy).replies none [(0, false), (120000, true), (120000, false)] =
        (lasting proxyRateLimitPolicy).replies none
          [(0, false), (120000, true), (120000, false)] := by
  have httl : proxyRateLimitPolicy.stateTtlMs = 120000 := by
    norm_num [RateLimitPolicy.stateTtlMs, RateLimitPolicy.stateTtlSeconds, proxyRateLimitPolicy]
  constructor
  · have hx : 0 + proxyRateLimitPolicy.stateTtlMs ≤ Redis.maxExpiry := by
      rw [httl]
      decide
    change Redis.Key.lagging true 120000 (evalBucket proxyRateLimitPolicy 0 none).2 = none
    rw [evalBucket_of_le _ none le_rfl hx, httl]
    exact Redis.Key.lagging_dropped (by decide)
  · exact expiry_invisible proxyRateLimitPolicy _ (by unfold Timed.Ordered; decide)

end SecureGateway.RateLimit
