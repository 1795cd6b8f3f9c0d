import SecureGateway.Resilience.BreakerRuns

/-!
# The delay that an open circuit announces

While the breaker is OPEN its opening time is the time of the completion that opened it. The
rejections of `before_request` announce the least whole number of seconds after which the
breaker admits its probe.
-/
namespace SecureGateway.Resilience

open ServiceCircuitBreaker

/-- The run opened the breaker at time `o` and has kept it OPEN since. -/
inductive OpenSince (settings : UpstreamResilienceSettings) (o : ℚ) : List (ℚ × Call) → Prop
  | opens {calls : List (ℚ × Call)} {call : Call}
      (hbefore : (run settings calls).breaker.state ≠ .opened)
      (hafter : (run settings (calls ++ [(o, call)])).breaker.state = .opened) :
      OpenSince settings o (calls ++ [(o, call)])
  | stays {calls : List (ℚ × Call)} {c : ℚ × Call} (h : OpenSince settings o calls)
      (hafter : (run settings (calls ++ [c])).breaker.state = .opened) :
      OpenSince settings o (calls ++ [c])

variable {settings : UpstreamResilienceSettings} {calls : List (ℚ × Call)} {h : CircuitHistory}
  {call : Call} {o t : ℚ}

/-- A call that leaves the breaker OPEN has just opened it or has not touched it. -/
theorem opened_after (hs : RunSound settings h) (hp : call.Permitted h.issued)
    (ha : (h.after settings (t, call)).breaker.state = .opened) :
    (h.breaker.state = .opened → (h.after settings (t, call)).breaker = h.breaker) ∧
      (h.breaker.state ≠ .opened → (h.after settings (t, call)).breaker.openedAt = some t) := by
  cases call with
  | beforeRequest =>
    have hadm := beforeRequest_admission t hs.sound
    simp only [CircuitHistory.after, Call.perform] at ha ⊢
    generalize (h.breaker.beforeRequest settings t).1 = r at hadm
    generalize (h.breaker.beforeRequest settings t).2 = b' at hadm ha ⊢
    cases hadm with
    | pass hc | reject hc _ | busy hc => simp [ha]
    | probe hc _ => simp [probing] at ha
  | complete p s =>
    have hcomp := record_completion t hs.sound hp s
    simp only [CircuitHistory.after, Call.perform] at ha ⊢
    generalize (h.breaker.record settings t p s).1 = changed at hcomp
    generalize (h.breaker.record settings t p s).2 = b' at hcomp ha ⊢
    cases hcomp with
    | stale | ignore => simp [ha]
    | clear _ hc | count _ hc _ => simp [hc] at ha
    | recover => simp [recovered] at ha
    | trip _ hc _ | reopen _ hc _ => simp [opening, hc]

theorem openSince_openedAt (ho : OpenSince settings o calls) (hl : Legal settings calls) :
    (run settings calls).breaker.state = .opened ∧
      (run settings calls).breaker.openedAt = some o := by
  induction ho with
  | opens hbefore hafter =>
    obtain ⟨hl, hp⟩ := legal_append hl
    refine ⟨hafter, ?_⟩
    rw [run_append] at hafter ⊢
    exact (opened_after (runSound_run hl) hp hafter).2 hbefore
  | stays _ hafter ih =>
    obtain ⟨hl, hp⟩ := legal_append hl
    obtain ⟨hstate, hopened⟩ := ih hl
    refine ⟨hafter, ?_⟩
    rw [run_append] at hafter ⊢
    rw [(opened_after (runSound_run hl) hp hafter).1 hstate]
    exact hopened

section OpenBreaker

variable {b : ServiceCircuitBreaker}

theorem retryAfter_of_lt (hb : b.openedAt = some o)
    (ht : t < o + settings.recoveryTimeoutSeconds) :
    b.retryAfterUnlocked settings t = ⌈o + settings.recoveryTimeoutSeconds - t⌉ ∧
      1 ≤ ⌈o + settings.recoveryTimeoutSeconds - t⌉ := by
  have hpos : 0 < o + settings.recoveryTimeoutSeconds - t := by linarith
  have hceil : 1 ≤ ⌈o + settings.recoveryTimeoutSeconds - t⌉ := Int.one_le_ceil_iff.mpr hpos
  have heq : settings.recoveryTimeoutSeconds - (t - o) =
      o + settings.recoveryTimeoutSeconds - t := by ring
  refine ⟨?_, hceil⟩
  simp only [retryAfterUnlocked, hb, heq, if_neg (not_le.mpr hpos)]
  omega

theorem retryAfter_of_le (hb : b.openedAt = some o)
    (ht : o + settings.recoveryTimeoutSeconds ≤ t) : b.retryAfterUnlocked settings t = 0 := by
  have hle : settings.recoveryTimeoutSeconds - (t - o) ≤ 0 := by linarith
  simp [retryAfterUnlocked, hb, hle]

/-- Before the timeout an OPEN breaker rejects, and only tells how long it will. -/
theorem beforeRequest_rejects (hc : b.state = .opened) (hb : b.openedAt = some o)
    (ht : t < o + settings.recoveryTimeoutSeconds) :
    b.beforeRequest settings t =
      (.error ⟨⌈o + settings.recoveryTimeoutSeconds - t⌉⟩, b) := by
  obtain ⟨hretry, hceil⟩ := retryAfter_of_lt hb ht
  have hpos : ⌈o + settings.recoveryTimeoutSeconds - t⌉ > 0 := by omega
  simp only [beforeRequest, hc, hretry, if_pos hpos, CircuitOpenError.create, max_eq_right hceil]

/-- From the timeout on it admits its probe. -/
theorem beforeRequest_probes (hc : b.state = .opened) (hb : b.openedAt = some o)
    (ht : o + settings.recoveryTimeoutSeconds ≤ t) :
    b.beforeRequest settings t = (.ok ⟨b.generation + 1, true⟩, probing b) := by
  have hretry : ¬ b.retryAfterUnlocked settings t > 0 := by
    rw [retryAfter_of_le hb ht]
    exact lt_irrefl 0
  simp only [beforeRequest, hc, if_neg hretry, probing]

end OpenBreaker

/-- A rejection by an OPEN breaker announces the least sufficient whole number of seconds, and
whoever comes back no earlier, with nothing in between, is the probe. The clock may run in any
way: only the opening time and the two readings matter. -/
theorem open_retryAfter_least (settings : UpstreamResilienceSettings)
    (calls : List (ℚ × Call)) (o t : ℚ) (hl : Legal settings calls)
    (ho : OpenSince settings o calls) (ht : t < o + settings.recoveryTimeoutSeconds) :
    ∃ r : ℤ, 1 ≤ r ∧
      (run settings calls).breaker.beforeRequest settings t =
        (.error ⟨r⟩, (run settings calls).breaker) ∧
      IsLeast {k : ℤ | o + settings.recoveryTimeoutSeconds ≤ t + k} r ∧
      ∀ t' : ℚ, t + r ≤ t' →
        ∃ permit, permit.halfOpenProbe = true ∧
          ((run settings (calls ++ [(t, .beforeRequest)])).breaker.beforeRequest settings t').1 =
            .ok permit ∧
          ((run settings (calls ++ [(t, .beforeRequest)])).breaker.beforeRequest
            settings t').2.state = .halfOpen := by
  obtain ⟨hstate, hopened⟩ := openSince_openedAt ho hl
  have hreject := beforeRequest_rejects hstate hopened ht
  set b := (run settings calls).breaker with hbdef
  set r := ⌈o + settings.recoveryTimeoutSeconds - t⌉ with hr
  have hle : o + settings.recoveryTimeoutSeconds ≤ t + r := by
    have := Int.le_ceil (o + settings.recoveryTimeoutSeconds - t)
    linarith
  have hsame : (run settings (calls ++ [(t, .beforeRequest)])).breaker = b := by
    rw [run_append]
    simp only [CircuitHistory.after, Call.perform]
    rw [← hbdef, hreject]
  refine ⟨r, (retryAfter_of_lt hopened ht).2, hreject, ⟨hle, ?_⟩, ?_⟩
  · intro k hk
    have hk' : o + settings.recoveryTimeoutSeconds - t ≤ k := by
      have : o + settings.recoveryTimeoutSeconds ≤ t + k := hk
      linarith
    exact Int.ceil_le.mpr hk'
  · intro t' ht'
    have hprobe := beforeRequest_probes hstate hopened (hle.trans ht')
    rw [hsame, hprobe]
    exact ⟨_, rfl, rfl, rfl⟩

/-- A probe that fails at 14.5 s reopens the circuit, which at 20.25 s announces five seconds. -/
theorem reopened_retryAfter :
    let calls : List (ℚ × Call) := recoveringCalls.take 5 ++
      [(29 / 2, .complete ⟨2, true⟩ .failure)]
    OpenSince singleFailure (29 / 2) calls ∧
      ∃ r : ℤ, 1 ≤ r ∧ ((run singleFailure calls).breaker.beforeRequest singleFailure (81 / 4)).1 =
        .error ⟨r⟩ := by
  intro calls
  have hl : Legal singleFailure calls := by decide +kernel
  have ho : OpenSince singleFailure (29 / 2) calls :=
    .opens (by decide +kernel) (by decide +kernel)
  obtain ⟨r, hr, hreject, -, -⟩ := open_retryAfter_least singleFailure calls (29 / 2) (81 / 4) hl ho
    (by norm_num [singleFailure, UpstreamResilienceSettings.default])
  exact ⟨ho, r, hr, by rw [hreject]⟩

end SecureGateway.Resilience
