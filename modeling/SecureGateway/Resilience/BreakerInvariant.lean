import SecureGateway.Resilience.Breaker

/-! What one breaker operation can do, and the invariant that every operation keeps. -/
namespace SecureGateway.Resilience

open ServiceCircuitBreaker

variable {settings : UpstreamResilienceSettings} {now : ℚ} {b : ServiceCircuitBreaker}
  {issued : Set CircuitPermit} {p : CircuitPermit} {s : Settlement}

/-- The breaker right after any transition into OPEN. -/
def opening (settings : UpstreamResilienceSettings) (now : ℚ) (b : ServiceCircuitBreaker) :
    ServiceCircuitBreaker where
  state := .opened
  consecutiveFailures := settings.failureThreshold
  openedAt := some now
  halfOpenProbeInFlight := false
  generation := b.generation + 1

/-- The breaker right after its probe succeeded. -/
def recovered (b : ServiceCircuitBreaker) : ServiceCircuitBreaker where
  state := .closed
  consecutiveFailures := 0
  openedAt := none
  halfOpenProbeInFlight := false
  generation := b.generation + 1

/-- The breaker right after it admitted its probe. -/
def probing (b : ServiceCircuitBreaker) : ServiceCircuitBreaker :=
  { b with state := .halfOpen, halfOpenProbeInFlight := true, generation := b.generation + 1 }

/-- The coupling of the five fields, and of the permits issued so far, with each other. -/
structure Sound (settings : UpstreamResilienceSettings) (b : ServiceCircuitBreaker)
    (issued : Set CircuitPermit) : Prop where
  halfOpen_iff : b.state = .halfOpen ↔ b.halfOpenProbeInFlight = true
  closed_iff : b.state = .closed ↔ b.openedAt = none
  closed_below : b.state = .closed → b.consecutiveFailures < settings.failureThreshold
  tripped : b.state ≠ .closed → b.consecutiveFailures = settings.failureThreshold
  generation_le : ∀ p ∈ issued, p.generation ≤ b.generation
  current : ∀ p ∈ issued, p.generation = b.generation →
    (b.state = .closed ∧ p.halfOpenProbe = false) ∨ (b.state = .halfOpen ∧ p.halfOpenProbe = true)
  probe_issued : b.state = .halfOpen → ⟨b.generation, true⟩ ∈ issued

theorem sound_initial (settings : UpstreamResilienceSettings) :
    Sound settings initial ∅ := by
  have := settings.failureThreshold_range
  constructor <;> simp [initial]
  omega

/-- The outcomes of `before_request`; a HALF_OPEN breaker without a probe is not among them. -/
inductive Admission (settings : UpstreamResilienceSettings) (now : ℚ)
    (b : ServiceCircuitBreaker) :
    Except CircuitOpenError CircuitPermit → ServiceCircuitBreaker → Prop
  | pass (hc : b.state = .closed) : Admission settings now b (.ok ⟨b.generation, false⟩) b
  | reject (hc : b.state = .opened) (hr : 0 < b.retryAfterUnlocked settings now) :
      Admission settings now b (.error (.create (b.retryAfterUnlocked settings now))) b
  | probe (hc : b.state = .opened) (hr : b.retryAfterUnlocked settings now ≤ 0) :
      Admission settings now b (.ok ⟨b.generation + 1, true⟩) (probing b)
  | busy (hc : b.state = .halfOpen) : Admission settings now b (.error (.create 1)) b

theorem beforeRequest_admission (now : ℚ) (h : Sound settings b issued) :
    Admission settings now b (b.beforeRequest settings now).1 (b.beforeRequest settings now).2 := by
  have hhalf := h.halfOpen_iff
  unfold beforeRequest
  split
  · next hc => exact .pass hc
  · next hc =>
    dsimp only
    split
    · next hr => exact .reject hc hr
    · next hr => exact .probe hc (by omega)
  · next hc =>
    rw [if_pos (hhalf.mp hc)]
    exact .busy hc

/-- The outcomes of a `record_*` call with an issued permit. -/
inductive Completion (settings : UpstreamResilienceSettings) (now : ℚ)
    (b : ServiceCircuitBreaker) (p : CircuitPermit) :
    Settlement → Bool → ServiceCircuitBreaker → Prop
  | stale {s : Settlement} (hg : p.generation ≠ b.generation) :
      Completion settings now b p s false b
  | ignore (hp : p = ⟨b.generation, false⟩) (hc : b.state = .closed) :
      Completion settings now b p .neutral false b
  | clear (hp : p = ⟨b.generation, false⟩) (hc : b.state = .closed) :
      Completion settings now b p .success false { b with consecutiveFailures := 0 }
  | count (hp : p = ⟨b.generation, false⟩) (hc : b.state = .closed)
      (hf : b.consecutiveFailures + 1 < settings.failureThreshold) :
      Completion settings now b p .failure false
        { b with consecutiveFailures := b.consecutiveFailures + 1 }
  | trip (hp : p = ⟨b.generation, false⟩) (hc : b.state = .closed)
      (hf : b.consecutiveFailures + 1 = settings.failureThreshold) :
      Completion settings now b p .failure true (opening settings now b)
  | recover (hp : p = ⟨b.generation, true⟩) (hc : b.state = .halfOpen) :
      Completion settings now b p .success true (recovered b)
  | reopen {s : Settlement} (hp : p = ⟨b.generation, true⟩) (hc : b.state = .halfOpen)
      (hs : s ≠ .success) : Completion settings now b p s true (opening settings now b)

theorem record_stale (hg : p.generation ≠ b.generation) (s : Settlement) :
    b.record settings now p s = (false, b) := by
  cases s <;> simp [record, recordSuccess, recordFailure, recordNeutral, hg]

theorem record_completion (now : ℚ) (h : Sound settings b issued) (hp : p ∈ issued)
    (s : Settlement) :
    Completion settings now b p s (b.record settings now p s).1
      (b.record settings now p s).2 := by
  by_cases hg : p.generation = b.generation
  · obtain ⟨generation, halfOpenProbe⟩ := p
    change generation = b.generation at hg
    subst hg
    rcases h.current _ hp rfl with ⟨hc, hpr⟩ | ⟨hc, hpr⟩
    · have hbelow := h.closed_below hc
      have hopened := h.closed_iff.mp hc
      change halfOpenProbe = false at hpr
      subst hpr
      cases s with
      | success =>
        have he : b.record settings now ⟨b.generation, false⟩ .success =
            (false, { b with consecutiveFailures := 0 }) := by
          simp [record, recordSuccess, hc, hopened]
        rw [he]
        exact .clear rfl hc
      | failure =>
        by_cases hf : b.consecutiveFailures + 1 < settings.failureThreshold
        · have he : b.record settings now ⟨b.generation, false⟩ .failure =
              (false, { b with consecutiveFailures := b.consecutiveFailures + 1 }) := by
            simp [record, recordFailure, hc, hf]
          rw [he]
          exact .count rfl hc hf
        · have hf' : b.consecutiveFailures + 1 = settings.failureThreshold := by omega
          have he : b.record settings now ⟨b.generation, false⟩ .failure =
              (true, opening settings now b) := by
            simp [record, recordFailure, hc, hf', opening]
          rw [he]
          exact .trip rfl hc hf'
      | neutral =>
        have he : b.record settings now ⟨b.generation, false⟩ .neutral = (false, b) := by
          simp [record, recordNeutral]
        rw [he]
        exact .ignore rfl hc
    · have htripped := h.tripped (by simp [hc])
      have hprobe := h.halfOpen_iff.mp hc
      change halfOpenProbe = true at hpr
      subst hpr
      cases s with
      | success =>
        have he : b.record settings now ⟨b.generation, true⟩ .success = (true, recovered b) := by
          simp [record, recordSuccess, hc, hprobe, recovered]
        rw [he]
        exact .recover rfl hc
      | failure =>
        have he : b.record settings now ⟨b.generation, true⟩ .failure =
            (true, opening settings now b) := by
          simp [record, recordFailure, hc, hprobe, opening]
        rw [he]
        exact .reopen rfl hc (by simp)
      | neutral =>
        have he : b.record settings now ⟨b.generation, true⟩ .neutral =
            (true, opening settings now b) := by
          simp [record, recordNeutral, hc, hprobe, opening, htripped]
        rw [he]
        exact .reopen rfl hc (by simp)
  · rw [record_stale hg]
    exact .stale hg

/-- The permits issued once `before_request` has answered `r`. -/
def issuedBy (r : Except CircuitOpenError CircuitPermit) (issued : Set CircuitPermit) :
    Set CircuitPermit :=
  match r with
  | .ok p => insert p issued
  | .error _ => issued

theorem sound_admission {r : Except CircuitOpenError CircuitPermit}
    {b' : ServiceCircuitBreaker} (h : Sound settings b issued)
    (ha : Admission settings now b r b') : Sound settings b' (issuedBy r issued) := by
  cases ha with
  | pass hc =>
    refine ⟨h.halfOpen_iff, h.closed_iff, h.closed_below, h.tripped, ?_, ?_, ?_⟩
    · rintro p (rfl | hp)
      · exact le_rfl
      · exact h.generation_le p hp
    · rintro p (rfl | hp) hg
      · exact Or.inl ⟨hc, rfl⟩
      · exact h.current p hp hg
    · intro hhalf
      exact Or.inr (h.probe_issued hhalf)
  | reject hc hr => exact h
  | probe hc hr =>
    have htripped := h.tripped (by simp [hc])
    have hopened : b.openedAt ≠ none := fun he => by simp [h.closed_iff.mpr he] at hc
    refine ⟨by simp [probing], by simpa [probing] using hopened, by simp [probing],
      by simpa [probing] using htripped, ?_, ?_, fun _ => Or.inl rfl⟩
    · rintro p (rfl | hp)
      · exact le_rfl
      · exact Nat.le_succ_of_le (h.generation_le p hp)
    · rintro p (rfl | hp) hg
      · exact Or.inr ⟨rfl, rfl⟩
      · have hle := h.generation_le p hp
        simp only [probing] at hg
        omega
  | busy hc => exact h

/-- A generation that no permit carries yet is free of the permit clauses. -/
theorem sound_next {b' : ServiceCircuitBreaker} (h : Sound settings b issued)
    (hg : b'.generation = b.generation + 1) (hhalf : b'.state ≠ .halfOpen)
    (hprobe : b'.halfOpenProbeInFlight = false) (hclosed : b'.state = .closed ↔ b'.openedAt = none)
    (hbelow : b'.state = .closed → b'.consecutiveFailures < settings.failureThreshold)
    (htripped : b'.state ≠ .closed → b'.consecutiveFailures = settings.failureThreshold) :
    Sound settings b' issued := by
  refine ⟨by simp [hhalf, hprobe], hclosed, hbelow, htripped, ?_, ?_, fun he => (hhalf he).elim⟩
  · intro p hp
    have := h.generation_le p hp
    omega
  · intro p hp he
    have := h.generation_le p hp
    omega

theorem sound_opening (h : Sound settings b issued) :
    Sound settings (opening settings now b) issued :=
  sound_next h rfl (by simp [opening]) rfl (by simp [opening]) (by simp [opening])
    (by simp [opening])

theorem sound_recovered (h : Sound settings b issued) : Sound settings (recovered b) issued :=
  sound_next h rfl (by simp [recovered]) rfl (by simp [recovered])
    (by have := settings.failureThreshold_range; simp [recovered]; omega) (by simp [recovered])

theorem sound_completion {changed : Bool} {b' : ServiceCircuitBreaker}
    (h : Sound settings b issued) (hc : Completion settings now b p s changed b') :
    Sound settings b' issued := by
  cases hc with
  | stale hg => exact h
  | ignore hp hc => exact h
  | clear hp hc =>
    have := settings.failureThreshold_range
    exact ⟨h.halfOpen_iff, h.closed_iff, fun _ => by simp; omega, fun hn => (hn hc).elim,
      h.generation_le, h.current, h.probe_issued⟩
  | count hp hc hf =>
    exact ⟨h.halfOpen_iff, h.closed_iff, fun _ => hf, fun hn => (hn hc).elim,
      h.generation_le, h.current, h.probe_issued⟩
  | trip hp hc hf => exact sound_opening h
  | recover hp hc => exact sound_recovered h
  | reopen hp hc hs => exact sound_opening h

theorem admission_generation_le {r : Except CircuitOpenError CircuitPermit}
    {b' : ServiceCircuitBreaker} (ha : Admission settings now b r b') :
    b.generation ≤ b'.generation := by
  cases ha <;> simp [probing]

theorem completion_generation_le {changed : Bool} {b' : ServiceCircuitBreaker}
    (hc : Completion settings now b p s changed b') : b.generation ≤ b'.generation := by
  cases hc <;> simp [opening, recovered]

/-- Only the probe permit of its own generation moves a HALF_OPEN breaker. -/
theorem record_halfOpen_of_ne (hc : b.state = .halfOpen)
    (hp : p ≠ ⟨b.generation, true⟩) (s : Settlement) :
    b.record settings now p s = (false, b) := by
  by_cases hg : p.generation = b.generation
  · have hpr : p.halfOpenProbe = false := by
      cases hpr : p.halfOpenProbe with
      | false => rfl
      | true => exact (hp (by cases p; simp_all)).elim
    cases s <;> simp [record, recordSuccess, recordFailure, recordNeutral, hg, hpr, hc]
  · exact record_stale hg s

end SecureGateway.Resilience
