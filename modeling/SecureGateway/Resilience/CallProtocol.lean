import SecureGateway.Resilience.Calls
import SecureGateway.Resilience.BreakerInvariant

/-!
# The call protocol of one service

Seen from one service, a pool of calls is its breaker and the status of each call to it. Every
step of the pool is one of six events of that view, and the events keep one invariant: the
probe permit is held by one call, and the breaker is HALF_OPEN for as long as that call owes
its settlement.
-/
namespace SecureGateway.Resilience

open Interleaving ServiceCircuitBreaker

structure ServiceView where
  breaker : ServiceCircuitBreaker
  calls : ℕ → Option CallStatus

inductive CallEvent where
  | silent
  | start (i : ℕ)
  | answer (i : ℕ) (admission : Except CircuitOpenError CircuitPermit)
  | settle (i : ℕ) (settlement : Settlement) (changed : Bool)
  | attempt (i : ℕ)
  | escape (i : ℕ)
  deriving DecidableEq

/-- The status of a call once `before_request` has answered. -/
def CallStatus.answered : Except CircuitOpenError CircuitPermit → CallStatus
  | .ok permit => { initial with permit := some permit }
  | .error _ => initial

namespace ServiceView

def update (v : ServiceView) (b : ServiceCircuitBreaker) (i : ℕ) (c : CallStatus) : ServiceView :=
  ⟨b, Function.update v.calls i (some c)⟩

/-- Call `i` was granted the permit and has, or has not, settled it. -/
def Holds (v : ServiceView) (i : ℕ) (permit : CircuitPermit) (settled : Bool) : Prop :=
  ∃ c, v.calls i = some c ∧ c.permit = some permit ∧ c.settled = settled

def issued (v : ServiceView) : Set CircuitPermit := {permit | ∃ i settled, v.Holds i permit settled}

end ServiceView

inductive CallStep (settings : UpstreamResilienceSettings) :
    ServiceView → CallEvent → ServiceView → Prop
  | silent (v : ServiceView) : CallStep settings v .silent v
  | start {v : ServiceView} {i : ℕ} (hi : v.calls i = none) :
      CallStep settings v (.start i) (v.update v.breaker i .initial)
  | answer {v : ServiceView} {i : ℕ} (now : ℚ) (hi : v.calls i = some .initial) :
      CallStep settings v (.answer i (v.breaker.beforeRequest settings now).1)
        (v.update (v.breaker.beforeRequest settings now).2 i
          (.answered (v.breaker.beforeRequest settings now).1))
  | settle {v : ServiceView} {i : ℕ} {c : CallStatus} {permit : CircuitPermit} (now : ℚ)
      (s : Settlement) (hi : v.calls i = some c) (hc : c.Pending permit) :
      CallStep settings v (.settle i s (v.breaker.record settings now permit s).1)
        (v.update (v.breaker.record settings now permit s).2 i { c with settled := true })
  | attempt {v : ServiceView} {i : ℕ} {c : CallStatus} {permit : CircuitPermit}
      (hi : v.calls i = some c) (hc : c.Pending permit)
      (hprobe : permit.halfOpenProbe = true → c.attempts = 0) :
      CallStep settings v (.attempt i)
        (v.update v.breaker i { c with attempts := c.attempts + 1 })
  | escape {v : ServiceView} {i : ℕ} {c : CallStatus} {permit : CircuitPermit}
      (hi : v.calls i = some c) (hc : c.Pending permit) :
      CallStep settings v (.escape i) (v.update v.breaker i { c with escaped := true })

section Invariant

variable {settings : UpstreamResilienceSettings} {v v' : ServiceView} {e : CallEvent}

structure Consistent (settings : UpstreamResilienceSettings) (v : ServiceView) : Prop where
  sound : Sound settings v.breaker v.issued
  unique : ∀ {i j g s t}, v.Holds i ⟨g, true⟩ s → v.Holds j ⟨g, true⟩ t → i = j
  owed : ∀ {i g}, v.Holds i ⟨g, true⟩ false →
    v.breaker.state = .halfOpen ∧ v.breaker.generation = g
  paid : ∀ {i g}, v.Holds i ⟨g, true⟩ true → g < v.breaker.generation

theorem holds_update {b : ServiceCircuitBreaker} {i k : ℕ} {c : CallStatus}
    {permit : CircuitPermit} {s : Bool} :
    (v.update b i c).Holds k permit s ↔
      (k = i ∧ c.permit = some permit ∧ c.settled = s) ∨ (k ≠ i ∧ v.Holds k permit s) := by
  by_cases hk : k = i
  · subst hk
    simp [ServiceView.Holds, ServiceView.update]
  · simp [ServiceView.Holds, ServiceView.update, hk]

/-- Events that touch neither the breaker nor the permits are free. -/
theorem consistent_congr (h : Consistent settings v) (hb : v'.breaker = v.breaker)
    (hh : ∀ k permit s, v'.Holds k permit s ↔ v.Holds k permit s) : Consistent settings v' := by
  have hi : v'.issued = v.issued := by
    ext permit
    simp [ServiceView.issued, hh]
  refine ⟨by rw [hb, hi]; exact h.sound, ?_, ?_, ?_⟩
  · intro i j g s t hs ht
    exact h.unique ((hh _ _ _).mp hs) ((hh _ _ _).mp ht)
  · intro i g hs
    rw [hb]
    exact h.owed ((hh _ _ _).mp hs)
  · intro i g hs
    rw [hb]
    exact h.paid ((hh _ _ _).mp hs)

theorem holds_update_same {i : ℕ} {c c' : CallStatus} (hi : v.calls i = some c)
    (hp : c'.permit = c.permit) (hs : c'.settled = c.settled) (k : ℕ) (permit : CircuitPermit)
    (s : Bool) : (v.update v.breaker i c').Holds k permit s ↔ v.Holds k permit s := by
  rw [holds_update, hp, hs]
  by_cases hk : k = i
  · subst hk
    simp [ServiceView.Holds, hi]
  · simp [hk]

/-- A call without a permit holds none. -/
theorem holds_update_initial {i : ℕ} (hi : ∀ c, v.calls i = some c → c.permit = none) (k : ℕ)
    (permit : CircuitPermit) (s : Bool) :
    (v.update v.breaker i .initial).Holds k permit s ↔ v.Holds k permit s := by
  rw [holds_update]
  by_cases hk : k = i
  · subst hk
    have hno : ¬ v.Holds k permit s := by
      rintro ⟨c, hc, hp, -⟩
      rw [hi c hc] at hp
      cases hp
    simp [CallStatus.initial, hno]
  · simp [hk]

theorem holds_update_answered {b : ServiceCircuitBreaker} {i k : ℕ} {permit p : CircuitPermit}
    {s : Bool} : (v.update b i (.answered (.ok permit))).Holds k p s ↔
      (k = i ∧ permit = p ∧ s = false) ∨ (k ≠ i ∧ v.Holds k p s) := by
  rw [holds_update]
  simp [CallStatus.answered, CallStatus.initial, eq_comm]

theorem issued_update_answered {b : ServiceCircuitBreaker} {i : ℕ} {permit : CircuitPermit}
    (hi : v.calls i = some .initial) :
    (v.update b i (.answered (.ok permit))).issued = issuedBy (.ok permit) v.issued := by
  ext p
  constructor
  · rintro ⟨k, s, hk⟩
    rcases holds_update_answered.mp hk with ⟨-, rfl, -⟩ | ⟨-, hk⟩
    · exact Or.inl rfl
    · exact Or.inr ⟨k, s, hk⟩
  · rintro (rfl | ⟨k, s, hk⟩)
    · exact ⟨i, false, holds_update_answered.mpr (Or.inl ⟨rfl, rfl, rfl⟩)⟩
    · have hki : k ≠ i := by
        rintro rfl
        obtain ⟨c, hc, hp, -⟩ := hk
        rw [hi] at hc
        cases hc
        cases hp
      exact ⟨k, s, holds_update_answered.mpr (Or.inr ⟨hki, hk⟩)⟩

theorem consistent_answer {i : ℕ} {now : ℚ} (h : Consistent settings v)
    (hi : v.calls i = some .initial) :
    Consistent settings (v.update (v.breaker.beforeRequest settings now).2 i
      (.answered (v.breaker.beforeRequest settings now).1)) := by
  have hadm := beforeRequest_admission now h.sound
  have hsound := sound_admission h.sound hadm
  generalize (v.breaker.beforeRequest settings now).1 = r at hadm hsound
  generalize (v.breaker.beforeRequest settings now).2 = b at hadm hsound
  have hinitial : ∀ c, v.calls i = some c → c.permit = none := by
    intro c hc
    rw [hi] at hc
    cases hc
    rfl
  cases hadm with
  | reject hc hr => exact consistent_congr h rfl (holds_update_initial hinitial)
  | busy hc => exact consistent_congr h rfl (holds_update_initial hinitial)
  | pass hc =>
    refine ⟨by rw [issued_update_answered hi]; exact hsound, ?_, ?_, ?_⟩
    · intro k l g s t hk hl
      rcases holds_update_answered.mp hk with ⟨-, he, -⟩ | ⟨-, hk⟩
      · cases he
      · rcases holds_update_answered.mp hl with ⟨-, he, -⟩ | ⟨-, hl⟩
        · cases he
        · exact h.unique hk hl
    · intro k g hk
      rcases holds_update_answered.mp hk with ⟨-, he, -⟩ | ⟨-, hk⟩
      · cases he
      · exact h.owed hk
    · intro k g hk
      rcases holds_update_answered.mp hk with ⟨-, he, -⟩ | ⟨-, hk⟩
      · cases he
      · exact h.paid hk
  | probe hc hr =>
    -- The new generation is above that of every permit issued before.
    have hfresh : ∀ {k g s}, v.Holds k ⟨g, true⟩ s → g ≤ v.breaker.generation := by
      intro k g s hk
      exact h.sound.generation_le _ ⟨k, s, hk⟩
    refine ⟨by rw [issued_update_answered hi]; exact hsound, ?_, ?_, ?_⟩
    · intro k l g s t hk hl
      rcases holds_update_answered.mp hk with ⟨rfl, he, -⟩ | ⟨-, hk'⟩
      · rcases holds_update_answered.mp hl with ⟨rfl, -, -⟩ | ⟨-, hl'⟩
        · rfl
        · have := hfresh hl'
          cases he
          omega
      · rcases holds_update_answered.mp hl with ⟨rfl, he, -⟩ | ⟨-, hl'⟩
        · have := hfresh hk'
          cases he
          omega
        · exact h.unique hk' hl'
    · intro k g hk
      rcases holds_update_answered.mp hk with ⟨-, he, -⟩ | ⟨-, hk⟩
      · cases he
        exact ⟨rfl, rfl⟩
      · have := (h.owed hk).1
        rw [hc] at this
        cases this
    · intro k g hk
      rcases holds_update_answered.mp hk with ⟨-, -, he⟩ | ⟨-, hk⟩
      · cases he
      · exact Nat.lt_succ_of_lt (h.paid hk)

theorem consistent_settle {i : ℕ} {c : CallStatus} {permit : CircuitPermit} {now : ℚ}
    {s : Settlement} (h : Consistent settings v) (hi : v.calls i = some c)
    (hc : c.Pending permit) :
    Consistent settings (v.update (v.breaker.record settings now permit s).2 i
      { c with settled := true }) := by
  have hheld : v.Holds i permit false := ⟨c, hi, hc.permit_eq, hc.unsettled⟩
  have hcomp := record_completion now h.sound ⟨i, false, hheld⟩ s
  have hsound := sound_completion h.sound hcomp
  have hgen := completion_generation_le hcomp
  have hnext : permit.halfOpenProbe = true →
      v.breaker.generation < (v.breaker.record settings now permit s).2.generation := by
    intro hprobe
    obtain ⟨g, p⟩ := permit
    change p = true at hprobe
    subst hprobe
    obtain ⟨hhalf, hg⟩ := h.owed hheld
    generalize (v.breaker.record settings now ⟨g, true⟩ s).1 = changed at hcomp
    generalize (v.breaker.record settings now ⟨g, true⟩ s).2 = b at hcomp
    cases hcomp with
    | stale hne => exact (hne hg.symm).elim
    | ignore hp _ | clear hp _ | count hp _ _ | trip hp _ _ => cases hp
    | recover hp _ => exact Nat.lt_succ_self _
    | reopen hp _ _ => exact Nat.lt_succ_self _
  have hholds : ∀ {k p t}, (v.update (v.breaker.record settings now permit s).2 i
      { c with settled := true }).Holds k p t →
      (k = i ∧ permit = p ∧ t = true) ∨ (k ≠ i ∧ v.Holds k p t) := by
    intro k p t hk
    rcases holds_update.mp hk with ⟨rfl, hp, ht⟩ | hk
    · have hpe := hc.permit_eq
      simp only at hp ht
      rw [hpe] at hp
      cases hp
      exact Or.inl ⟨rfl, rfl, ht.symm⟩
    · exact Or.inr hk
  have hissued : (v.update (v.breaker.record settings now permit s).2 i
      { c with settled := true }).issued = v.issued := by
    ext p
    constructor
    · rintro ⟨k, t, hk⟩
      rcases hholds hk with ⟨rfl, rfl, -⟩ | ⟨-, hk⟩
      · exact ⟨k, false, hheld⟩
      · exact ⟨k, t, hk⟩
    · rintro ⟨k, t, d, hd, hp, ht⟩
      by_cases hki : k = i
      · subst hki
        rw [hi] at hd
        cases hd
        exact ⟨k, true, holds_update.mpr (Or.inl ⟨rfl, hp, rfl⟩)⟩
      · exact ⟨k, t, holds_update.mpr (Or.inr ⟨hki, d, hd, hp, ht⟩)⟩
  refine ⟨by rw [hissued]; exact hsound, ?_, ?_, ?_⟩
  · intro k l g t u hk hl
    rcases hholds hk with ⟨rfl, rfl, -⟩ | ⟨-, hk'⟩ <;>
      rcases hholds hl with ⟨rfl, hp, -⟩ | ⟨-, hl'⟩
    · rfl
    · exact h.unique hheld hl'
    · subst hp
      exact h.unique hk' hheld
    · exact h.unique hk' hl'
  · intro k g hk
    rcases hholds hk with ⟨-, -, he⟩ | ⟨hki, hk'⟩
    · cases he
    · -- Another call owes the probe, so this permit is not the current one.
      obtain ⟨hhalf, hg⟩ := h.owed hk'
      have hne : permit ≠ ⟨v.breaker.generation, true⟩ := by
        rintro rfl
        rw [hg] at hheld
        exact hki (h.unique hk' hheld)
      change (v.breaker.record settings now permit s).2.state = _ ∧
        (v.breaker.record settings now permit s).2.generation = _
      rw [record_halfOpen_of_ne hhalf hne]
      exact ⟨hhalf, hg⟩
  · intro k g hk
    rcases hholds hk with ⟨-, rfl, -⟩ | ⟨-, hk⟩
    · have hg := (h.owed hheld).2
      exact hg ▸ hnext rfl
    · exact lt_of_lt_of_le (h.paid hk) hgen

theorem consistent_step (hs : CallStep settings v e v') (h : Consistent settings v) :
    Consistent settings v' := by
  cases hs with
  | silent => exact h
  | start hi =>
    refine consistent_congr h rfl (holds_update_initial ?_)
    intro c hc
    rw [hi] at hc
    cases hc
  | answer now hi => exact consistent_answer h hi
  | settle now s hi hc => exact consistent_settle h hi hc
  | attempt hi hc hprobe => exact consistent_congr h rfl (holds_update_same hi rfl rfl)
  | escape hi hc => exact consistent_congr h rfl (holds_update_same hi rfl rfl)

end Invariant

end SecureGateway.Resilience
