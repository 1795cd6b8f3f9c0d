import Mathlib.Data.List.DropRight
import SecureGateway.Resilience.BreakerInvariant

/-!
# Runs of one breaker

A run is a finite list of timed calls of `before_request` and `record_*`. Completions may
come in any order, any number of times and however late; the only rule is that a permit
was issued before it is used. The history beside the breaker is derived, never read by it.
-/
namespace SecureGateway.Resilience

open ServiceCircuitBreaker

inductive Call where
  | beforeRequest
  | complete (permit : CircuitPermit) (settlement : Settlement)
  deriving DecidableEq, Repr

inductive Reply where
  | admission (result : Except CircuitOpenError CircuitPermit)
  | completion (changed : Bool)

def Call.perform (settings : UpstreamResilienceSettings) (now : ℚ) (b : ServiceCircuitBreaker) :
    Call → Reply × ServiceCircuitBreaker
  | .beforeRequest =>
    let r := b.beforeRequest settings now
    (.admission r.1, r.2)
  | .complete permit settlement =>
    let r := b.record settings now permit settlement
    (.completion r.1, r.2)

/-- The breaker, the permits it issued and the completions it saw, both in order. -/
structure CircuitHistory where
  breaker : ServiceCircuitBreaker
  issued : List CircuitPermit
  completed : List (CircuitPermit × Settlement)

namespace CircuitHistory

def initial : CircuitHistory := ⟨.initial, [], []⟩

def after (settings : UpstreamResilienceSettings) (h : CircuitHistory) (c : ℚ × Call) :
    CircuitHistory where
  breaker := (c.2.perform settings c.1 h.breaker).2
  issued :=
    match (c.2.perform settings c.1 h.breaker).1 with
    | .admission (.ok p) => h.issued ++ [p]
    | _ => h.issued
  completed :=
    match c.2 with
    | .beforeRequest => h.completed
    | .complete p s => h.completed ++ [(p, s)]

/-- The settlements recorded under the current generation, in completion order. -/
def current (h : CircuitHistory) : List Settlement :=
  (h.completed.filter fun c => c.1.generation = h.breaker.generation).map Prod.snd

end CircuitHistory

def run (settings : UpstreamResilienceSettings) (calls : List (ℚ × Call)) : CircuitHistory :=
  calls.foldl (CircuitHistory.after settings) .initial

/-- A completion needs a permit issued earlier; an admission is always possible. -/
def Call.Permitted (issued : List CircuitPermit) : Call → Prop
  | .beforeRequest => True
  | .complete p _ => p ∈ issued

instance (issued : List CircuitPermit) (c : Call) : Decidable (c.Permitted issued) := by
  cases c <;> unfold Call.Permitted <;> infer_instance

/-- Every completion of the run uses a permit that the run issued before it. -/
def Legal (settings : UpstreamResilienceSettings) (calls : List (ℚ × Call)) : Prop :=
  ∀ n (hn : n < calls.length), calls[n].2.Permitted (run settings (calls.take n)).issued

instance (settings : UpstreamResilienceSettings) (calls : List (ℚ × Call)) :
    Decidable (Legal settings calls) :=
  inferInstanceAs (Decidable (∀ n (_ : n < calls.length), _))

/-- Length of the longest all-failure suffix, neutral completions skipped. -/
def failureStreak (settlements : List Settlement) : ℕ :=
  ((settlements.filter (· ≠ .neutral)).rtakeWhile (· = .failure)).length

variable {settings : UpstreamResilienceSettings} {calls : List (ℚ × Call)} {h : CircuitHistory}
  {c : ℚ × Call} {t : ℚ} {call : Call}

theorem run_append (settings : UpstreamResilienceSettings) (calls : List (ℚ × Call))
    (c : ℚ × Call) : run settings (calls ++ [c]) = (run settings calls).after settings c := by
  simp [run]

theorem legal_append (hl : Legal settings (calls ++ [c])) :
    Legal settings calls ∧ c.2.Permitted (run settings calls).issued := by
  constructor
  · intro n hn
    have h := hl n (by simp; omega)
    rwa [List.getElem_append_left hn, List.take_append_of_le_length (by omega)] at h
  · have h := hl calls.length (by simp)
    simpa using h

@[simp] theorem failureStreak_success (l : List Settlement) :
    failureStreak (l ++ [.success]) = 0 := by
  simp [failureStreak, List.filter_append, List.rtakeWhile_concat_neg]

@[simp] theorem failureStreak_neutral (l : List Settlement) :
    failureStreak (l ++ [.neutral]) = failureStreak l := by
  simp [failureStreak, List.filter_append]

@[simp] theorem failureStreak_failure (l : List Settlement) :
    failureStreak (l ++ [.failure]) = failureStreak l + 1 := by
  simp [failureStreak, List.filter_append, List.rtakeWhile_concat_pos]

/-- The invariant of a run: the breaker's own, and its agreement with the history. -/
structure RunSound (settings : UpstreamResilienceSettings) (h : CircuitHistory) : Prop where
  sound : Sound settings h.breaker {p | p ∈ h.issued}
  probes : h.issued.Pairwise fun p q =>
    ¬ (p.halfOpenProbe = true ∧ q.halfOpenProbe = true ∧ p.generation = q.generation)
  completed_le : ∀ c ∈ h.completed, c.1.generation ≤ h.breaker.generation
  streak : h.breaker.state = .closed → h.breaker.consecutiveFailures = failureStreak h.current

theorem runSound_initial (settings : UpstreamResilienceSettings) :
    RunSound settings .initial := by
  refine ⟨?_, List.Pairwise.nil, by simp [CircuitHistory.initial], fun _ => rfl⟩
  simpa [CircuitHistory.initial] using sound_initial settings

theorem mem_issuedBy_ok (l : List CircuitPermit) (p : CircuitPermit) :
    issuedBy (.ok p) {q | q ∈ l} = {q | q ∈ l ++ [p]} := by
  ext q
  simp [issuedBy, or_comm]

/-- A new generation has no completions yet, so its streak is empty. -/
theorem current_next {b : ServiceCircuitBreaker} {completed : List (CircuitPermit × Settlement)}
    {issued : List CircuitPermit} (hc : ∀ c ∈ completed, c.1.generation < b.generation) :
    (⟨b, issued, completed⟩ : CircuitHistory).current = [] := by
  simp only [CircuitHistory.current, List.map_eq_nil_iff, List.filter_eq_nil_iff, decide_eq_true_eq]
  intro c hm
  exact (hc c hm).ne

theorem runSound_admission (hs : RunSound settings h) :
    RunSound settings (h.after settings (t, .beforeRequest)) := by
  have ha := beforeRequest_admission t hs.sound
  have hsound := sound_admission hs.sound ha
  simp only [CircuitHistory.after, Call.perform]
  generalize (h.breaker.beforeRequest settings t).1 = r at ha hsound ⊢
  generalize (h.breaker.beforeRequest settings t).2 = b' at ha hsound ⊢
  cases ha with
  | pass hc =>
    refine ⟨by rwa [mem_issuedBy_ok] at hsound, ?_, hs.completed_le, hs.streak⟩
    simp only [List.pairwise_append, hs.probes, List.pairwise_singleton, true_and,
      List.mem_singleton, forall_eq]
    rintro p - ⟨-, hp, -⟩
    cases hp
  | reject hc hr => exact ⟨hsound, hs.probes, hs.completed_le, hs.streak⟩
  | probe hc hr =>
    refine ⟨by rwa [mem_issuedBy_ok] at hsound, ?_, ?_, fun hcl => by simp [probing] at hcl⟩
    · simp only [List.pairwise_append, hs.probes, List.pairwise_singleton, true_and,
        List.mem_singleton, forall_eq]
      intro p hp hpair
      have hle := hs.sound.generation_le p hp
      have hg := hpair.2
      omega
    · intro c hm
      exact Nat.le_succ_of_le (hs.completed_le c hm)
  | busy hc => exact ⟨hsound, hs.probes, hs.completed_le, hs.streak⟩

/-- The current settlements grow by this one exactly when the completion is not stale. -/
theorem current_complete (h : CircuitHistory) (b' : ServiceCircuitBreaker) (p : CircuitPermit)
    (s : Settlement) (hg : b'.generation = h.breaker.generation) :
    (⟨b', h.issued, h.completed ++ [(p, s)]⟩ : CircuitHistory).current =
      if p.generation = h.breaker.generation then h.current ++ [s] else h.current := by
  simp only [CircuitHistory.current, hg, List.filter_append, List.map_append]
  split <;> simp [*]

theorem runSound_completion {p : CircuitPermit} {s : Settlement} (hs : RunSound settings h)
    (hp : p ∈ h.issued) : RunSound settings (h.after settings (t, .complete p s)) := by
  have hc := record_completion t hs.sound hp s
  have hsound := sound_completion hs.sound hc
  have hle : ∀ c ∈ h.completed ++ [(p, s)], c.1.generation ≤ h.breaker.generation := by
    simp only [List.mem_append, List.mem_singleton]
    rintro c (hm | rfl)
    · exact hs.completed_le c hm
    · exact hs.sound.generation_le p hp
  simp only [CircuitHistory.after, Call.perform]
  generalize (h.breaker.record settings t p s).1 = changed at hc ⊢
  generalize (h.breaker.record settings t p s).2 = b' at hc hsound ⊢
  refine ⟨hsound, hs.probes, fun c hm => (hle c hm).trans (completion_generation_le hc), ?_⟩
  intro hclosed
  cases hc with
  | stale hg =>
    rw [current_complete h _ _ _ rfl, if_neg hg]
    exact hs.streak hclosed
  | ignore hpp hc =>
    rw [current_complete h _ _ _ rfl, if_pos (by simp [hpp]), failureStreak_neutral]
    exact hs.streak hc
  | clear hpp hc =>
    rw [current_complete h { h.breaker with consecutiveFailures := 0 } p .success rfl,
      if_pos (by simp [hpp]), failureStreak_success]
  | count hpp hc hf =>
    rw [current_complete h { h.breaker with
      consecutiveFailures := h.breaker.consecutiveFailures + 1 } p .failure rfl,
      if_pos (by simp [hpp]), failureStreak_failure]
    exact congrArg (· + 1) (hs.streak hc)
  | trip hpp hc hf => simp [opening] at hclosed
  | recover hpp hc =>
    rw [current_next (fun c hm => Nat.lt_succ_of_le (hle c hm))]
    rfl
  | reopen hpp hc hn => simp [opening] at hclosed

theorem runSound_after (hs : RunSound settings h) (hp : c.2.Permitted h.issued) :
    RunSound settings (h.after settings c) := by
  obtain ⟨t, call⟩ := c
  cases call with
  | beforeRequest => exact runSound_admission hs
  | complete p s => exact runSound_completion hs hp

theorem runSound_run (hl : Legal settings calls) : RunSound settings (run settings calls) := by
  induction calls using List.reverseRecOn with
  | nil => exact runSound_initial settings
  | append_singleton calls c ih =>
    obtain ⟨hl, hp⟩ := legal_append hl
    rw [run_append]
    exact runSound_after (ih hl) hp

theorem generation_after (hs : RunSound settings h) (hp : c.2.Permitted h.issued) :
    h.breaker.generation ≤ (h.after settings c).breaker.generation := by
  obtain ⟨t, call⟩ := c
  cases call with
  | beforeRequest => exact admission_generation_le (beforeRequest_admission t hs.sound)
  | complete p s => exact completion_generation_le (record_completion t hs.sound hp s)

theorem generation_take (hl : Legal settings calls) (n : ℕ) :
    (run settings (calls.take n)).breaker.generation ≤
      (run settings calls).breaker.generation := by
  induction calls using List.reverseRecOn with
  | nil => simp
  | append_singleton calls c ih =>
    by_cases hn : n ≤ calls.length
    · obtain ⟨hl, hp⟩ := legal_append hl
      rw [List.take_append_of_le_length hn, run_append]
      exact (ih hl).trans (generation_after (runSound_run hl) hp)
    · rw [List.take_of_length_le (by simp; omega)]

/-- Some completion with this permit, at some time, changes the breaker. -/
def CanMove (settings : UpstreamResilienceSettings) (b : ServiceCircuitBreaker)
    (p : CircuitPermit) : Prop :=
  ∃ now s, (b.record settings now p s).2 ≠ b

theorem canMove_halfOpen {b : ServiceCircuitBreaker} {p : CircuitPermit}
    (hc : b.state = .halfOpen) (hm : CanMove settings b p) : p = ⟨b.generation, true⟩ := by
  obtain ⟨now, s, hne⟩ := hm
  by_contra hp
  exact hne (by rw [record_halfOpen_of_ne hc hp])

/-- Every state a run reaches is sound, and probe permits exclude each other. No clause
needs the clock to be monotone: the times in `calls` are arbitrary. -/
theorem breaker_invariant (settings : UpstreamResilienceSettings) (calls : List (ℚ × Call))
    (hl : Legal settings calls) :
    let h := run settings calls
    (h.breaker.state = .halfOpen ↔ h.breaker.halfOpenProbeInFlight = true) ∧
    (h.breaker.state = .closed ↔ h.breaker.openedAt = none) ∧
    (h.breaker.state = .closed → h.breaker.consecutiveFailures < settings.failureThreshold) ∧
    (h.breaker.state = .opened ∨ h.breaker.state = .halfOpen →
      h.breaker.consecutiveFailures = settings.failureThreshold) ∧
    (∀ n, (run settings (calls.take n)).breaker.generation ≤ h.breaker.generation) ∧
    (h.issued.Pairwise fun p q =>
      ¬ (p.halfOpenProbe = true ∧ q.halfOpenProbe = true ∧ p.generation = q.generation)) ∧
    (h.breaker.state = .halfOpen →
      h.issued.Pairwise fun p q =>
        ¬ (CanMove settings h.breaker p ∧ CanMove settings h.breaker q)) := by
  intro h
  have hs : RunSound settings h := runSound_run hl
  refine ⟨hs.sound.halfOpen_iff, hs.sound.closed_iff, hs.sound.closed_below, ?_,
    generation_take hl, hs.probes, ?_⟩
  · intro hstate
    apply hs.sound.tripped
    rcases hstate with hc | hc <;> simp [hc]
  · intro hc
    apply hs.probes.imp
    rintro p q hpq ⟨hp, hq⟩
    have hp := canMove_halfOpen hc hp
    have hq := canMove_halfOpen hc hq
    exact hpq (by simp [hp, hq])

/-- Two closed-state calls, one of which trips the breaker, then the probe and its success. -/
def recoveringCalls : List (ℚ × Call) :=
  [(0, .beforeRequest), (0, .beforeRequest), (1, .complete ⟨0, false⟩ .failure),
    (2, .complete ⟨0, false⟩ .failure), (12, .beforeRequest),
    (13, .complete ⟨0, false⟩ .success), (14, .complete ⟨2, true⟩ .success)]

/-- Accepted settings under which one failure opens the circuit for ten seconds. -/
def singleFailure : UpstreamResilienceSettings :=
  { UpstreamResilienceSettings.default with
    failureThreshold := 1
    failureThreshold_range := by decide }

theorem breaker_invariant_recovering :
    Legal singleFailure recoveringCalls ∧
      (run singleFailure recoveringCalls).issued.Pairwise fun p q =>
        ¬ (p.halfOpenProbe = true ∧ q.halfOpenProbe = true ∧ p.generation = q.generation) := by
  have hl : Legal singleFailure recoveringCalls := by decide +kernel
  exact ⟨hl, (breaker_invariant singleFailure recoveringCalls hl).2.2.2.2.2.1⟩

/-- A completion whose permit belongs to another generation. -/
def Call.stale (b : ServiceCircuitBreaker) : Call → Bool
  | .beforeRequest => false
  | .complete p _ => p.generation ≠ b.generation

/-- What one call of a run answered and left behind. -/
structure Entry where
  call : ℚ × Call
  stale : Bool
  reply : Reply
  breaker : ServiceCircuitBreaker

def trace (settings : UpstreamResilienceSettings) :
    ServiceCircuitBreaker → List (ℚ × Call) → List Entry
  | _, [] => []
  | b, c :: calls =>
    let r := c.2.perform settings c.1 b
    ⟨c, c.2.stale b, r.1, r.2⟩ :: trace settings r.2 calls

def withoutStale (settings : UpstreamResilienceSettings) :
    ServiceCircuitBreaker → List (ℚ × Call) → List (ℚ × Call)
  | _, [] => []
  | b, c :: calls =>
    let rest := withoutStale settings (c.2.perform settings c.1 b).2 calls
    if c.2.stale b then rest else c :: rest

theorem perform_stale {b : ServiceCircuitBreaker} (hs : call.stale b = true) :
    call.perform settings t b = (.completion false, b) := by
  cases call with
  | beforeRequest => cases hs
  | complete p s =>
    have hg : p.generation ≠ b.generation := by simpa [Call.stale] using hs
    simp [Call.perform, record_stale hg]

theorem trace_withoutStale (settings : UpstreamResilienceSettings) (b : ServiceCircuitBreaker)
    (calls : List (ℚ × Call)) :
    trace settings b (withoutStale settings b calls) =
      (trace settings b calls).filter (!·.stale) := by
  induction calls generalizing b with
  | nil => rfl
  | cons c calls ih =>
    cases hs : c.2.stale b with
    | false => simp [withoutStale, trace, hs, ih]
    | true => simp [withoutStale, trace, hs, ih, perform_stale hs]

theorem closed_opens_iff (hs : RunSound settings h) (hp : call.Permitted h.issued)
    (hc : h.breaker.state = .closed) :
    (h.after settings (t, call)).breaker.state = .opened ↔
      ∃ p s, call = .complete p s ∧ p.generation = h.breaker.generation ∧
        failureStreak (h.current ++ [s]) = settings.failureThreshold := by
  have hstreak := hs.streak hc
  have hbelow := hs.sound.closed_below hc
  have hthreshold := settings.failureThreshold_range
  cases call with
  | beforeRequest =>
    simp [CircuitHistory.after, Call.perform, ServiceCircuitBreaker.beforeRequest, hc]
  | complete p s =>
    have hcomp := record_completion t hs.sound hp s
    simp only [CircuitHistory.after, Call.perform]
    generalize (h.breaker.record settings t p s).1 = changed at hcomp
    generalize (h.breaker.record settings t p s).2 = b' at hcomp
    cases hcomp with
    | stale hg => simp [hc, hg]
    | ignore hpp _ => simp [hc, hpp]; omega
    | clear hpp _ => simp [hc]; omega
    | count hpp _ hf => simp [hc]; omega
    | trip hpp _ hf => simp [opening, hpp]; omega
    | recover hpp hh => simp [hc] at hh
    | reopen hpp hh hn => simp [hc] at hh

theorem halfOpen_leaves_iff (hs : RunSound settings h) (hp : call.Permitted h.issued)
    (hc : h.breaker.state = .halfOpen) :
    ((h.after settings (t, call)).breaker.state = .closed ↔
      call = .complete ⟨h.breaker.generation, true⟩ .success) ∧
    ((h.after settings (t, call)).breaker.state = .opened ↔
      ∃ s, s ≠ .success ∧ call = .complete ⟨h.breaker.generation, true⟩ s) := by
  cases call with
  | beforeRequest =>
    have hprobe := hs.sound.halfOpen_iff.mp hc
    simp [CircuitHistory.after, Call.perform, ServiceCircuitBreaker.beforeRequest, hc, hprobe]
  | complete p s =>
    have hcomp := record_completion t hs.sound hp s
    simp only [CircuitHistory.after, Call.perform]
    generalize (h.breaker.record settings t p s).1 = changed at hcomp
    generalize (h.breaker.record settings t p s).2 = b' at hcomp
    cases hcomp with
    | stale hg =>
      have hne : p ≠ ⟨h.breaker.generation, true⟩ := fun he => hg (by rw [he])
      simp [hc, hne]
    | ignore hpp hh => simp [hc] at hh
    | clear hpp hh => simp [hc] at hh
    | count hpp hh hf => simp [hc] at hh
    | trip hpp hh hf => simp [hc] at hh
    | recover hpp hh => simp [recovered, hpp]
    | reopen hpp hh hn => simp [opening, hpp, hn]

/-- Counters and transitions follow the current generation's completions, and stale ones
can be deleted from a run without a trace. -/
theorem breaker_history (settings : UpstreamResilienceSettings) (calls : List (ℚ × Call))
    (t : ℚ) (call : Call) (hl : Legal settings (calls ++ [(t, call)])) :
    let h := run settings calls
    let h' := run settings (calls ++ [(t, call)])
    (∀ p s, call = .complete p s → p.generation ≠ h.breaker.generation →
      call.perform settings t h.breaker = (.completion false, h.breaker) ∧
        h'.breaker = h.breaker) ∧
    (h.breaker.state = .closed → h.breaker.consecutiveFailures = failureStreak h.current) ∧
    (h.breaker.state = .closed →
      (h'.breaker.state = .opened ↔
        ∃ p s, call = .complete p s ∧ p.generation = h.breaker.generation ∧
          failureStreak (h.current ++ [s]) = settings.failureThreshold)) ∧
    (h.breaker.state = .halfOpen →
      (h'.breaker.state = .closed ↔ call = .complete ⟨h.breaker.generation, true⟩ .success) ∧
      (h'.breaker.state = .opened ↔
        ∃ s, s ≠ .success ∧ call = .complete ⟨h.breaker.generation, true⟩ s)) ∧
    trace settings .initial (withoutStale settings .initial (calls ++ [(t, call)])) =
      (trace settings .initial (calls ++ [(t, call)])).filter (!·.stale) := by
  intro h h'
  obtain ⟨hl, hp⟩ := legal_append hl
  have hs : RunSound settings h := runSound_run hl
  have hafter : h' = h.after settings (t, call) := run_append settings calls (t, call)
  refine ⟨?_, hs.streak, ?_, ?_, trace_withoutStale settings .initial _⟩
  · intro p s he hg
    have hperform : call.perform settings t h.breaker = (.completion false, h.breaker) :=
      perform_stale (by simpa [he, Call.stale] using hg)
    refine ⟨hperform, ?_⟩
    rw [hafter]
    simp only [CircuitHistory.after, hperform]
  · intro hc
    rw [hafter]
    exact closed_opens_iff hs hp hc
  · intro hc
    rw [hafter]
    exact halfOpen_leaves_iff hs hp hc

/-- The late success of the first circuit lifetime arrives while the probe is in flight. -/
theorem breaker_history_late_success :
    Legal singleFailure (recoveringCalls.take 5 ++ [(13, .complete ⟨0, false⟩ .success)]) ∧
      (run singleFailure (recoveringCalls.take 5)).breaker.state = .halfOpen ∧
      (run singleFailure (recoveringCalls.take 5 ++
        [(13, .complete ⟨0, false⟩ .success)])).breaker =
        (run singleFailure (recoveringCalls.take 5)).breaker := by
  have hl : Legal singleFailure
      (recoveringCalls.take 5 ++ [(13, .complete ⟨0, false⟩ .success)]) := by decide +kernel
  refine ⟨hl, by decide +kernel, ?_⟩
  exact ((breaker_history singleFailure _ _ _ hl).1 _ _ rfl (by decide +kernel)).2

end SecureGateway.Resilience
