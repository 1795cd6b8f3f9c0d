import SecureGateway.Foundation.Noninterference
import SecureGateway.Resilience.Settlement

/-!
# Circuits are isolated

`CircuitBreakerRegistry` gives every service its own breaker. The calls to one service form a
compartment: whatever the calls to other services do and however they are interleaved, those
to this service are answered, retried, refused and settled as if they were alone.
-/
namespace SecureGateway.Resilience

open Interleaving ResilientUpstreamExecutor

variable {x : ResilientUpstreamExecutor} {service : String} {c c' d : Circuits}
  {q : UpstreamRequest} {op : UpstreamOp} {r : op.Reply}

/-- Every call keeps to its own service. -/
def argumentDiscipline (x : ResilientUpstreamExecutor) : Discipline (executorSystem x) where
  ok q _ := CallOp q
  post _ := Given
  handler := wp_execute_given x

/-- The circuits as the calls to `service` see them. -/
structure SameFor (service : String) (c d : Circuits) : Prop where
  breaker_eq : c.breaker service = d.breaker service
  clock_eq : c.clock = d.clock

theorem sameFor_set_other (c : Circuits) (b : ServiceCircuitBreaker) {other : String}
    (hne : other ≠ service) : SameFor service c (c.set other b) :=
  ⟨by simp [Circuits.set, hne.symm], rfl⟩

theorem SameFor.set (h : SameFor service c d) (b : ServiceCircuitBreaker) :
    SameFor service (c.set service b) (d.set service b) :=
  ⟨by simp [Circuits.set], h.clock_eq⟩

/-- A call to another service leaves this circuit alone. -/
theorem respond_foreign {settings : UpstreamResilienceSettings} (hop : CallOp q op)
    (hq : q.serviceName ≠ service) (h : c.respond settings op r = some c') :
    SameFor service c c' := by
  cases hop with
  | beforeRequest =>
    simp only [Circuits.respond] at h
    split at h <;> cases h
    exact sameFor_set_other c _ hq
  | record permit settlement =>
    simp only [Circuits.respond] at h
    split at h <;> cases h
    exact sameFor_set_other c _ hq
  | onEvent event | request | response | sleep delay =>
    cases h
    exact ⟨rfl, rfl⟩

/-- A call to this service is answered from this circuit and the clock. -/
theorem respond_internal {settings : UpstreamResilienceSettings} (hop : CallOp q op)
    (hq : q.serviceName = service) (hsame : SameFor service c d)
    (h : c.respond settings op r = some c') :
    ∃ d', d.respond settings op r = some d' ∧ SameFor service c' d' := by
  subst hq
  cases hop with
  | beforeRequest =>
    simp only [Circuits.respond, ← hsame.breaker_eq, ← hsame.clock_eq] at h ⊢
    split at h <;> cases h
    next hr => exact ⟨_, if_pos hr, hsame.set _⟩
  | record permit settlement =>
    simp only [Circuits.respond, ← hsame.breaker_eq, ← hsame.clock_eq] at h ⊢
    split at h <;> cases h
    next hr => exact ⟨_, if_pos hr, hsame.set _⟩
  | onEvent event | request | response | sleep delay =>
    cases h
    exact ⟨d, rfl, hsame⟩

/-- The calls to one service. -/
def callsTo (x : ResilientUpstreamExecutor) (service : String) :
    Compartment (executorSystem x) where
  discipline := argumentDiscipline x
  own q := q.serviceName = service
  agree := SameFor service
  agree_refl _ := ⟨rfl, rfl⟩
  agree_trans h h' := ⟨h.breaker_eq.trans h'.breaker_eq, h.clock_eq.trans h'.clock_eq⟩
  agree_symm h := ⟨h.breaker_eq.symm, h.clock_eq.symm⟩
  foreign hq hop h := respond_foreign hop (by simpa using hq) h
  internal hq hop hsame h := respond_internal hop (by simpa using hq) hsame h
  advance t h := ⟨h.breaker_eq, by simp [h.clock_eq]⟩

/-- Taking away all calls to other services leaves a run, scheduled the same way, in which every
call to this service sees the same replies at the same times and ends the same way, and this
circuit ends in the same state. -/
theorem circuits_isolated (x : ResilientUpstreamExecutor) (service : String) {c : Circuits}
    {ts : List (Transition (executorSystem x))} {p : Pool (executorSystem x)}
    (h : Run (.initial c : Pool (executorSystem x)) ts p) :
    ∃ ts' alone, Run (.initial c : Pool (executorSystem x)) ts' alone ∧
      alone.threads = p.threads.filter (fun th => th.request.serviceName = service) ∧
      alone.world.breaker service = p.world.breaker service ∧
      (callsTo x service).events ts' = (callsTo x service).events ts ∧
      (Cooperative UpstreamOp.suspends ts → Cooperative UpstreamOp.suspends ts') := by
  obtain ⟨ts', alone, hrun, hpurged, hevents, hcoop⟩ := h.purge (callsTo x service)
  exact ⟨ts', alone, hrun, hpurged.threads_eq, hpurged.agree.breaker_eq.symm, hevents,
    hcoop UpstreamOp.suspends⟩

/-- The circuit of service a has opened, and service b has seen nothing of it. -/
def showsOneOpened (ts : List (Transition (executorSystem defaultExecutor))) : Bool :=
  ts.getLast?.any fun t => (t.after.world.breaker "service-a").state = .opened

theorem circuits_isolated_opened :
    ∃ ts p, Run (freshPool defaultExecutor 0) ts p ∧ showsOneOpened ts = true ∧
      ∃ ts' alone, Run (freshPool defaultExecutor 0) ts' alone ∧
        alone.world.breaker "service-b" = p.world.breaker "service-b" ∧
        (callsTo defaultExecutor "service-b").events ts' =
          (callsTo defaultExecutor "service-b").events ts := by
  have hplay : ((freshPool defaultExecutor 0).play untilRecovery).any showsOneOpened = true := by
    decide +kernel
  obtain ⟨ts, hts, hshow⟩ := (Option.any_eq_true _ _).mp hplay
  obtain ⟨p, hrun⟩ := Pool.play_run hts
  obtain ⟨ts', alone, hrun', -, hbreaker, hevents, -⟩ :=
    circuits_isolated defaultExecutor "service-b" hrun
  exact ⟨ts, p, hrun, hshow, ts', alone, hrun', hbreaker, hevents⟩

end SecureGateway.Resilience
