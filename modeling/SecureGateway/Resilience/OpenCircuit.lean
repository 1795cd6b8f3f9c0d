import SecureGateway.Resilience.Settlement

/-!
# Traffic through an open circuit

Admission is checked once for each call, its attempts come later. The first attempt follows
its admission without a switch in between, so it meets the breaker as the admission left it.
A retry does not: it meets the circuit as other calls have left it in the meantime.
-/
namespace SecureGateway.Resilience

open Interleaving ServiceCircuitBreaker

variable {x : ResilientUpstreamExecutor} {p : Pool (executorSystem x)}
  {ts : List (Transition (executorSystem x))} {c : ℚ} {service : String}

/-- An event that opens the circuit. -/
def CallEvent.Opens (e : CallEvent) : Prop := ∃ i s, s ≠ .success ∧ e = .settle i s true

/-- An event that closes the circuit. -/
def CallEvent.Recovers (e : CallEvent) : Prop := ∃ i, e = .settle i .success true

/-- An attempt that starts at this transition does not start on an OPEN circuit, and on a
HALF_OPEN one only with the current probe permit. -/
def NoTrafficWhenOpen (t : Transition (executorSystem x)) (service : String) : Prop :=
  ∀ i, Event t service = .attempt i →
    (t.before.world.breaker service).state ≠ .opened ∧
    ((t.before.world.breaker service).state = .halfOpen → ∃ th, t.before.threads[i]? = some th ∧
      (status th.history).permit = some ⟨(t.before.world.breaker service).generation, true⟩)

/-- The transition starts a further attempt of call `i`. -/
def Retries (t : Transition (executorSystem x)) (service : String) (i : ℕ) : Prop :=
  Event t service = .attempt i ∧
    ∃ th, t.before.threads[i]? = some th ∧ (status th.history).attempts ≠ 0

/-- Whenever the circuit has opened between the admission of a call and a retry of it, the
circuit was closed again before that retry. -/
def RecoveredBeforeRetry (ts : List (Transition (executorSystem x))) : Prop :=
  ∀ service i permit l₁ l₂ l₃ opening retry, ts = l₁ ++ opening :: (l₂ ++ retry :: l₃) →
    (∃ t ∈ l₁, Event t service = .answer i (.ok permit)) → (Event opening service).Opens →
    Retries retry service i → ∃ t ∈ l₂, (Event t service).Recovers

section Protocol

variable {settings : UpstreamResilienceSettings} {v v' : ServiceView} {e : CallEvent}

/-- When the circuit is CLOSED after an event. -/
theorem closed_after_iff (h : Consistent settings v) (hs : CallStep settings v e v') :
    v'.breaker.state = .closed ↔ e.Recovers ∨ (v.breaker.state = .closed ∧ ¬ e.Opens) := by
  cases hs with
  | silent => simp [CallEvent.Recovers, CallEvent.Opens]
  | start hi => simp [CallEvent.Recovers, CallEvent.Opens, ServiceView.update]
  | attempt hi hc hprobe => simp [CallEvent.Recovers, CallEvent.Opens, ServiceView.update]
  | escape hi hc => simp [CallEvent.Recovers, CallEvent.Opens, ServiceView.update]
  | answer now hi =>
    have hadm := beforeRequest_admission now h.sound
    generalize (v.breaker.beforeRequest settings now).1 = r at hadm ⊢
    generalize (v.breaker.beforeRequest settings now).2 = b at hadm ⊢
    cases hadm with
    | pass hc | reject hc hr | busy hc =>
      simp [CallEvent.Recovers, CallEvent.Opens, ServiceView.update]
    | probe hc hr =>
      simp [CallEvent.Recovers, CallEvent.Opens, ServiceView.update, probing, hc]
  | @settle i d permit now s hi hc =>
    have hheld : v.Holds i permit false := ⟨d, hi, hc.permit_eq, hc.unsettled⟩
    have hcomp := record_completion now h.sound ⟨i, false, hheld⟩ s
    generalize (v.breaker.record settings now permit s).1 = changed at hcomp ⊢
    generalize (v.breaker.record settings now permit s).2 = b at hcomp ⊢
    cases hcomp with
    | stale hg | ignore hp hc | clear hp hc | count hp hc hf =>
      simp [CallEvent.Recovers, CallEvent.Opens, ServiceView.update]
    | trip hp hc hf => simp [CallEvent.Recovers, CallEvent.Opens, ServiceView.update, opening]
    | recover hp hc => simp [CallEvent.Recovers, ServiceView.update, recovered]
    | reopen hp hc hs =>
      simp [CallEvent.Recovers, CallEvent.Opens, ServiceView.update, opening, hs, hc]

/-- Permits come from answers only. -/
theorem permit_after {i : ℕ} {d' : CallStatus} {permit : CircuitPermit}
    (hs : CallStep settings v e v') (hd : v'.calls i = some d') (hp : d'.permit = some permit) :
    e = .answer i (.ok permit) ∨ ∃ d, v.calls i = some d ∧ d.permit = some permit := by
  have hupdate : ∀ {b j f}, (v.update b j f).calls i = some d' →
      (i = j ∧ f = d') ∨ v.calls i = some d' := by
    intro b j f hf
    by_cases hij : i = j
    · subst hij
      simp only [ServiceView.update, Function.update_self, Option.some.injEq] at hf
      exact Or.inl ⟨rfl, hf⟩
    · simp only [ServiceView.update, Function.update_of_ne hij] at hf
      exact Or.inr hf
  cases hs with
  | silent => exact Or.inr ⟨d', hd, hp⟩
  | start hi =>
    rcases hupdate hd with ⟨rfl, rfl⟩ | hd
    · cases hp
    · exact Or.inr ⟨d', hd, hp⟩
  | answer now hi =>
    rcases hupdate hd with ⟨rfl, rfl⟩ | hd
    · left
      cases hr : (v.breaker.beforeRequest settings now).1 with
      | error err =>
        rw [hr] at hp
        cases hp
      | ok q =>
        rw [hr] at hp
        cases hp
        rfl
    · exact Or.inr ⟨d', hd, hp⟩
  | settle now s hi hc =>
    rcases hupdate hd with ⟨rfl, rfl⟩ | hd
    · exact Or.inr ⟨_, hi, hp⟩
    · exact Or.inr ⟨d', hd, hp⟩
  | attempt hi hc hprobe =>
    rcases hupdate hd with ⟨rfl, rfl⟩ | hd
    · exact Or.inr ⟨_, hi, hp⟩
    · exact Or.inr ⟨d', hd, hp⟩
  | escape hi hc =>
    rcases hupdate hd with ⟨rfl, rfl⟩ | hd
    · exact Or.inr ⟨_, hi, hp⟩
    · exact Or.inr ⟨d', hd, hp⟩

/-- A granted permit carries the generation that its admission leaves. -/
theorem generation_of_answer {i : ℕ} {permit : CircuitPermit} (h : Consistent settings v)
    (hs : CallStep settings v (.answer i (.ok permit)) v') :
    v'.breaker.generation = permit.generation ∧
      (permit.halfOpenProbe = false → v'.breaker.state = .closed) := by
  generalize hr : (Except.ok permit : Except CircuitOpenError CircuitPermit) = r at hs
  cases hs with
  | answer now hi =>
    have hadm := beforeRequest_admission now h.sound
    rw [← hr] at hadm
    generalize (v.breaker.beforeRequest settings now).2 = b at hadm ⊢
    cases hadm with
    | pass hc => exact ⟨rfl, fun _ => hc⟩
    | probe hc hr => exact ⟨rfl, fun hf => by cases hf⟩

end Protocol

theorem view_fresh_calls (i : ℕ) : (view service (freshPool x c)).calls i = none := by
  simp [view, freshPool, Pool.initial]

theorem answered_run (h : Run (freshPool x c) ts p) {i : ℕ} {d : CallStatus}
    {permit : CircuitPermit} (hd : (view service p).calls i = some d)
    (hp : d.permit = some permit) : ∃ t ∈ ts, Event t service = .answer i (.ok permit) := by
  induction h generalizing d with
  | refl =>
    rw [view_fresh_calls] at hd
    cases hd
  | @snoc ts q q' l hr hs ih =>
    have hstep := step_view service hs (regular_run hr).1.1
    rcases permit_after hstep hd hp with he | ⟨d₀, hd₀, hp₀⟩
    · exact ⟨_, List.mem_append_right _ (List.mem_singleton.mpr rfl), he⟩
    · obtain ⟨t, ht, he⟩ := ih hd₀ hp₀
      exact ⟨t, List.mem_append_left _ ht, he⟩

/-- A call admitted by a CLOSED circuit finds it CLOSED, or it has opened since and has not
recovered. -/
theorem opened_since_admission (h : Run (freshPool x c) ts p) {i g : ℕ} {d : CallStatus}
    (hd : (view service p).calls i = some d) (hp : d.permit = some ⟨g, false⟩) :
    (view service p).breaker.state = .closed ∨
      ∃ l₁ o l₂, ts = l₁ ++ o :: l₂ ∧ (∃ t ∈ l₁, Event t service = .answer i (.ok ⟨g, false⟩)) ∧
        (Event o service).Opens ∧ ∀ t ∈ l₂, ¬ (Event t service).Recovers := by
  induction h generalizing d with
  | refl =>
    rw [view_fresh_calls] at hd
    cases hd
  | @snoc ts q q' l hr hs ih =>
    have hcon := (regular_run hr).1.2 service
    have hstep := step_view service hs (regular_run hr).1.1
    by_cases hclosed : (view service q').breaker.state = .closed
    · exact Or.inl hclosed
    · right
      have hiff := closed_after_iff hcon hstep
      have hnr : ¬ (eventAt service q l).Recovers := fun hrec => hclosed (hiff.mpr (Or.inl hrec))
      rcases permit_after hstep hd hp with he | ⟨d₀, hd₀, hp₀⟩
      · rw [he] at hstep
        exact (hclosed ((generation_of_answer hcon hstep).2 rfl)).elim
      · rcases ih hd₀ hp₀ with hc | ⟨l₁, o, l₂, rfl, ha, ho, hl₂⟩
        · have hopens : (eventAt service q l).Opens := by
            by_contra hno
            exact hclosed (hiff.mpr (Or.inr ⟨hc, hno⟩))
          exact ⟨ts, _, [], rfl, answered_run hr hd₀ hp₀, hopens, by simp⟩
        · refine ⟨l₁, o, l₂ ++ [⟨q, l, q'⟩], by simp, ha, ho, ?_⟩
          intro t ht
          rcases List.mem_append.mp ht with ht | ht
          · exact hl₂ t ht
          · cases List.mem_singleton.mp ht
            exact hnr

/-- An open circuit stays open or half open until an event closes it. -/
theorem not_closed_since {l₁ l₂ : List (Transition (executorSystem x))}
    {o : Transition (executorSystem x)} (h : Run (freshPool x c) (l₁ ++ o :: l₂) p)
    (ho : (Event o service).Opens) (hl₂ : ∀ t ∈ l₂, ¬ (Event t service).Recovers) :
    (view service p).breaker.state ≠ .closed := by
  induction l₂ using List.reverseRecOn generalizing p with
  | nil =>
    obtain ⟨hr, hs, rfl⟩ := h.snoc_inv
    have hreg := (regular_run hr).1
    intro hclosed
    rcases (closed_after_iff (hreg.2 service) (step_view service hs hreg.1)).mp hclosed with
      hrec | ⟨-, hno⟩
    · obtain ⟨i, s, hne, he⟩ := ho
      obtain ⟨j, he'⟩ := hrec
      cases he.symm.trans he'
      exact hne rfl
    · exact hno ho
  | append_singleton l₂ t ih =>
    rw [← List.cons_append, ← List.append_assoc] at h
    obtain ⟨hr, hs, rfl⟩ := h.snoc_inv
    have hreg := (regular_run hr).1
    have hnot := ih hr fun u hu => hl₂ u (List.mem_append_left _ hu)
    intro hclosed
    rcases (closed_after_iff (hreg.2 service) (step_view service hs hreg.1)).mp hclosed with
      hrec | ⟨hc, -⟩
    · exact hl₂ t (by simp) hrec
    · exact hnot hc

section FirstAttempt

/-- A call that is about to start its first attempt holds a permit of the current generation. -/
def Ready (p : Pool (executorSystem x)) : Prop :=
  ∀ (i : ℕ) (th : Thread (executorSystem x)) (q : UpstreamRequest) (permit : CircuitPermit),
    p.threads[i]? = some th → th.nextOp = some (.request q) → (status th.history).attempts = 0 →
    (status th.history).permit = some permit →
    (p.world.breaker th.request.serviceName).generation = permit.generation

/-- The exchange after which a call holds a permit and has not attempted yet. -/
theorem granted_of_ready {th : Thread (executorSystem x)} {e : Exchange upstream}
    {permit : CircuitPermit} (hok : CallOk th.request th.history e.op)
    (ha : ((status th.history).after e).attempts = 0)
    (hp : ((status th.history).after e).permit = some permit) (i : ℕ) :
    callEvent i e = .answer i (.ok permit) := by
  obtain ⟨op, r⟩ := e
  cases op with
  | beforeRequest service =>
    cases r with
    | ok q =>
      cases hp
      rfl
    | error e =>
      have hinit : status th.history = .initial := hok.2
      simp [CallStatus.after, hinit, CallStatus.initial] at hp
  | record service q s => exact (hok.2.2 ha).elim
  | request q => simp [CallStatus.after] at ha
  | response =>
    obtain ⟨q, -, hne⟩ := hok
    cases r with
    | ok _ => exact (hne ha).elim
    | error f => cases f <;> exact (hne ha).elim
  | sleep delay =>
    obtain ⟨q, -, hne⟩ := hok
    exact (hne ha).elim
  | onEvent service event =>
    have hn : (status th.history).permit ≠ none := by
      intro hnone
      simp [CallStatus.after, hnone] at hp
    exact (hok.2 hn ha).elim

theorem ready_step {q q' : Pool (executorSystem x)} {l : Label (executorSystem x)}
    (hs : Step q l q') (hcoop : Cooperative UpstreamOp.suspends [⟨q, l, q'⟩]) (hr : Regular q)
    (h : Ready q) : Ready q' := by
  intro i th q₀ permit hi hnext ha hp
  rcases hs.thread_cases hi with hi₀ | ⟨r, -, -, rfl⟩ | ⟨e, th₀, resume, rfl, hi₀, hpr, -, rfl⟩
  · -- The thread has not moved: only time may have passed, or it would have to wait.
    have hwait : ((∃ r, l = .spawn r) ∨ ∃ j e, l = .act j e ∧ j ≠ i) → False := by
      intro hl
      have hw := hcoop _ (List.mem_singleton.mpr rfl) i th hi₀ hl _ hnext
      cases hw
    cases hl : l with
    | spawn r => exact (hwait (Or.inl ⟨r, hl⟩)).elim
    | tick t =>
      subst hl
      obtain ⟨hw, -⟩ := hs.tick_inv
      rw [hw]
      exact h i th q₀ permit hi₀ hnext ha hp
    | act j e =>
      by_cases hij : j = i
      · subst hij hl
        obtain ⟨th₁, resume, hi₁, -, -, hts⟩ := hs.act_inv
        have hlt : j < q.threads.length := (List.getElem?_eq_some_iff.mp hi₀).1
        rw [hi₀] at hi₁
        cases hi₁
        rw [hts, List.getElem?_set_self hlt] at hi
        have hlen := congrArg (fun th => th.history.length) (Option.some.inj hi)
        simp at hlen
      · exact (hwait (Or.inr ⟨j, e, hl, hij⟩)).elim
  · cases hp
  · have hok : CallOk th₀.request th₀.history e.op := ((hr.1 i th₀ hi₀).resume hpr).1
    simp only [status_snoc] at ha hp
    have hev := granted_of_ready hok ha hp i
    have hstep := step_view th₀.request.serviceName hs hr.1
    simp only [eventAt, hi₀, Option.map_some, if_true, hev] at hstep
    exact (generation_of_answer (hr.2 _) hstep).1

theorem ready_run (h : Run (freshPool x c) ts p) (hcoop : Cooperative UpstreamOp.suspends ts) :
    ∀ t ∈ ts, Ready t.before := by
  have hrun := Run.invariant_along (fun p => Regular p ∧ Ready p)
    (fun t => Cooperative UpstreamOp.suspends [t]) h
    ⟨regular_initial c, fun i th q permit hi => by simp [freshPool, Pool.initial] at hi⟩
    (fun hs hgood hinv => ⟨regular_step hs hinv.1, ready_step hs hgood hinv.1 hinv.2⟩) ?_
  · intro t ht
    exact (hrun.2 t ht).1.2
  · intro t ht u hu
    rw [List.mem_singleton.mp hu]
    exact hcoop t ht

end FirstAttempt

theorem attempt_label {t : Transition (executorSystem x)} {i : ℕ}
    (he : Event t service = .attempt i) : ∃ q r, t.label = .act i ⟨.request q, r⟩ := by
  obtain ⟨j, ⟨op, r⟩, hl, hcall⟩ := label_of_event he (by simp) (by simp)
  cases op with
  | request q =>
    cases hcall
    exact ⟨q, r, hl⟩
  | response =>
    match r, hcall with
    | .ok _, hcall | .error .cancelled, hcall | .error (.requestError _), hcall
    | .error (.other _), hcall => cases hcall
  | beforeRequest s => cases hcall
  | record s permit st => cases hcall
  | onEvent s event => cases hcall
  | sleep d => cases hcall

/-- A call admitted by a CLOSED circuit attempts on a CLOSED circuit: at its first attempt
nothing has come between, at a retry the circuit has recovered. -/
theorem closed_at_attempt {l l₃ : List (Transition (executorSystem x))}
    {t : Transition (executorSystem x)} (h : Run (freshPool x c) (l ++ t :: l₃) p)
    (hcoop : Cooperative UpstreamOp.suspends (l ++ t :: l₃))
    (hq : RecoveredBeforeRetry (l ++ t :: l₃)) {i g : ℕ} {th : Thread (executorSystem x)}
    (hev : Event t service = .attempt i) (hi : t.before.threads[i]? = some th)
    (hs : th.request.serviceName = service)
    (hp : (status th.history).permit = some ⟨g, false⟩) :
    (t.before.world.breaker service).state = .closed := by
  have ht : t ∈ l ++ t :: l₃ := by simp
  have hcalls := view_calls hi hs
  by_cases ha : (status th.history).attempts = 0
  · obtain ⟨q, r, hl⟩ := attempt_label hev
    have hstep := h.step ht
    rw [hl] at hstep
    obtain ⟨th', resume, hi', hprog, -⟩ := hstep.act_inv
    rw [hi] at hi'
    cases hi'
    have hnext : th.nextOp = some (.request q) := by simp [Thread.nextOp, hprog]
    have hgen := ready_run h hcoop t ht i th q ⟨g, false⟩ hi hnext ha hp
    rw [hs] at hgen
    have hcon := (regular_run h.upTo).1.2 service
    rcases hcon.sound.current ⟨g, false⟩ ⟨i, _, _, hcalls, hp, rfl⟩ hgen.symm with
      ⟨hc, -⟩ | ⟨-, hf⟩
    · exact hc
    · cases hf
  · rcases opened_since_admission h.upTo hcalls hp with hc | ⟨l₁, o, l₂, rfl, hadm, ho, hl₂⟩
    · exact hc
    · have hsplit : (l₁ ++ o :: l₂) ++ t :: l₃ = l₁ ++ o :: (l₂ ++ t :: l₃) := by simp
      obtain ⟨u, hu, hrec⟩ :=
        hq service i _ l₁ l₂ l₃ o t hsplit hadm ho ⟨hev, th, hi, ha⟩
      exact (hl₂ u hu hrec).elim

/-- No attempt meets an open circuit exactly when the circuit was closed again before every
retry of a call during which it had opened. -/
theorem no_traffic_when_open_iff (h : Run (freshPool x c) ts p)
    (hcoop : Cooperative UpstreamOp.suspends ts) :
    (∀ t ∈ ts, ∀ service, NoTrafficWhenOpen t service) ↔ RecoveredBeforeRetry ts := by
  constructor
  · rintro hp service i permit l₁ l₂ l₃ o r rfl - ho ⟨hev, th, hi, ha⟩
    by_contra hno
    push Not at hno
    have hsplit : l₁ ++ o :: (l₂ ++ r :: l₃) = (l₁ ++ o :: l₂) ++ r :: l₃ := by simp
    have hmem : r ∈ l₁ ++ o :: (l₂ ++ r :: l₃) := by simp
    have hpre : Run (freshPool x c) (l₁ ++ o :: l₂) r.before := by
      rw [hsplit] at h
      exact h.upTo
    have hnot := not_closed_since hpre ho hno
    obtain ⟨hopened, hhalf⟩ := hp r hmem service i hev
    have hstate : (r.before.world.breaker service).state = .halfOpen := by
      cases hb : (r.before.world.breaker service).state with
      | closed => exact (hnot hb).elim
      | opened => exact (hopened hb).elim
      | halfOpen => rfl
    obtain ⟨th', hi', hperm⟩ := hhalf hstate
    rw [hi] at hi'
    cases hi'
    have hstep := step_view service (h.step hmem) (regular_run hpre).1.1
    rw [show eventAt service r.before r.label = .attempt i from hev] at hstep
    generalize view service r.after = v' at hstep
    cases hstep with
    | @attempt _ d permit' hd hpend hprobe =>
      obtain ⟨th', hi', -, rfl⟩ := view_calls_iff.mp hd
      rw [hi] at hi'
      cases hi'
      have hpe := hpend.permit_eq
      rw [hperm] at hpe
      cases hpe
      exact ha (hprobe rfl)
  · intro hq t ht service i hev
    obtain ⟨l, l₃, rfl⟩ := List.append_of_mem ht
    have hpre := h.upTo
    have hreg := (regular_run hpre).1
    have hcon := hreg.2 service
    have hstep := step_view service (h.step ht) hreg.1
    rw [show eventAt service t.before t.label = .attempt i from hev] at hstep
    generalize view service t.after = v' at hstep
    cases hstep with
    | @attempt _ d permit hd hpend hprobe =>
      obtain ⟨th, hi, hserv, rfl⟩ := view_calls_iff.mp hd
      obtain ⟨g, probe⟩ := permit
      cases probe with
      | true =>
        obtain ⟨hhalf, hg⟩ := hcon.owed ⟨_, hd, hpend.permit_eq, hpend.unsettled⟩
        have hstate : (t.before.world.breaker service).state = .halfOpen := hhalf
        refine ⟨by simp [hstate], fun _ => ⟨th, hi, ?_⟩⟩
        rw [hpend.permit_eq]
        exact congrArg (fun g => some (CircuitPermit.mk g true)) hg.symm
      | false =>
        have hc := closed_at_attempt h hcoop hq hev hi hserv hpend.permit_eq
        exact ⟨by simp [hc], fun hhalf => by simp [hc] at hhalf⟩

section Overlap

/-- Call 0 loses its connection and sleeps before its retry. -/
def untilSleep : List (Move (executorSystem defaultExecutor)) :=
  wholeCall 0 (.error (.requestError .connectError))

/-- While call 0 sleeps, three other calls open the circuit; then call 0 wakes up and retries. -/
def retryOnOpenCircuit : List (Move (executorSystem defaultExecutor)) :=
  untilSleep ++
    [1, 2, 3].flatMap (fun i =>
      wholeCall i (.ok ⟨503, [], []⟩) ++ [.act i (answers (.ok ⟨503, [], []⟩))]) ++
    [.act 0 (answers (.ok ⟨200, [], []⟩)), .act 0 (answers (.ok ⟨200, [], []⟩))]

/-- Call 0 wakes up on a CLOSED circuit, and its retry succeeds. -/
def retryOnClosedCircuit : List (Move (executorSystem defaultExecutor)) :=
  untilSleep ++ List.replicate 4 (.act 0 (answers (.ok ⟨200, [], []⟩)))

/-- The last step of a cooperative run starts an attempt on an OPEN circuit. -/
def showsOpenTraffic (ts : List (Transition (executorSystem defaultExecutor))) : Bool :=
  ts.all (Transition.cooperates UpstreamOp.suspends) &&
    match ts.getLast? with
    | none => false
    | some t =>
      Event t "service-a" = .attempt 0 && (t.before.world.breaker "service-a").state = .opened

theorem retry_meets_open_circuit :
    ¬ ∀ (x : ResilientUpstreamExecutor) (c : ℚ) (ts : List (Transition (executorSystem x)))
      (p : Pool (executorSystem x)), Run (freshPool x c) ts p →
      Cooperative UpstreamOp.suspends ts →
      ∀ t ∈ ts, ∀ service, NoTrafficWhenOpen t service := by
  intro h
  have hplay :
      ((freshPool defaultExecutor 0).play retryOnOpenCircuit).any showsOpenTraffic = true := by
    decide +kernel
  obtain ⟨ts, hts, hshow⟩ := (Option.any_eq_true _ _).mp hplay
  obtain ⟨q, hrun⟩ := Pool.play_run hts
  simp only [showsOpenTraffic, Bool.and_eq_true] at hshow
  obtain ⟨hcoop, hlast⟩ := hshow
  split at hlast
  · cases hlast
  · next t ht =>
    simp only [Bool.and_eq_true, decide_eq_true_eq] at hlast
    have hno := h defaultExecutor 0 ts q hrun (cooperative_of_cooperates _ hcoop) t
      (List.mem_of_getLast? ht) "service-a" 0 hlast.1
    exact hno.1 hlast.2

def isOpening : Label (executorSystem defaultExecutor) → Bool
  | .act _ ⟨.record _ _ .failure, true⟩ | .act _ ⟨.record _ _ .neutral, true⟩ => true
  | _ => false

theorem isOpening_of_opens {t : Transition (executorSystem defaultExecutor)}
    (h : (Event t service).Opens) : isOpening t.label = true := by
  obtain ⟨i, s, hs, he⟩ := h
  obtain ⟨j, ⟨op, r⟩, hl, hcall⟩ := label_of_event he (by simp) (by simp)
  rw [hl]
  cases op with
  | record service permit st =>
    cases hcall
    cases s with
    | success => exact (hs rfl).elim
    | failure => rfl
    | neutral => rfl
  | response =>
    match r, hcall with
    | .ok _, hcall | .error .cancelled, hcall | .error (.requestError _), hcall
    | .error (.other _), hcall => cases hcall
  | beforeRequest s => cases hcall
  | onEvent s event => cases hcall
  | request q => cases hcall
  | sleep d => cases hcall

theorem retry_on_closed_circuit :
    ∃ ts p, Run (freshPool defaultExecutor 0) ts p ∧ Cooperative UpstreamOp.suspends ts ∧
      (∃ t ∈ ts, Retries t "service-a" 0) ∧
      ∀ t ∈ ts, ∀ service, NoTrafficWhenOpen t service := by
  have hplay : ((freshPool defaultExecutor 0).play retryOnClosedCircuit).any (fun ts =>
      ts.all (Transition.cooperates UpstreamOp.suspends) &&
      (ts.any fun t => Event t "service-a" = .attempt 0 &&
        t.before.threads[0]?.any fun th => (status th.history).attempts = 1) &&
      ts.all fun t => !isOpening t.label) = true := by decide +kernel
  obtain ⟨ts, hts, hcheck⟩ := (Option.any_eq_true _ _).mp hplay
  simp only [Bool.and_eq_true] at hcheck
  obtain ⟨⟨hc, hretry⟩, hopen⟩ := hcheck
  obtain ⟨q, hrun⟩ := Pool.play_run hts
  have hcoop : Cooperative UpstreamOp.suspends ts := cooperative_of_cooperates _ hc
  refine ⟨ts, q, hrun, hcoop, ?_, (no_traffic_when_open_iff hrun hcoop).mpr ?_⟩
  · obtain ⟨t, ht, hr⟩ := List.any_eq_true.mp hretry
    simp only [Bool.and_eq_true, decide_eq_true_eq] at hr
    obtain ⟨th, hth, ha⟩ := (Option.any_eq_true _ _).mp hr.2
    refine ⟨t, ht, hr.1, th, hth, ?_⟩
    simp only [decide_eq_true_eq] at ha
    omega
  · rintro service i permit l₁ l₂ l₃ o r rfl - ho -
    have hnot := List.all_eq_true.mp hopen o (by simp)
    rw [isOpening_of_opens ho] at hnot
    cases hnot

end Overlap

end SecureGateway.Resilience
