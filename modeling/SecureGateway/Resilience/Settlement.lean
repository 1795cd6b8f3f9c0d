import SecureGateway.Resilience.CallProtocol

/-!
# Which calls settle their permit

The pool of calls follows the call protocol of every service. A call that ends without having
settled its permit was left by an exception outside `httpx.RequestError`; if it held the probe
permit, the circuit stays HALF_OPEN for it. Nothing else keeps a circuit from being probed
again.
-/
namespace SecureGateway.Resilience

open Interleaving ServiceCircuitBreaker

variable {x : ResilientUpstreamExecutor}

/-- A pool of calls as one service sees it. -/
def view (service : String) (p : Pool (executorSystem x)) : ServiceView where
  breaker := p.world.breaker service
  calls i := p.threads[i]?.bind fun th =>
    if th.request.serviceName = service then some (status th.history) else none

def callEvent (i : ℕ) : Exchange upstream → CallEvent
  | ⟨.beforeRequest _, r⟩ => .answer i r
  | ⟨.record _ _ s, changed⟩ => .settle i s changed
  | ⟨.request _, _⟩ => .attempt i
  | ⟨.response, .error (.other _)⟩ => .escape i
  | _ => .silent

/-- The event a step is for one service. -/
def eventAt (service : String) (p : Pool (executorSystem x)) :
    Label (executorSystem x) → CallEvent
  | .spawn q => if q.serviceName = service then .start p.threads.length else .silent
  | .tick _ => .silent
  | .act i e =>
    if p.threads[i]?.map (·.request.serviceName) = some service then callEvent i e else .silent

/-- The event of a recorded transition. -/
def Event (t : Transition (executorSystem x)) (service : String) : CallEvent :=
  eventAt service t.before t.label

/-- Every event but a start and silence is an exchange of the call it names. -/
theorem label_of_event {t : Transition (executorSystem x)} {service : String} {e : CallEvent}
    (he : Event t service = e) (hsilent : e ≠ .silent) (hstart : ∀ i, e ≠ .start i) :
    ∃ i y, t.label = .act i y ∧ callEvent i y = e := by
  simp only [Event] at he
  cases hl : t.label with
  | spawn q =>
    simp only [hl, eventAt] at he
    split at he
    · exact (hstart _ he.symm).elim
    · exact (hsilent he.symm).elim
  | tick c =>
    simp only [hl, eventAt] at he
    exact (hsilent he.symm).elim
  | act i y =>
    simp only [hl, eventAt] at he
    split at he
    · exact ⟨i, y, rfl, he⟩
    · exact (hsilent he.symm).elim

section Refinement

variable {service : String} {p p' : Pool (executorSystem x)} {l : Label (executorSystem x)}

theorem view_calls {i : ℕ} {th : Thread (executorSystem x)} (hi : p.threads[i]? = some th)
    (hs : th.request.serviceName = service) :
    (view service p).calls i = some (status th.history) := by
  simp [view, hi, hs]

theorem view_calls_iff {i : ℕ} {c : CallStatus} :
    (view service p).calls i = some c ↔ ∃ th, p.threads[i]? = some th ∧
      th.request.serviceName = service ∧ status th.history = c := by
  simp [view, Option.bind_eq_some_iff]

section Moves

variable {i : ℕ} {th : Thread (executorSystem x)} {w : Circuits} {h : History upstream}
  {program : Prog upstream Raised UpstreamExecutionResult}

/-- The view after a call to this service has moved on. -/
theorem view_set (hi : p.threads[i]? = some th) (hs : th.request.serviceName = service) :
    view service (⟨w, p.threads.set i ⟨th.request, h, program⟩⟩ : Pool (executorSystem x)) =
      (view service p).update (w.breaker service) i (status h) := by
  have hlt : i < p.threads.length := (List.getElem?_eq_some_iff.mp hi).1
  simp only [view, ServiceView.update, ServiceView.mk.injEq, true_and]
  funext k
  by_cases hk : k = i
  · subst hk
    simp [List.getElem?_set_self hlt, hs]
  · simp [List.getElem?_set_ne (Ne.symm hk), hk]

/-- The view after a call to another service has moved on. -/
theorem view_set_other (hi : p.threads[i]? = some th) (hs : th.request.serviceName ≠ service)
    (hw : w.breaker service = p.world.breaker service) :
    view service (⟨w, p.threads.set i ⟨th.request, h, program⟩⟩ : Pool (executorSystem x)) =
      view service p := by
  have hlt : i < p.threads.length := (List.getElem?_eq_some_iff.mp hi).1
  simp only [view, ServiceView.mk.injEq]
  refine ⟨hw, ?_⟩
  funext k
  by_cases hk : k = i
  · subst hk
    simp [List.getElem?_set_self hlt, hi, hs]
  · simp [List.getElem?_set_ne (Ne.symm hk)]

end Moves

theorem update_self {v : ServiceView} {i : ℕ} {c : CallStatus} (hi : v.calls i = some c) :
    v.update v.breaker i c = v := by
  simp only [ServiceView.update, ← hi, Function.update_eq_self]

theorem step_view_spawn (q : UpstreamRequest) :
    CallStep x.settings (view service p) (eventAt service p (.spawn q))
      (view service ⟨p.world, p.threads ++ [Thread.start q]⟩) := by
  by_cases hs : q.serviceName = service
  · have hview : view service ⟨p.world, p.threads ++ [Thread.start q]⟩ =
        (view service p).update (view service p).breaker p.threads.length .initial := by
      simp only [view, ServiceView.update, ServiceView.mk.injEq, true_and]
      funext k
      rcases lt_trichotomy k p.threads.length with hk | rfl | hk
      · simp [List.getElem?_append_left hk, hk.ne]
      · simp [Thread.start, hs]
      · have hle : (p.threads ++ [Thread.start q]).length ≤ k := by simp; omega
        simp [List.getElem?_eq_none hle, List.getElem?_eq_none hk.le, hk.ne']
    rw [hview]
    simp only [eventAt, hs, if_true]
    exact .start (by simp [view])
  · have hview : view service ⟨p.world, p.threads ++ [Thread.start q]⟩ = view service p := by
      simp only [view, ServiceView.mk.injEq, true_and]
      funext k
      rcases lt_trichotomy k p.threads.length with hk | rfl | hk
      · simp [List.getElem?_append_left hk]
      · simp [Thread.start, hs]
      · have hle : (p.threads ++ [Thread.start q]).length ≤ k := by simp; omega
        simp [List.getElem?_eq_none hle, List.getElem?_eq_none hk.le]
    rw [hview]
    simp only [eventAt, hs, if_false]
    exact .silent _

theorem respond_other {c c' : Circuits} {settings : UpstreamResilienceSettings} {op : UpstreamOp}
    {r : op.Reply} {q : UpstreamRequest} {h : History upstream}
    (hok : CallOk q h op) (hs : q.serviceName ≠ service)
    (hw : c.respond settings op r = some c') : c'.breaker service = c.breaker service := by
  cases op with
  | beforeRequest s =>
    obtain ⟨rfl, -⟩ := hok
    simp only [Circuits.respond] at hw
    split at hw <;> cases hw
    simp [Circuits.set, Function.update_of_ne hs.symm]
  | record s permit settlement =>
    obtain ⟨rfl, -⟩ := hok
    simp only [Circuits.respond] at hw
    split at hw <;> cases hw
    simp [Circuits.set, Function.update_of_ne hs.symm]
  | onEvent s e => cases hw; rfl
  | request q' => cases hw; rfl
  | response => cases hw; rfl
  | sleep d => cases hw; rfl

/-- An operation of a call to this service is an event of the service. -/
theorem step_view_act {i : ℕ} {th : Thread (executorSystem x)} {e : Exchange upstream}
    {resume : e.op.Reply → Prog upstream Raised UpstreamExecutionResult} {w : Circuits}
    (hi : p.threads[i]? = some th) (hs : th.request.serviceName = service)
    (hok : CallOk th.request th.history e.op)
    (hw : p.world.respond x.settings e.op e.reply = some w) :
    CallStep x.settings (view service p) (callEvent i e)
      (view service ⟨w, p.threads.set i ⟨th.request, th.history ++ [e], resume e.reply⟩⟩) := by
  have hcalls := view_calls hi hs
  rw [view_set hi hs, status_snoc]
  obtain ⟨op, r⟩ := e
  cases op with
  | beforeRequest s =>
    obtain ⟨rfl, hinit⟩ := hok
    rw [hinit] at hcalls ⊢
    simp only [Circuits.respond] at hw
    split at hw
    · next hr =>
      cases hw
      subst hs
      subst hr
      have hstep : CallStep x.settings _ _ _ := .answer p.world.clock hcalls
      simp only [Circuits.set, Function.update_self]
      cases hb : (p.world.breaker th.request.serviceName).beforeRequest x.settings
          p.world.clock with
      | mk r b =>
        simp only [view, hb] at hstep ⊢
        cases r <;> exact hstep
    · cases hw
  | record s permit settlement =>
    obtain ⟨rfl, hp, -⟩ := hok
    simp only [Circuits.respond] at hw
    split at hw
    · next hr =>
      cases hw
      subst hs
      subst hr
      simp only [Circuits.set, Function.update_self]
      exact .settle p.world.clock settlement hcalls hp
    · cases hw
  | onEvent s event =>
    cases hw
    have hself := update_self hcalls
    simp only [CallStatus.after, callEvent]
    exact hself.symm ▸ .silent _
  | request q' =>
    cases hw
    obtain ⟨-, permit, hp, hprobe⟩ := hok
    exact .attempt hcalls hp hprobe
  | response =>
    cases hw
    obtain ⟨permit, hp, -⟩ := hok
    have hself := update_self hcalls
    cases r with
    | ok _ => exact hself.symm ▸ .silent _
    | error f =>
      cases f with
      | other _ => exact .escape hcalls hp
      | cancelled => exact hself.symm ▸ .silent _
      | requestError _ => exact hself.symm ▸ .silent _
  | sleep delay =>
    cases hw
    have hself := update_self hcalls
    exact hself.symm ▸ .silent _

/-- Every step of the pool is an event of the call protocol of each service. -/
theorem step_view (service : String) (hs : Step p l p') (h : (callDiscipline x).Holds p) :
    CallStep x.settings (view service p) (eventAt service p l) (view service p') := by
  cases hs with
  | spawn q => exact step_view_spawn q
  | tick t => exact .silent _
  | @act i th op resume r w hi hp hw =>
    have hok := ((h i th hi).resume (x := ⟨op, r⟩) hp).1
    by_cases hserv : th.request.serviceName = service
    · simp only [eventAt, hi, Option.map_some, hserv, if_true]
      exact step_view_act hi hserv hok hw
    · rw [view_set_other hi hserv (respond_other hok hserv hw)]
      simp only [eventAt, hi, Option.map_some, Option.some.injEq, hserv, if_false]
      exact .silent _

end Refinement

section Runs

variable {p : Pool (executorSystem x)} {ts : List (Transition (executorSystem x))} {c : ℚ}

/-- No call yet, every circuit as its constructor leaves it. -/
def freshPool (x : ResilientUpstreamExecutor) (c : ℚ) : Pool (executorSystem x) :=
  .initial (Circuits.fresh c)

theorem consistent_initial (c : ℚ) (service : String) :
    Consistent x.settings (view service (freshPool x c)) := by
  have hno : ∀ {i permit s},
      ¬ (view service (freshPool x c)).Holds i permit s := by
    rintro i permit s ⟨d, hd, -⟩
    simp [view, freshPool, Pool.initial] at hd
  have hissued : (view service (freshPool x c)).issued = ∅ := by
    ext permit
    simp [ServiceView.issued, hno]
  refine ⟨?_, fun h => (hno h).elim, fun h => (hno h).elim, fun h => (hno h).elim⟩
  rw [hissued]
  exact sound_initial x.settings

/-- The invariant of the pool: its calls keep their discipline and every service is consistent. -/
def Regular (p : Pool (executorSystem x)) : Prop :=
  (callDiscipline x).Holds p ∧ ∀ service, Consistent x.settings (view service p)

theorem regular_initial (c : ℚ) : Regular (freshPool x c) :=
  ⟨(callDiscipline x).holds_initial _, consistent_initial c⟩

theorem regular_step {p' : Pool (executorSystem x)} {l : Label (executorSystem x)}
    (hs : Step p l p') (h : Regular p) : Regular p' := by
  refine ⟨(callDiscipline x).holds_step hs h.1, fun service => ?_⟩
  exact consistent_step (step_view service hs h.1) (h.2 service)

theorem regular_run (h : Run (freshPool x c) ts p) :
    Regular p ∧ ∀ t ∈ ts, Regular t.before ∧ Regular t.after :=
  h.invariant (regular_initial c) fun hs => regular_step hs

/-- Every admitted call to the service has returned or raised. -/
def AllFinished (p : Pool (executorSystem x)) (service : String) : Prop :=
  ∀ (i : ℕ) (th : Thread (executorSystem x)), p.threads[i]? = some th →
    th.request.serviceName = service → (status th.history).permit ≠ none → th.outcome ≠ none

/-- No call has ended with its permit still pending at a HALF_OPEN breaker, and once all
admitted calls have ended the service can be probed again. -/
structure Settled (p : Pool (executorSystem x)) (service : String) : Prop where
  finished : ∀ (i : ℕ) (th : Thread (executorSystem x)) (permit : CircuitPermit),
    p.threads[i]? = some th → th.request.serviceName = service →
    (status th.history).permit = some permit → th.outcome ≠ none →
    ¬ ((p.world.breaker service).state = .halfOpen ∧
      (p.world.breaker service).generation = permit.generation)
  idle : AllFinished p service →
    ((p.world.breaker service).state = .closed ∨ (p.world.breaker service).state = .opened) ∧
      (p.world.breaker service).halfOpenProbeInFlight = false
  probeable : AllFinished p service → ∀ now : ℚ,
    (∀ openedAt, (p.world.breaker service).openedAt = some openedAt →
      openedAt + x.settings.recoveryTimeoutSeconds ≤ now) →
    ∃ permit, ((p.world.breaker service).beforeRequest x.settings now).1 = .ok permit

/-- An attempt of the call that holds a probe permit ends in an exception that is neither a
`httpx.RequestError` nor a cancellation. -/
def ProbeEscapes (t : Transition (executorSystem x)) (service : String) : Prop :=
  ∃ (i : ℕ) (th : Thread (executorSystem x)) (g : ℕ), Event t service = .escape i ∧
    t.before.threads[i]? = some th ∧ (status th.history).permit = some ⟨g, true⟩

/-- No call holding a probe permit was left by an exception. -/
def NoEscapedProbe (v : ServiceView) : Prop :=
  ∀ i c g, v.calls i = some c → c.permit = some ⟨g, true⟩ → c.escaped = false

theorem noEscapedProbe_update {v : ServiceView} {b : ServiceCircuitBreaker} {i : ℕ}
    {c : CallStatus} (h : NoEscapedProbe v)
    (hc : ∀ g, c.permit = some ⟨g, true⟩ → c.escaped = false) :
    NoEscapedProbe (v.update b i c) := by
  intro k d g hk hd
  by_cases hki : k = i
  · subst hki
    simp only [ServiceView.update, Function.update_self, Option.some.injEq] at hk
    subst hk
    exact hc g hd
  · simp only [ServiceView.update, Function.update_of_ne hki] at hk
    exact h k d g hk hd

theorem noEscapedProbe_step {v v' : ServiceView} {e : CallEvent}
    (hs : CallStep x.settings v e v')
    (he : ∀ i c g, e = .escape i → v.calls i = some c → c.permit ≠ some ⟨g, true⟩)
    (h : NoEscapedProbe v) : NoEscapedProbe v' := by
  cases hs with
  | silent => exact h
  | start hi => exact noEscapedProbe_update h fun g _ => rfl
  | answer now hi =>
    refine noEscapedProbe_update h fun g _ => ?_
    cases (v.breaker.beforeRequest x.settings now).1 <;> rfl
  | settle now s hi hc => exact noEscapedProbe_update h fun g _ => hc.unescaped
  | attempt hi hc hprobe => exact noEscapedProbe_update h fun g _ => hc.unescaped
  | escape hi hc => exact noEscapedProbe_update h fun g hg => (he _ _ g rfl hi hg).elim

theorem noEscapedProbe_run (h : Run (freshPool x c) ts p)
    (hq : ∀ t ∈ ts, ∀ service, ¬ ProbeEscapes t service) :
    ∀ t ∈ ts, Regular t.after ∧ ∀ service, NoEscapedProbe (view service t.after) := by
  have hrun := Run.invariant_along
    (fun p => Regular p ∧ ∀ service, NoEscapedProbe (view service p))
    (fun t => ∀ service, ¬ ProbeEscapes t service) h
    ⟨regular_initial c, fun service i d g hd => by simp [view, freshPool, Pool.initial] at hd⟩ ?_ hq
  · intro t ht
    exact (hrun.2 t ht).2
  · intro q l q' hs hgood hinv
    refine ⟨regular_step hs hinv.1, fun service => ?_⟩
    refine noEscapedProbe_step (step_view service hs hinv.1.1) ?_ (hinv.2 service)
    intro i d g he hd hp
    obtain ⟨th, hi, -, rfl⟩ := view_calls_iff.mp hd
    exact hgood service ⟨i, th, g, he, hi, hp⟩

theorem settled_finished {service : String} (hr : Regular p)
    (he : NoEscapedProbe (view service p)) {i : ℕ} {th : Thread (executorSystem x)}
    {permit : CircuitPermit} (hi : p.threads[i]? = some th)
    (hs : th.request.serviceName = service) (hp : (status th.history).permit = some permit)
    (ho : th.outcome ≠ none) :
    ¬ ((p.world.breaker service).state = .halfOpen ∧
      (p.world.breaker service).generation = permit.generation) := by
  rintro ⟨hhalf, hg⟩
  have hcon := hr.2 service
  have hcalls := view_calls hi hs
  obtain ⟨outcome, ho⟩ := Option.ne_none_iff_exists'.mp ho
  have hpost : CallPost th.history := (hr.1 i th hi).finished ho
  obtain ⟨g, probe⟩ := permit
  cases probe with
  | true =>
    rcases hpost (by simp [hp]) with hset | hesc
    · have hlt := hcon.paid ⟨_, hcalls, hp, hset⟩
      change g < (p.world.breaker service).generation at hlt
      change (p.world.breaker service).generation = g at hg
      omega
    · rw [he i _ g hcalls hp] at hesc
      cases hesc
  | false =>
    rcases hcon.sound.current ⟨g, false⟩ ⟨i, _, _, hcalls, hp, rfl⟩ hg.symm with ⟨hc, -⟩ | ⟨-, hf⟩
    · exact absurd (hhalf.symm.trans hc) (by simp)
    · cases hf

theorem beforeRequest_of_recovered {settings : UpstreamResilienceSettings} {now : ℚ}
    {b : ServiceCircuitBreaker} {issued : Set CircuitPermit} (h : Sound settings b issued)
    (hb : b.state = .closed ∨ b.state = .opened)
    (hnow : ∀ o, b.openedAt = some o → o + settings.recoveryTimeoutSeconds ≤ now) :
    ∃ permit, (b.beforeRequest settings now).1 = .ok permit := by
  rcases hb with hc | hc
  · exact ⟨⟨b.generation, false⟩, by simp [beforeRequest, hc]⟩
  · have hopened : b.openedAt ≠ none := fun he => by simp [h.closed_iff.mpr he] at hc
    obtain ⟨o, ho⟩ := Option.ne_none_iff_exists'.mp hopened
    have hle : settings.recoveryTimeoutSeconds - (now - o) ≤ 0 := by
      have := hnow o ho
      linarith
    exact ⟨⟨b.generation + 1, true⟩, by simp [beforeRequest, hc, retryAfterUnlocked, ho, hle]⟩

theorem settled_of_noEscapedProbe {service : String} (hr : Regular p)
    (he : NoEscapedProbe (view service p)) : Settled p service := by
  have hcon := hr.2 service
  have hidle : AllFinished p service →
      (p.world.breaker service).state = .closed ∨ (p.world.breaker service).state = .opened := by
    intro hall
    cases hb : (p.world.breaker service).state with
    | closed => exact Or.inl rfl
    | opened => exact Or.inr rfl
    | halfOpen =>
      obtain ⟨i, s, d, hd, hp, -⟩ := hcon.sound.probe_issued hb
      obtain ⟨th, hi, hs, rfl⟩ := view_calls_iff.mp hd
      have ho := hall i th hi hs (by simp [hp])
      exact (settled_finished hr he hi hs hp ho ⟨hb, rfl⟩).elim
  refine ⟨fun i th permit hi hs hp ho => settled_finished hr he hi hs hp ho, ?_, ?_⟩
  · intro hall
    refine ⟨hidle hall, ?_⟩
    have hiff : (p.world.breaker service).state = .halfOpen ↔
        (p.world.breaker service).halfOpenProbeInFlight = true := hcon.sound.halfOpen_iff
    rcases hidle hall with hb | hb <;> simpa [hb] using hiff
  · intro hall now hnow
    exact beforeRequest_of_recovered hcon.sound (hidle hall) hnow

/-- A call that an exception has left performs nothing more. -/
theorem escaped_finished {th : Thread (executorSystem x)} (h : (callDiscipline x).Keeps th)
    (he : (status th.history).escaped = true) : th.outcome ≠ none := by
  cases hp : th.program with
  | finish outcome => simp [Thread.outcome, hp]
  | perform op resume =>
    rw [Discipline.Keeps, hp] at h
    have hok : CallOk th.request th.history op := h.1
    have hun : (status th.history).escaped = false := by
      cases op with
      | beforeRequest service => rw [hok.2]; rfl
      | record service permit s => exact hok.2.1.unescaped
      | request q => exact hok.2.choose_spec.1.unescaped
      | response => exact hok.choose_spec.1.unescaped
      | sleep d => exact hok.choose_spec.1.unescaped
      | onEvent service e => exact hok.1
    rw [he] at hun
    cases hun

/-- An escape leaves the breaker HALF_OPEN for a call that has ended. -/
theorem not_settled_of_probeEscapes {t : Transition (executorSystem x)} {service : String}
    (hs : Step t.before t.label t.after) (hr : Regular t.before)
    (he : ProbeEscapes t service) : ¬ Settled t.after service := by
  obtain ⟨i, th, g, hev, hi, hp⟩ := he
  have hstep := step_view service hs hr.1
  have hr' := regular_step hs hr
  rw [show eventAt service t.before t.label = .escape i from hev] at hstep
  generalize hv' : view service t.after = v' at hstep
  cases hstep with
  | @escape i c permit hcall hc =>
    obtain ⟨th₀, hi₀, hserv, hst⟩ := view_calls_iff.mp hcall
    rw [hi] at hi₀
    cases hi₀
    rw [hst] at hp
    obtain ⟨hhalf, hg⟩ := (hr.2 service).owed ⟨c, hcall, hp, hc.unsettled⟩
    have hafter : (view service t.after).calls i = some { c with escaped := true } := by
      rw [hv']
      simp [ServiceView.update]
    have hbreaker : (view service t.after).breaker = (view service t.before).breaker := by
      rw [hv']
      rfl
    obtain ⟨th', hi', hserv', hst'⟩ := view_calls_iff.mp hafter
    intro hset
    refine hset.finished i th' ⟨g, true⟩ hi' hserv' (by rw [hst']; exact hp) ?_ ?_
    · exact escaped_finished (hr'.1 i th' hi') (by rw [hst'])
    · change (view service t.after).breaker.state = _ ∧
        (view service t.after).breaker.generation = _
      rw [hbreaker]
      exact ⟨hhalf, hg⟩

/-- Every admitted call settles its permit, in every state of a run, exactly when no attempt
made with a probe permit ends in an exception outside `httpx.RequestError`. -/
theorem settled_iff_no_probe_escapes (h : Run (freshPool x c) ts p) :
    (∀ t ∈ ts, ∀ service, Settled t.after service) ↔
      ∀ t ∈ ts, ∀ service, ¬ ProbeEscapes t service := by
  constructor
  · intro hset t ht service he
    have hr := ((regular_run h).2 t ht).1
    exact not_settled_of_probeEscapes (h.step ht) hr he (hset t ht service)
  · intro hq t ht service
    obtain ⟨hr, he⟩ := noEscapedProbe_run h hq t ht
    exact settled_of_noEscapedProbe hr (he service)

end Runs

section Escape

/-- The executor with the environment defaults. -/
def defaultExecutor : ResilientUpstreamExecutor where
  settings := .default
  serviceNames := ["service-a", "service-b"]
  hasCallback := false
  upper := String.toUpper

/-- The replies of the breakers, and one for whoever awaits the client. -/
def answers (reply : Except RequestFailure UpstreamResponse) (c : Circuits) :
    (op : UpstreamOp) → op.Reply
  | .beforeRequest service =>
    ((c.breaker service).beforeRequest defaultExecutor.settings c.clock).1
  | .record service permit s =>
    ((c.breaker service).record defaultExecutor.settings c.clock permit s).1
  | .onEvent _ _ => none
  | .request _ => ()
  | .response => reply
  | .sleep _ => .completed

def getRequest : UpstreamRequest :=
  ⟨"service-a", "GET", "http://127.0.0.1:8001/health", [], [], []⟩

/-- Call number `i`, from its start to its end, with a single attempt. -/
def wholeCall (i : ℕ) (reply : Except RequestFailure UpstreamResponse) :
    List (Move (executorSystem defaultExecutor)) :=
  [.spawn getRequest, .act i (answers reply), .act i (answers reply), .act i (answers reply)]

/-- Three responses with status 503 open the circuit, then the recovery timeout passes. -/
def untilRecovery : List (Move (executorSystem defaultExecutor)) :=
  (List.range 3).flatMap (fun i =>
    wholeCall i (.ok ⟨503, [], []⟩) ++ [.act i (answers (.ok ⟨503, [], []⟩))]) ++ [.tick 10]

/-- The probe ends in `httpx.InvalidURL`. -/
def invalidUrlProbe : List (Move (executorSystem defaultExecutor)) :=
  untilRecovery ++ wholeCall 3 (.error (.other "InvalidURL"))

/-- The probe ends in `httpx.ReadTimeout`, which is recorded as a failure. -/
def timeoutProbe : List (Move (executorSystem defaultExecutor)) :=
  untilRecovery ++ wholeCall 3 (.error (.requestError .readTimeout)) ++
    [.act 3 (answers (.error (.requestError .readTimeout)))]

/-- The last state shows an ended call whose probe permit is still pending. -/
def showsPendingProbe (ts : List (Transition (executorSystem defaultExecutor))) : Bool :=
  match ts.getLast? with
  | none => false
  | some t =>
    let b := t.after.world.breaker "service-a"
    match t.after.threads[3]? with
    | none => false
    | some th =>
      th.request.serviceName = "service-a" && th.outcome.isSome &&
        (status th.history).permit = some ⟨b.generation, true⟩ && b.state = .halfOpen

theorem not_settled_of_shows {ts : List (Transition (executorSystem defaultExecutor))}
    (h : showsPendingProbe ts = true) : ∃ t ∈ ts, ¬ Settled t.after "service-a" := by
  simp only [showsPendingProbe] at h
  split at h
  · cases h
  · next t ht =>
    split at h
    · cases h
    · next th hth =>
      simp only [Bool.and_eq_true, decide_eq_true_eq] at h
      obtain ⟨⟨⟨hserv, hout⟩, hp⟩, hhalf⟩ := h
      refine ⟨t, List.mem_of_getLast? ht, fun hset => ?_⟩
      exact hset.finished 3 th _ hth hserv hp (Option.isSome_iff_ne_none.mp hout) ⟨hhalf, rfl⟩

theorem probe_escape_never_settled :
    ¬ ∀ (x : ResilientUpstreamExecutor) (c : ℚ) (ts : List (Transition (executorSystem x)))
      (p : Pool (executorSystem x)), Run (freshPool x c) ts p →
      ∀ t ∈ ts, ∀ service, Settled t.after service := by
  intro h
  have hplay : ((freshPool defaultExecutor 0).play invalidUrlProbe).any showsPendingProbe = true :=
    by decide +kernel
  obtain ⟨ts, hts, hshow⟩ := (Option.any_eq_true _ _).mp hplay
  obtain ⟨q, hrun⟩ := Pool.play_run hts
  obtain ⟨t, ht, hnot⟩ := not_settled_of_shows hshow
  exact hnot (h defaultExecutor 0 ts q hrun t ht "service-a")

def isEscape : Label (executorSystem defaultExecutor) → Bool
  | .act _ ⟨.response, .error (.other _)⟩ => true
  | _ => false

theorem isEscape_of_probeEscapes {t : Transition (executorSystem defaultExecutor)}
    {service : String} (h : ProbeEscapes t service) : isEscape t.label = true := by
  obtain ⟨i, th, g, he, -⟩ := h
  obtain ⟨j, ⟨op, r⟩, hl, hcall⟩ := label_of_event he (by simp) (by simp)
  rw [hl]
  cases op with
  | response =>
    match r, hcall with
    | .error (.other className), _ => rfl
  | beforeRequest s => cases hcall
  | record s permit st => cases hcall
  | onEvent s event => cases hcall
  | request q => cases hcall
  | sleep d => cases hcall

theorem timeout_probe_settled :
    ∃ ts p, Run (freshPool defaultExecutor 0) ts p ∧ ts.length = 21 ∧
      ∀ t ∈ ts, ∀ service, Settled t.after service := by
  have hplay : ((freshPool defaultExecutor 0).play timeoutProbe).any (fun ts =>
      decide (ts.length = 21) && ts.all fun t => !isEscape t.label) = true := by decide +kernel
  obtain ⟨ts, hts, hcheck⟩ := (Option.any_eq_true _ _).mp hplay
  simp only [Bool.and_eq_true, decide_eq_true_eq, List.all_eq_true] at hcheck
  obtain ⟨q, hrun⟩ := Pool.play_run hts
  refine ⟨ts, q, hrun, hcheck.1, (settled_iff_no_probe_escapes hrun).mpr ?_⟩
  intro t ht service he
  have hnot := hcheck.2 t ht
  rw [isEscape_of_probeEscapes he] at hnot
  cases hnot

end Escape

end SecureGateway.Resilience
