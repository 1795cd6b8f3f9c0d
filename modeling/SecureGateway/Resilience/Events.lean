import SecureGateway.Foundation.Erasure
import SecureGateway.Resilience.RetrySafety

/-!
# Resilience events

The callback of an executor cannot disturb its calls: without it they perform the same
operations on the same circuits and end in the same way. What it is told is what happens: the
transitions of a circuit in order, one event for each refused call and one for each retry.
-/
namespace SecureGateway.Resilience

open Interleaving ResilientUpstreamExecutor

def UpstreamOp.isOnEvent : UpstreamOp → Bool
  | .onEvent _ _ => true
  | _ => false

/-- A call of the callback. -/
abbrev Callback (op : UpstreamOp) : Prop := op.isOnEvent = true

/-- The same executor without `on_event`. -/
def ResilientUpstreamExecutor.silenced (x : ResilientUpstreamExecutor) :
    ResilientUpstreamExecutor :=
  { x with hasCallback := false }

section Silence

variable (x : ResilientUpstreamExecutor)

theorem emitEvent_erases (service : String) (event : UpstreamResilienceEvent) :
    Prog.Erases Callback (x.emitEvent service event) (x.silenced.emitEvent service event) := by
  unfold emitEvent
  split
  · exact .drop rfl fun _ => .finish _
  · exact .finish _

theorem settle_erases (service : String) (permit : CircuitPermit) (settlement : Settlement)
    (event : UpstreamResilienceEvent) :
    Prog.Erases Callback (x.settle service permit settlement event)
      (x.silenced.settle service permit settlement event) := by
  refine .call_bind (by simp [UpstreamOp.isOnEvent]) fun changed => ?_
  cases changed with
  | false => exact .finish _
  | true => exact emitEvent_erases x service event

theorem pause_erases (delay : ℚ) : Prog.Erases Callback (pause delay) (pause delay) := by
  unfold pause
  split
  · refine .call_bind (by simp [UpstreamOp.isOnEvent]) fun wakeup => ?_
    cases wakeup <;> exact .finish _
  · exact .finish _

theorem attemptLoop_erases (q : UpstreamRequest) (permit : CircuitPermit)
    (remaining attempts : ℕ) :
    Prog.Erases Callback (x.attemptLoop q permit remaining attempts)
      (x.silenced.attemptLoop q permit remaining attempts) := by
  induction remaining generalizing attempts with
  | zero => exact .finish _
  | succ remaining ih =>
    refine .call_bind (by simp [UpstreamOp.isOnEvent]) fun _ => ?_
    refine .call_bind (by simp [UpstreamOp.isOnEvent]) fun reply => ?_
    match reply with
    | .error .cancelled | .error (.other className) => exact .finish _
    | .error (.requestError error) =>
      have hsame : x.silenced.transportErrorIsRetryable q.method error =
          x.transportErrorIsRetryable q.method error := rfl
      dsimp only
      rw [hsame]
      split
      · refine (emitEvent_erases x q.serviceName .retry).bind fun _ => ?_
        exact (pause_erases _).bind fun _ => ih (attempts + 1)
      · split
        · exact (settle_erases x _ _ _ _).bind fun _ => .finish _
        · exact (settle_erases x _ _ _ _).bind fun _ => .finish _
    | .ok response =>
      dsimp only
      split
      · exact (settle_erases x _ _ _ _).bind fun _ => .finish _
      · exact (settle_erases x _ _ _ _).bind fun _ => .finish _

theorem execute_erases (q : UpstreamRequest) :
    Prog.Erases Callback (x.execute q) (x.silenced.execute q) := by
  have hsame : x.silenced.serviceNames = x.serviceNames := rfl
  unfold execute
  rw [hsame]
  split
  · refine .call_bind (by simp [UpstreamOp.isOnEvent]) fun admission => ?_
    cases admission with
    | error e => exact (emitEvent_erases x _ _).bind fun _ => .finish _
    | ok permit =>
      refine (attemptLoop_erases x q permit _ 0).tryCatch fun e => ?_
      cases e with
      | cancelled => exact (settle_erases x _ _ _ _).bind fun _ => .finish _
      | _ => exact .finish _
  · exact .finish _

theorem respond_callback (settings : UpstreamResilienceSettings) (c : Circuits) (op : UpstreamOp)
    (r : op.Reply) (h : Callback op) : c.respond settings op r = some c := by
  cases op with
  | onEvent service event => rfl
  | _ => cases h

end Silence

/-- What is heard of a run beside the callback: every other step, with the circuits around it. -/
def heard {x : ResilientUpstreamExecutor} (ts : List (Transition (executorSystem x))) :
    List (Observation (executorSystem x.silenced)) :=
  @audibleSteps (executorSystem x.silenced) x.execute Callback _ ts

section Transparency

variable {x : ResilientUpstreamExecutor} {c : ℚ}

/-- Whatever the callback did in a run, there is a run without it: the same steps on the same
circuits, and the same results. -/
theorem callback_erased {ts : List (Transition (executorSystem x))} {p : Pool (executorSystem x)}
    (h : Run (freshPool x c) ts p) :
    ∃ ts₀ p₀, Run (freshPool x.silenced c) ts₀ p₀ ∧ ts₀.map Transition.observe = heard ts ∧
      p₀.world = p.world ∧
      ∀ (i : ℕ) (th : Thread (executorSystem x)), p.threads[i]? = some th →
        ∃ th₀, p₀.threads[i]? = some th₀ ∧ th₀.request = th.request ∧
          ∀ outcome, th.outcome = some outcome → th₀.outcome = some outcome := by
  obtain ⟨ts₀, p₀, hr, hobs, hm⟩ := @Run.erase (executorSystem x.silenced) x.execute Callback _ p
    (Circuits.fresh c) ts (respond_callback x.settings) (execute_erases x) h
  refine ⟨ts₀, p₀, hr, hobs, hm.world_eq, fun i th hi => ?_⟩
  obtain ⟨th₀, hi₀, hc⟩ := hm.threads i th hi
  refine ⟨th₀, hi₀, hc.request_eq, fun outcome ho => ?_⟩
  have he := hc.erases
  cases hp : th.program with
  | finish outcome' =>
    simp only [Thread.outcome, hp] at ho
    cases ho
    rw [hp] at he
    simp [Thread.outcome, he.finish_inv]
  | perform op resume => simp [Thread.outcome, hp] at ho

/-- The replies of a callback; it is asked for nothing else. -/
def repliesOf (callback : History upstream → String → UpstreamResilienceEvent → Option String)
    (h : History upstream) : (op : UpstreamOp) → op.Reply
  | .onEvent service event => callback h service event
  | .beforeRequest _ => .error ⟨1⟩
  | .record _ _ _ => false
  | .request _ => ()
  | .response => .error .cancelled
  | .sleep _ => .completed

/-- A callback that raises whenever it likes can be given to any run without one, which then
takes the same steps on the same circuits and ends with the same results. -/
theorem callback_restored {ts₀ : List (Transition (executorSystem x.silenced))}
    {p₀ : Pool (executorSystem x.silenced)} (h : Run (freshPool x.silenced c) ts₀ p₀)
    (callback : History upstream → String → UpstreamResilienceEvent → Option String) :
    ∃ (ts : List (Transition (executorSystem x))) (p : Pool (executorSystem x)),
      Run (freshPool x c) ts p ∧ heard ts = ts₀.map Transition.observe ∧ p.world = p₀.world ∧
      (∀ t ∈ ts, ∀ i service event r, t.label = .act i ⟨.onEvent service event, r⟩ →
        ∀ th, t.before.threads[i]? = some th → r = callback th.history service event) ∧
      ∀ (i : ℕ) (th₀ : Thread (executorSystem x.silenced)), p₀.threads[i]? = some th₀ →
        ∃ th, p.threads[i]? = some th ∧ th.request = th₀.request ∧ th.outcome = th₀.outcome := by
  obtain ⟨ts, p, hr, hobs, hans, hm, hdrained⟩ :=
    @Run.restore (executorSystem x.silenced) x.execute Callback _ p₀ (Circuits.fresh c) ts₀
      (respond_callback x.settings) (execute_erases x) (repliesOf callback) h
  refine ⟨ts, p, hr, hobs, hm.world_eq.symm, ?_, fun i th₀ hi₀ => ?_⟩
  · intro t ht i service event r hl th hi
    exact hans t ht i ⟨.onEvent service event, r⟩ hl rfl th hi
  · obtain ⟨th, hi, hc⟩ := hm.back hi₀
    refine ⟨th, hi, hc.request_eq.symm, ?_⟩
    have he := hc.erases
    cases hp : th.program with
    | finish outcome =>
      rw [hp] at he
      simp [Thread.outcome, hp, he.finish_inv]
    | perform op resume =>
      have hop : ¬ Callback op := hdrained i th hi op (by simp [Thread.nextOp, hp])
      rw [hp] at he
      obtain ⟨resume', hp', -⟩ := he.perform_inv hop
      simp [Thread.outcome, hp, hp']

end Transparency

/-- The event that announces a transition made by a settlement. -/
def Settlement.event : Settlement → UpstreamResilienceEvent
  | .success => .circuitRecovered
  | .failure | .neutral => .circuitOpen

/-- The transition a call has made and not announced yet. -/
def due (h : History upstream) : Option (String × UpstreamResilienceEvent) :=
  match h.getLast? with
  | some ⟨.record service _ settlement, true⟩ => some (service, settlement.event)
  | _ => none

/-- How often a call has told the callback of the event at the service. -/
def told (service : String) (event : UpstreamResilienceEvent) (h : History upstream) : ℕ :=
  h.countP fun e => e.op = .onEvent service event

def Refused : Except Raised UpstreamExecutionResult → Bool
  | .error (.circuitOpen _) => true
  | _ => false

/-- What a call with a callback may perform: a transition is announced right after it, and only
then, and a call that has been refused does nothing any more. -/
structure EventOk (h : History upstream) (op : UpstreamOp) : Prop where
  announces : ∀ service event, due h = some (service, event) → op = .onEvent service event
  nothingElse : due h = none → ∀ service event, op = .onEvent service event →
    event = .retry ∨ event = .circuitRejected
  unrefused : ∀ service, told service .circuitRejected h = 0

structure EventPost (q : UpstreamRequest) (h : History upstream)
    (outcome : Except Raised UpstreamExecutionResult) : Prop where
  announced : due h = none
  rejected : ∀ service, told service .circuitRejected h =
    if Refused outcome = true ∧ q.serviceName = service then 1 else 0

/-- Nothing is left to announce, and no refusal has been. -/
structure Calm (h : History upstream) : Prop where
  announced : due h = none
  rejected : ∀ service, told service .circuitRejected h = 0

@[simp] theorem due_snoc (h : History upstream) (e : Exchange upstream) :
    due (h ++ [e]) = due [e] := by
  simp [due]

@[simp] theorem told_snoc (service : String) (event : UpstreamResilienceEvent)
    (h : History upstream) (e : Exchange upstream) :
    told service event (h ++ [e]) =
      told service event h + if e.op = .onEvent service event then 1 else 0 := by
  simp [told, List.countP_append, List.countP_cons]

section Announcements

variable {x : ResilientUpstreamExecutor} {q : UpstreamRequest} {permit : CircuitPermit}
  {h : History upstream}

/-- An operation that announces nothing and settles nothing. -/
theorem calm_call {op : UpstreamOp} {α : Type} {f : op.Reply → Prog upstream Raised α}
    {post : History upstream → Except Raised α → Prop} (hc : Calm h)
    (hop : ∀ service event, op = .onEvent service event → event = .retry)
    (hrecord : ∀ service permit settlement, op ≠ .record service permit settlement)
    (hf : ∀ r, Calm (h ++ [⟨op, r⟩]) → (f r).wp EventOk post (h ++ [⟨op, r⟩])) :
    (invoke op >>= f).wp EventOk post h := by
  rw [Prog.wp_call_bind]
  refine ⟨⟨?_, ?_, ?_⟩, fun r => hf r ⟨?_, ?_⟩⟩
  · intro service event hd
    rw [hc.announced] at hd
    cases hd
  · intro _ service event he
    exact .inl (hop service event he)
  · exact hc.rejected
  · rw [due_snoc]
    cases op with
    | record service permit settlement => exact (hrecord _ _ _ rfl).elim
    | _ => rfl
  · intro service
    have hne : op ≠ .onEvent service .circuitRejected := by
      intro he
      cases hop _ _ he
    simp [hc.rejected service, hne]

theorem wp_retry_calm {service : String} {post : History upstream → Except Raised Unit → Prop}
    (hc : Calm h) (hpost : ∀ h', Calm h' → post h' (.ok ())) :
    (x.emitEvent service .retry).wp EventOk post h := by
  unfold emitEvent
  split
  · refine calm_call hc ?_ (by simp) fun r hr => hpost _ hr
    intro s e he
    cases he
    rfl
  · exact hpost h hc

theorem wp_settle_calm {service : String} {settlement : Settlement}
    {post : History upstream → Except Raised Unit → Prop} (hx : x.hasCallback = true)
    (hc : Calm h) (hpost : ∀ h', Calm h' → post h' (.ok ())) :
    (x.settle service permit settlement settlement.event).wp EventOk post h := by
  rw [settle, Prog.wp_call_bind]
  refine ⟨⟨?_, by simp, hc.rejected⟩, fun changed => ?_⟩
  · intro s e hd
    rw [hc.announced] at hd
    cases hd
  · have hrej : ∀ s, told s .circuitRejected
        (h ++ [⟨.record service permit settlement, changed⟩]) = 0 := by
      intro s
      simp [hc.rejected s]
    cases changed with
    | false => exact hpost _ ⟨by rw [due_snoc]; rfl, hrej⟩
    | true =>
      have hdue : due (h ++ [⟨.record service permit settlement, true⟩]) =
          some (service, settlement.event) := by
        rw [due_snoc]
        rfl
      change (x.emitEvent service settlement.event).wp EventOk post _
      unfold emitEvent
      rw [if_pos hx, Prog.wp_call_bind]
      refine ⟨⟨?_, ?_, hrej⟩, fun r => hpost _ ⟨by rw [due_snoc]; rfl, fun s => ?_⟩⟩
      · intro s e hd
        rw [hdue] at hd
        cases hd
        rfl
      · intro hd
        rw [hdue] at hd
        cases hd
      · rw [told_snoc, hrej s]
        cases settlement <;> simp [Settlement.event]

theorem wp_pause_calm {delay : ℚ} {post : History upstream → Except Raised Unit → Prop}
    (hc : Calm h) (hpost : ∀ h', Calm h' → post h' (.ok ()))
    (hcancel : ∀ h', Calm h' → post h' (.error .cancelled)) :
    (pause delay).wp EventOk post h := by
  unfold pause
  split
  · refine calm_call hc (by simp) (by simp) fun wakeup hr => ?_
    cases wakeup with
    | completed => exact hpost _ hr
    | cancelled => exact hcancel _ hr
  · exact hpost h hc

/-- An admitted call ends calm, and is never one that was refused. -/
def CalmPost (h : History upstream) (outcome : Except Raised UpstreamExecutionResult) : Prop :=
  Calm h ∧ Refused outcome = false

theorem wp_settle_finish_calm {settlement : Settlement} {event : UpstreamResilienceEvent}
    {service : String} {outcome : Except Raised UpstreamExecutionResult}
    (hx : x.hasCallback = true) (hc : Calm h) (he : event = settlement.event)
    (ho : Refused outcome = false) :
    (x.settle service permit settlement event >>= fun _ => Prog.finish outcome).wp EventOk
      CalmPost h := by
  subst he
  rw [Prog.wp_bind]
  exact wp_settle_calm hx hc fun h' hc' => ⟨hc', ho⟩

theorem wp_attemptLoop_calm (hx : x.hasCallback = true) (remaining attempts : ℕ)
    (h : History upstream) (hc : Calm h) :
    (x.attemptLoop q permit remaining attempts).wp EventOk CalmPost h := by
  induction remaining generalizing attempts h with
  | zero => exact ⟨hc, rfl⟩
  | succ remaining ih =>
    refine calm_call hc (by simp) (by simp) fun _ hc₁ => ?_
    refine calm_call hc₁ (by simp) (by simp) fun reply hc₂ => ?_
    match reply with
    | .error .cancelled | .error (.other className) => exact ⟨hc₂, rfl⟩
    | .error (.requestError error) =>
      dsimp only
      split
      · rw [Prog.wp_bind]
        refine wp_retry_calm hc₂ fun h₃ hc₃ => ?_
        rw [Prog.sequel_ok, Prog.wp_bind]
        refine wp_pause_calm hc₃ (fun h₄ hc₄ => ih (attempts + 1) h₄ hc₄) fun h₄ hc₄ => ?_
        exact ⟨hc₄, rfl⟩
      · split
        · exact wp_settle_finish_calm hx hc₂ rfl rfl
        · exact wp_settle_finish_calm hx hc₂ rfl rfl
    | .ok response =>
      dsimp only
      split
      · exact wp_settle_finish_calm hx hc₂ rfl rfl
      · exact wp_settle_finish_calm hx hc₂ rfl rfl

theorem wp_execute_events (x : ResilientUpstreamExecutor) (hx : x.hasCallback = true)
    (q : UpstreamRequest) : (x.execute q).wp EventOk (EventPost q) [] := by
  have hnil : Calm [] := ⟨rfl, fun _ => rfl⟩
  unfold execute
  split
  · refine calm_call hnil (by simp) (by simp) fun admission hc => ?_
    cases admission with
    | error e =>
      change (x.emitEvent q.serviceName .circuitRejected >>= fun _ => _).wp EventOk _ _
      unfold emitEvent
      rw [if_pos hx, Prog.wp_bind, Prog.wp_call_bind]
      refine ⟨⟨?_, ?_, hc.rejected⟩, fun r => ⟨by rw [due_snoc]; rfl, fun s => ?_⟩⟩
      · intro s event hd
        rw [hc.announced] at hd
        cases hd
      · intro _ s event he
        cases he
        exact .inr rfl
      · rw [told_snoc, hc.rejected s]
        simp [Refused]
    | ok permit =>
      have hloop : (x.attemptLoop q permit (x.maxAttempts permit) 0).wp EventOk CalmPost _ :=
        wp_attemptLoop_calm hx _ _ _ hc
      have hpost : ∀ h' outcome, CalmPost h' outcome → EventPost q h' outcome := by
        intro h' outcome hp
        refine ⟨hp.1.announced, fun s => ?_⟩
        simp [hp.1.rejected s, hp.2]
      change (x.admitted q permit).wp EventOk _ _
      rw [admitted, Prog.wp_tryCatch]
      refine Prog.wp_mono hloop fun h' outcome _ hp => ?_
      cases outcome with
      | ok result => exact hpost h' _ hp
      | error e =>
        rw [Prog.recovery_error]
        cases e with
        | cancelled =>
          refine Prog.wp_mono (wp_settle_finish_calm hx hp.1 rfl rfl) fun h'' o _ hp' => ?_
          exact hpost h'' o hp'
        | _ => exact hpost h' _ hp
  · exact ⟨rfl, fun s => by simp [told, Refused]⟩

end Announcements

/-- What the callback of an executor is told, call by call. -/
def eventDiscipline (x : ResilientUpstreamExecutor) (hx : x.hasCallback = true) :
    Discipline (executorSystem x) where
  ok _ := EventOk
  post := EventPost
  handler := wp_execute_events x hx

def emittedBy (service : String) : Exchange upstream → Option UpstreamResilienceEvent
  | ⟨.onEvent s event, _⟩ => if s = service then some event else none
  | _ => none

/-- What the callback was told about one service, in order. -/
def emitted {x : ResilientUpstreamExecutor} (service : String)
    (ts : List (Transition (executorSystem x))) : List UpstreamResilienceEvent :=
  ts.filterMap fun t =>
    match t.label with
    | .act _ e => emittedBy service e
    | _ => none

/-- The transition a circuit makes between two states, if it is one of the two announced. -/
def circuitMove (before after : CircuitState) : Option UpstreamResilienceEvent :=
  if before ≠ .opened ∧ after = .opened then some .circuitOpen
  else if before = .halfOpen ∧ after = .closed then some .circuitRecovered
  else none

/-- The transitions of one circuit into OPEN and from HALF_OPEN to CLOSED, in order. -/
def moves {x : ResilientUpstreamExecutor} (service : String)
    (ts : List (Transition (executorSystem x))) : List UpstreamResilienceEvent :=
  ts.filterMap fun t =>
    circuitMove (t.before.world.breaker service).state (t.after.world.breaker service).state

def UpstreamResilienceEvent.ofCircuit : UpstreamResilienceEvent → Bool
  | .circuitOpen | .circuitRecovered => true
  | .retry | .circuitRejected => false

@[simp] theorem ofCircuit_event (s : Settlement) : s.event.ofCircuit = true := by
  cases s <;> rfl

@[simp] theorem circuitMove_self (s : CircuitState) : circuitMove s s = none := by
  cases s <;> simp [circuitMove]

section Moves

variable {settings : UpstreamResilienceSettings} {now : ℚ} {b : ServiceCircuitBreaker}
  {issued : Set CircuitPermit} {permit : CircuitPermit}

theorem beforeRequest_move (h : Sound settings b issued) :
    circuitMove b.state (b.beforeRequest settings now).2.state = none := by
  have hadm := beforeRequest_admission now h
  generalize (b.beforeRequest settings now).1 = r at hadm
  generalize (b.beforeRequest settings now).2 = b' at hadm ⊢
  cases hadm with
  | pass hc | reject hc _ | busy hc => exact circuitMove_self _
  | probe hc _ => simp [circuitMove, probing, hc]

/-- A completion reports a transition exactly when it makes one. -/
theorem record_move (h : Sound settings b issued) (hp : permit ∈ issued) (s : Settlement) :
    circuitMove b.state (b.record settings now permit s).2.state =
      if (b.record settings now permit s).1 then some s.event else none := by
  have hcomp := record_completion now h hp s
  generalize (b.record settings now permit s).1 = changed at hcomp ⊢
  generalize (b.record settings now permit s).2 = b' at hcomp ⊢
  cases hcomp with
  | stale | ignore | clear | count => simp
  | trip _ hc _ => simp [circuitMove, opening, hc, Settlement.event]
  | recover _ hc => simp [circuitMove, recovered, hc, Settlement.event]
  | reopen _ hc hs =>
    have he : s.event = .circuitOpen := by
      cases s with
      | success => exact (hs rfl).elim
      | failure | neutral => rfl
    simp [circuitMove, opening, hc, he]

end Moves

section Mirror

variable {x : ResilientUpstreamExecutor} {c : ℚ} {service : String}
  {ts : List (Transition (executorSystem x))} {p : Pool (executorSystem x)}

/-- What a call still has to announce about the service. -/
def dueFor (service : String) (h : History upstream) : Option UpstreamResilienceEvent :=
  (due h).bind fun d => if d.1 = service then some d.2 else none

/-- What the calls of a pool still have to announce about the service. -/
def pending (service : String) (p : Pool (executorSystem x)) : List UpstreamResilienceEvent :=
  p.threads.filterMap fun th => dueFor service th.history

/-- A call that waits has announced everything. -/
theorem due_of_waiting (hx : x.hasCallback = true) {th : Thread (executorSystem x)}
    (hk : (eventDiscipline x hx).Keeps th) (hw : th.Waiting UpstreamOp.suspends) :
    due th.history = none := by
  cases hd : due th.history with
  | none => rfl
  | some d =>
    exfalso
    cases hp : th.program with
    | finish outcome =>
      have hpost : EventPost th.request th.history outcome :=
        hk.finished (by simp [Thread.outcome, hp])
      rw [hpost.announced] at hd
      cases hd
    | perform op resume =>
      have hok : EventOk th.history op := by
        rw [Discipline.Keeps, hp] at hk
        exact hk.1
      obtain rfl := hok.announces d.1 d.2 hd
      cases hw (.onEvent d.1 d.2) (by simp [Thread.nextOp, hp])

/-- A list in which one element alone is kept. -/
theorem filterMap_single {α β : Type} {f : α → Option β} {l : List α} {i : ℕ} {a : α}
    (hi : l[i]? = some a) (hother : ∀ j b, l[j]? = some b → j ≠ i → f b = none) :
    l.filterMap f = (f a).toList := by
  induction l generalizing i with
  | nil => simp at hi
  | cons b l ih =>
    cases i with
    | zero =>
      simp only [List.getElem?_cons_zero, Option.some.injEq] at hi
      subst hi
      have hnone : l.filterMap f = [] := by
        rw [List.filterMap_eq_nil_iff]
        intro b hb
        obtain ⟨j, hj⟩ := List.mem_iff_getElem?.mp hb
        exact hother (j + 1) b (by simpa using hj) (by simp)
      cases hf : f b <;> simp [hf, hnone]
    | succ i =>
      have hb : f b = none := hother 0 b rfl (by simp)
      rw [List.filterMap_cons_none hb]
      refine ih (by simpa using hi) fun j d hj hne => ?_
      exact hother (j + 1) d (by simpa using hj) (by omega)

/-- One exchange: what becomes due is a transition, and what is announced was due. -/
theorem mirror_exchange {w w' : Circuits} {h : History upstream} {e : Exchange upstream}
    {issued : Set CircuitPermit} (hsound : Sound x.settings (w.breaker service) issued)
    (hissued : ∀ permit settlement, e.op = .record service permit settlement → permit ∈ issued)
    (hok : EventOk h e.op) (hw : w.respond x.settings e.op e.reply = some w') :
    (dueFor service h).toList ++
        (circuitMove (w.breaker service).state (w'.breaker service).state).toList =
      (emittedBy service e).toList.filter UpstreamResilienceEvent.ofCircuit ++
        (dueFor service (h ++ [e])).toList := by
  unfold dueFor emittedBy
  obtain ⟨op, r⟩ := e
  -- Only the callback may be called while something is due.
  have hnone : (∀ s event, op ≠ .onEvent s event) → due h = none := by
    intro hop
    cases hd : due h with
    | none => rfl
    | some d => exact (hop _ _ (hok.announces d.1 d.2 hd)).elim
  rw [due_snoc]
  cases op with
  | beforeRequest s =>
    rw [hnone (by simp)]
    simp only [Circuits.respond] at hw
    split at hw <;> cases hw
    by_cases hs : service = s
    · subst hs
      simp [Circuits.set, beforeRequest_move hsound, due]
    · simp [Circuits.set, hs, due]
  | record s permit settlement =>
    rw [hnone (by simp)]
    simp only [Circuits.respond] at hw
    split at hw <;> cases hw
    next hr =>
    by_cases hs : service = s
    · subst hs
      have hmove : circuitMove (w.breaker service).state
          ((w.breaker service).record x.settings w.clock permit settlement).2.state = _ :=
        record_move hsound (hissued permit settlement rfl) settlement
      simp only [Circuits.set, Function.update_self, hmove, hr]
      cases r <;> simp [due]
    · have hs' : s ≠ service := Ne.symm hs
      cases r <;> simp [Circuits.set, hs, hs', due]
  | onEvent s event =>
    cases hw
    cases hd : due h with
    | none =>
      rcases hok.nothingElse hd s event rfl with rfl | rfl <;>
        by_cases hs : s = service <;> simp [hs, due, UpstreamResilienceEvent.ofCircuit]
    | some d =>
      cases hok.announces d.1 d.2 hd
      have hcircuit : d.2.ofCircuit = true := by
        unfold due at hd
        split at hd <;> cases hd
        exact ofCircuit_event _
      by_cases hs : d.1 = service <;> simp [hs, due, hcircuit]
  | request | response | sleep =>
    rw [hnone (by simp)]
    cases hw
    simp [due]

theorem mirror_step (hx : x.hasCallback = true) {q q' : Pool (executorSystem x)}
    {l : Label (executorSystem x)} (hs : Step q l q') (hreg : Regular q)
    (hev : (eventDiscipline x hx).Holds q)
    (hcoop : Cooperative UpstreamOp.suspends [⟨q, l, q'⟩]) :
    pending service q ++ moves service [⟨q, l, q'⟩] =
      (emitted service [⟨q, l, q'⟩]).filter UpstreamResilienceEvent.ofCircuit ++
        pending service q' := by
  cases hs with
  | spawn r => simp [pending, moves, emitted, dueFor, due, Thread.start]
  | tick t => simp [pending, moves, emitted]
  | @act i th op resume r w hi hp hw =>
    have hlt : i < q.threads.length := (List.getElem?_eq_some_iff.mp hi).1
    have hquiet : ∀ j b, q.threads[j]? = some b → j ≠ i → dueFor service b.history = none := by
      intro j b hj hne
      have hwait : b.Waiting UpstreamOp.suspends :=
        hcoop _ (List.mem_singleton.mpr rfl) j b hj (.inr ⟨i, ⟨op, r⟩, rfl, Ne.symm hne⟩)
      simp [dueFor, due_of_waiting hx (hev j b hj) hwait]
    have hbefore : pending service q = (dueFor service th.history).toList :=
      filterMap_single hi hquiet
    have hafter : pending service (⟨w, q.threads.set i
        ⟨th.request, th.history ++ [⟨op, r⟩], resume r⟩⟩ : Pool (executorSystem x)) =
        (dueFor service (th.history ++ [⟨op, r⟩])).toList := by
      refine filterMap_single (List.getElem?_set_self hlt) fun j b hj hne => ?_
      rw [List.getElem?_set_ne (Ne.symm hne)] at hj
      exact hquiet j b hj hne
    have hok : EventOk th.history op := ((hev i th hi).resume (x := ⟨op, r⟩) hp).1
    have hcall : CallOk th.request th.history op := ((hreg.1 i th hi).resume (x := ⟨op, r⟩) hp).1
    have hissued : ∀ permit settlement, op = .record service permit settlement →
        permit ∈ (view service q).issued := by
      rintro permit settlement rfl
      obtain ⟨hserv, hpend, -⟩ := hcall
      exact ⟨i, false, _, view_calls hi hserv.symm, hpend.permit_eq, hpend.unsettled⟩
    have hex := mirror_exchange (e := ⟨op, r⟩) (hreg.2 service).sound hissued hok hw
    have hsingle {α β : Type} (f : α → Option β) (a : α) : [a].filterMap f = (f a).toList := by
      cases hf : f a <;> simp [hf]
    rw [hbefore, hafter, moves, emitted, hsingle, hsingle]
    exact hex

/-- What the callback has been told of the circuit and what it is still to be told are the
transitions of the circuit, in order. -/
theorem mirror_run (hx : x.hasCallback = true) (h : Run (freshPool x c) ts p)
    (hcoop : Cooperative UpstreamOp.suspends ts) :
    moves service ts = (emitted service ts).filter UpstreamResilienceEvent.ofCircuit ++
      pending service p := by
  induction h with
  | refl => rfl
  | @snoc ts q q' l hr hs ih =>
    have hreg : Regular q := (regular_run hr).1
    have hev : (eventDiscipline x hx).Holds q := ((eventDiscipline x hx).holds_run hr).1
    have hstep : pending service q ++ moves service [⟨q, l, q'⟩] = _ :=
      mirror_step hx hs hreg hev fun t ht => hcoop t (List.mem_append_right ts ht)
    have hts := ih fun t ht => hcoop t (List.mem_append_left _ ht)
    calc moves service (ts ++ [⟨q, l, q'⟩])
        = moves service ts ++ moves service [⟨q, l, q'⟩] := by simp [moves, List.filterMap_append]
      _ = (emitted service ts).filter UpstreamResilienceEvent.ofCircuit ++
          (pending service q ++ moves service [⟨q, l, q'⟩]) := by rw [hts, List.append_assoc]
      _ = (emitted service (ts ++ [⟨q, l, q'⟩])).filter UpstreamResilienceEvent.ofCircuit ++
          pending service q' := by
        rw [hstep, ← List.append_assoc, ← List.filter_append]
        simp [emitted, List.filterMap_append]

theorem pending_of_waiting (hx : x.hasCallback = true) (hev : (eventDiscipline x hx).Holds p)
    (hwait : ∀ th ∈ p.threads, th.Waiting UpstreamOp.suspends) : pending service p = [] := by
  rw [pending, List.filterMap_eq_nil_iff]
  intro th hth
  obtain ⟨i, hi⟩ := List.mem_iff_getElem?.mp hth
  simp [dueFor, due_of_waiting hx (hev i th hi) (hwait th hth)]

end Mirror

section Counts

variable {x : ResilientUpstreamExecutor} {c : ℚ} {service : String}
  {ts : List (Transition (executorSystem x))} {p : Pool (executorSystem x)}

theorem count_emitted_labels (event : UpstreamResilienceEvent)
    (ts : List (Transition (executorSystem x))) :
    (emitted service ts).count event =
      ts.countP fun t => t.label.counts fun (e : Exchange upstream) =>
        decide (e.op = .onEvent service event) := by
  rw [List.count_eq_countP, emitted, List.countP_filterMap]
  refine List.countP_congr fun t _ => ?_
  cases hl : t.label with
  | spawn q => simp [Label.counts]
  | tick t => simp [Label.counts]
  | act i e =>
    obtain ⟨op, r⟩ := e
    cases op with
    | onEvent s event' => by_cases hs : s = service <;> simp [Label.counts, emittedBy, hs]
    | _ => simp [Label.counts, emittedBy]

theorem count_emitted (event : UpstreamResilienceEvent) (h : Run (freshPool x c) ts p) :
    (emitted service ts).count event =
      (p.threads.map fun th => told service event th.history).sum := by
  rw [count_emitted_labels]
  exact h.countP_exchanges _

/-- The calls of one service that raised `CircuitOpenError`. -/
def refusedCalls (service : String) (p : Pool (executorSystem x)) : ℕ :=
  p.threads.countP fun th =>
    decide (th.request.serviceName = service) && th.outcome.any Refused

theorem count_rejected (hx : x.hasCallback = true) (h : Run (freshPool x c) ts p) :
    (emitted service ts).count .circuitRejected = refusedCalls service p := by
  rw [count_emitted_labels]
  refine h.countP_threads fun th hth => ?_
  change told service .circuitRejected th.history = _
  obtain ⟨i, hi⟩ := List.mem_iff_getElem?.mp hth
  have hk : (eventDiscipline x hx).Keeps th := ((eventDiscipline x hx).holds_run h).1 i th hi
  cases hp : th.program with
  | finish outcome =>
    have hpost : EventPost th.request th.history outcome :=
      hk.finished (by simp [Thread.outcome, hp])
    rw [hpost.rejected service]
    simp [Thread.outcome, hp, and_comm]
  | perform op resume =>
    rw [Discipline.Keeps, hp] at hk
    have hok : EventOk th.history op := hk.1
    simp [hok.unrefused service, Thread.outcome, hp]

end Counts

section Retries

variable {x : ResilientUpstreamExecutor} {q : UpstreamRequest}

/-- A call speaks of its own service only. -/
def About (q : UpstreamRequest) (op : UpstreamOp) : Prop :=
  ∀ service event, op = .onEvent service event → service = q.serviceName

theorem About.of_callOp {op : UpstreamOp} (h : CallOp q op) : About q op := by
  cases h with
  | onEvent event =>
    intro service event' he
    cases he
    rfl
  | _ =>
    intro service event he
    cases he

/-- The call ended in a response or an `httpx.RequestError`. -/
def Answered : Except Raised UpstreamExecutionResult → Bool
  | .ok _ => true
  | .error (.requestError _) => true
  | _ => false

/-- Only admitted calls are answered. -/
theorem wp_execute_answered (x : ResilientUpstreamExecutor) (q : UpstreamRequest) :
    (x.execute q).wp anyOp (fun h outcome => Answered outcome = true → (callLog h).permit ≠ none)
      [] := by
  unfold execute
  split
  · rw [Prog.wp_call_bind]
    refine ⟨trivial, fun admission => ?_⟩
    cases admission with
    | error e =>
      rw [Prog.wp_bind]
      refine wp_emitEvent_log fun h' _ ha => ?_
      cases ha
    | ok permit =>
      refine Prog.wp_mono (wp_admitted_log rfl) fun h' outcome _ hpost _ => ?_
      simp [hpost.admitted]
  · intro ha
    cases ha

def aboutDiscipline (x : ResilientUpstreamExecutor) : Discipline (executorSystem x) where
  ok q _ := About q
  post _ _ _ := True
  handler q := Prog.wp_weaken (wp_execute_given x q) (fun _ _ => About.of_callOp)
    fun _ _ _ => trivial

def answeredDiscipline (x : ResilientUpstreamExecutor) : Discipline (executorSystem x) where
  ok _ := anyOp
  post _ h outcome := Answered outcome = true → (callLog h).permit ≠ none
  handler := wp_execute_answered x

theorem retries_eq_told {service : String} {h : History upstream}
    (habout : ∀ e ∈ h, ∀ s event, e.op = .onEvent s event → s = service) :
    (callLog h).retries = told service .retry h := by
  induction h using List.reverseRecOn with
  | nil => rfl
  | append_singleton h e ih =>
    rw [callLog_snoc, told_snoc, ← ih fun e' he' => habout e' (List.mem_append_left _ he')]
    have he := habout e (by simp)
    obtain ⟨op, r⟩ := e
    cases op with
    | onEvent s event =>
      cases he s event rfl
      cases event <;> simp [CallLog.after]
    | beforeRequest s => cases r <;> simp [CallLog.after]
    | response => rcases r with (_ | _ | _) | _ <;> simp [CallLog.after]
    | sleep d => cases r <;> simp [CallLog.after]
    | record | request => simp [CallLog.after]

variable {c : ℚ} {ts : List (Transition (executorSystem x))} {p : Pool (executorSystem x)}

/-- An answered call was admitted and announced each of its requests but the first. -/
theorem answered_retries (hx : x.hasCallback = true) (h : Run (freshPool x c) ts p) {i : ℕ}
    {th : Thread (executorSystem x)} (hi : p.threads[i]? = some th)
    (ha : th.outcome.any Answered = true) :
    (callLog th.history).permit ≠ none ∧
      told th.request.serviceName .retry th.history + 1 = (callLog th.history).attempts := by
  obtain ⟨outcome, ho, hans⟩ := (Option.any_eq_true _ _).mp ha
  have hadm : (callLog th.history).permit ≠ none :=
    (((answeredDiscipline x).holds_run h).1 i th hi).finished ho hans
  have hpost : RetryPost x th.request th.history outcome :=
    (((retryDiscipline x).holds_run h).1 i th hi).finished ho
  obtain ⟨permit, hpermit⟩ := Option.ne_none_iff_exists'.mp hadm
  have hplain : (callLog th.history).plain = true := by
    by_contra hp
    rcases hpost.interrupted (by simpa using hp) with rfl | ⟨className, rfl⟩ <;> cases hans
  have hcount := (hpost.accounted hplain permit hpermit).announced hx
  refine ⟨hadm, ?_⟩
  rw [← retries_eq_told, hcount]
  intro e he s event hop
  obtain ⟨h₁, h₂, hh⟩ := List.append_of_mem he
  exact (aboutDiscipline x).exchange_ok h hi hh s event hop

/-- The calls of one service that ended in a response or an `httpx.RequestError`. -/
def answeredCalls (service : String) (p : Pool (executorSystem x)) :
    List (Thread (executorSystem x)) :=
  p.threads.filter fun th => decide (th.request.serviceName = service) && th.outcome.any Answered

theorem sum_retries (hx : x.hasCallback = true) (h : Run (freshPool x c) ts p)
    (service : String) :
    ((answeredCalls service p).map fun th => told service .retry th.history).sum +
        (answeredCalls service p).countP (fun th => (callLog th.history).permit.isSome) =
      ((answeredCalls service p).map fun th => (callLog th.history).attempts).sum := by
  have hcall : ∀ th ∈ answeredCalls service p, (callLog th.history).permit ≠ none ∧
      told service .retry th.history + 1 = (callLog th.history).attempts := by
    intro th hth
    obtain ⟨hmem, hth⟩ := List.mem_filter.mp hth
    simp only [Bool.and_eq_true, decide_eq_true_eq] at hth
    obtain ⟨i, hi⟩ := List.mem_iff_getElem?.mp hmem
    exact hth.1 ▸ answered_retries hx h hi hth.2
  generalize answeredCalls service p = calls at hcall ⊢
  induction calls with
  | nil => rfl
  | cons th calls ih =>
    obtain ⟨hadm, hcount⟩ := hcall th (by simp)
    have hrest := ih fun th' hth' => hcall th' (List.mem_cons_of_mem _ hth')
    have hone : (callLog th.history).permit.isSome = true := Option.isSome_iff_ne_none.mpr hadm
    simp only [List.map_cons, List.sum_cons, List.countP_cons, hone, if_true, ← hcount, ← hrest]
    omega

end Retries

section Events

/-- What the callback has been told of a service when a run has led to the pool. -/
structure Mirrored {x : ResilientUpstreamExecutor} (service : String)
    (ts : List (Transition (executorSystem x))) (p : Pool (executorSystem x)) : Prop where
  transitions : Cooperative UpstreamOp.suspends ts →
    moves service ts = (emitted service ts).filter UpstreamResilienceEvent.ofCircuit ++
      pending service p
  /-- Nothing is pending whenever the event loop is in control. -/
  announced : Cooperative UpstreamOp.suspends ts →
    (∀ th ∈ p.threads, th.Waiting UpstreamOp.suspends) →
    (emitted service ts).filter UpstreamResilienceEvent.ofCircuit = moves service ts
  counted : ∀ event, (emitted service ts).count event =
    (p.threads.map fun th => told service event th.history).sum
  rejected : (emitted service ts).count .circuitRejected = refusedCalls service p
  retried : ((answeredCalls service p).map fun th => told service .retry th.history).sum +
      (answeredCalls service p).countP (fun th => (callLog th.history).permit.isSome) =
    ((answeredCalls service p).map fun th => (callLog th.history).attempts).sum

variable (x : ResilientUpstreamExecutor) (c : ℚ) (ts : List (Transition (executorSystem x)))
  (p : Pool (executorSystem x))

/-- Resilience events mirror the circuit and cannot disturb it. A run with a callback, whatever
that raises, is a run without one beside the calls of the callback, and the other way round; and
the callback is told of every transition in order, of every refusal and of every retry. -/
theorem events_mirror_circuit (h : Run (freshPool x c) ts p) :
    (∃ ts₀ p₀, Run (freshPool x.silenced c) ts₀ p₀ ∧ ts₀.map Transition.observe = heard ts ∧
      p₀.world = p.world ∧
      ∀ (i : ℕ) (th : Thread (executorSystem x)), p.threads[i]? = some th →
        ∃ th₀, p₀.threads[i]? = some th₀ ∧ th₀.request = th.request ∧
          ∀ outcome, th.outcome = some outcome → th₀.outcome = some outcome) ∧
    (∀ ts₀ p₀, Run (freshPool x.silenced c) ts₀ p₀ →
      ∀ callback : History upstream → String → UpstreamResilienceEvent → Option String,
      ∃ (us : List (Transition (executorSystem x))) (q : Pool (executorSystem x)),
        Run (freshPool x c) us q ∧ heard us = ts₀.map Transition.observe ∧ q.world = p₀.world ∧
        (∀ t ∈ us, ∀ i service event r, t.label = .act i ⟨.onEvent service event, r⟩ →
          ∀ th, t.before.threads[i]? = some th → r = callback th.history service event) ∧
        ∀ (i : ℕ) (th₀ : Thread (executorSystem x.silenced)), p₀.threads[i]? = some th₀ →
          ∃ th, q.threads[i]? = some th ∧ th.request = th₀.request ∧ th.outcome = th₀.outcome) ∧
    (x.hasCallback = true → ∀ service, Mirrored service ts p) := by
  refine ⟨callback_erased h, fun ts₀ p₀ h₀ => callback_restored h₀, fun hx service => ?_⟩
  refine ⟨mirror_run hx h, fun hcoop hwait => ?_, fun event => count_emitted event h,
    count_rejected hx h, sum_retries hx h service⟩
  have hev : (eventDiscipline x hx).Holds p := ((eventDiscipline x hx).holds_run h).1
  rw [mirror_run hx h hcoop, pending_of_waiting hx hev hwait, List.append_nil]

/-- The default executor with a callback. -/
def watchedExecutor : ResilientUpstreamExecutor := { defaultExecutor with hasCallback := true }

/-- Three failing calls open the circuit, a fourth is refused, and a later one recovers it. -/
def openedAndRecovered : List (Move (executorSystem watchedExecutor)) :=
  let call (i n : ℕ) (statusCode : ℤ) : List (Move (executorSystem watchedExecutor)) :=
    .spawn getRequest :: List.replicate n (.act i (answers (.ok ⟨statusCode, [], []⟩)))
  call 0 4 503 ++ call 1 4 503 ++ call 2 5 503 ++ call 3 2 503 ++ [.tick 10] ++ call 4 5 200

theorem openedAndRecovered_announced :
    ∃ ts p, Run (freshPool watchedExecutor 0) ts p ∧
      moves "service-a" ts = [.circuitOpen, .circuitRecovered] ∧
      (emitted "service-a" ts).filter UpstreamResilienceEvent.ofCircuit = moves "service-a" ts ∧
      (emitted "service-a" ts).count .circuitRejected = 1 := by
  let waits (th : Thread (executorSystem watchedExecutor)) : Bool :=
    th.nextOp.all UpstreamOp.suspends
  have hplay : ((freshPool watchedExecutor 0).play openedAndRecovered).any (fun ts =>
      ts.all (Transition.cooperates UpstreamOp.suspends) &&
        decide (moves "service-a" ts = [.circuitOpen, .circuitRecovered]) &&
        ts.getLast?.any fun t =>
          t.after.threads.all waits && refusedCalls "service-a" t.after == 1) = true := by
    decide +kernel
  obtain ⟨ts, hts, hcheck⟩ := (Option.any_eq_true _ _).mp hplay
  simp only [Bool.and_eq_true, decide_eq_true_eq] at hcheck
  obtain ⟨⟨hcoop, hmoves⟩, hlast⟩ := hcheck
  obtain ⟨p, hrun⟩ := Pool.play_run hts
  obtain ⟨t, ht, hend⟩ := (Option.any_eq_true _ _).mp hlast
  obtain ⟨us, rfl⟩ := List.getLast?_eq_some_iff.mp ht
  obtain ⟨-, -, rfl⟩ := hrun.snoc_inv
  simp only [Bool.and_eq_true, beq_iff_eq, List.all_eq_true] at hend
  obtain ⟨hwait, hrefused⟩ := hend
  have hm := (events_mirror_circuit watchedExecutor 0 _ _ hrun).2.2 rfl "service-a"
  refine ⟨_, _, hrun, hmoves, hm.announced (cooperative_of_cooperates _ hcoop) ?_,
    hm.rejected.trans hrefused⟩
  intro th hth op hop
  have hall := hwait th hth
  simpa [waits, hop] using hall

end Events

end SecureGateway.Resilience
