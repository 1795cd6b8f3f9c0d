import SecureGateway.Resilience.Executor

/-!
# What one call does with its permit

The status of a call is read off its history: the permit it holds, the attempts it started,
whether it settled the permit, and whether an attempt ended in an exception that `execute`
does not handle. Every call follows one discipline, whatever the breaker and the client reply.
-/
namespace SecureGateway.Resilience

open Interleaving ResilientUpstreamExecutor

structure CallStatus where
  permit : Option CircuitPermit
  attempts : ℕ
  settled : Bool
  escaped : Bool
  deriving DecidableEq, Repr

namespace CallStatus

def initial : CallStatus := ⟨none, 0, false, false⟩

def after (c : CallStatus) : Exchange upstream → CallStatus
  | ⟨.beforeRequest _, .ok permit⟩ => { c with permit := some permit }
  | ⟨.record _ _ _, _⟩ => { c with settled := true }
  | ⟨.request _, _⟩ => { c with attempts := c.attempts + 1 }
  | ⟨.response, .error (.other _)⟩ => { c with escaped := true }
  | _ => c

/-- The call holds the permit and still owes its settlement. -/
structure Pending (c : CallStatus) (permit : CircuitPermit) : Prop where
  permit_eq : c.permit = some permit
  unsettled : c.settled = false
  unescaped : c.escaped = false

end CallStatus

def status (h : History upstream) : CallStatus := h.foldl .after .initial

@[simp] theorem status_nil : status [] = .initial := rfl

@[simp] theorem status_snoc (h : History upstream) (e : Exchange upstream) :
    status (h ++ [e]) = (status h).after e := by
  simp [status]

/-- What a call may perform, by its status. Once admitted it does nothing before its first
attempt, and a probe starts one attempt only. -/
def CallOk (q : UpstreamRequest) (h : History upstream) : UpstreamOp → Prop
  | .beforeRequest service => service = q.serviceName ∧ status h = .initial
  | .record service permit _ =>
    service = q.serviceName ∧ (status h).Pending permit ∧ (status h).attempts ≠ 0
  | .request q' =>
    q' = q ∧ ∃ permit, (status h).Pending permit ∧
      (permit.halfOpenProbe = true → (status h).attempts = 0)
  | .response | .sleep _ => ∃ permit, (status h).Pending permit ∧ (status h).attempts ≠ 0
  | .onEvent _ _ =>
    (status h).escaped = false ∧ ((status h).permit ≠ none → (status h).attempts ≠ 0)

/-- A call that ends has settled its permit or was left by an exception it does not handle. -/
def CallPost (h : History upstream) : Prop :=
  (status h).permit ≠ none → (status h).settled = true ∨ (status h).escaped = true

section Operations

variable {x : ResilientUpstreamExecutor} {q : UpstreamRequest} {permit : CircuitPermit}

/-- The operations of a call with the arguments `q`. -/
inductive CallOp (q : UpstreamRequest) : UpstreamOp → Prop
  | beforeRequest : CallOp q (.beforeRequest q.serviceName)
  | record (permit : CircuitPermit) (settlement : Settlement) :
      CallOp q (.record q.serviceName permit settlement)
  | onEvent (event : UpstreamResilienceEvent) : CallOp q (.onEvent q.serviceName event)
  | request : CallOp q (.request q)
  | response : CallOp q .response
  | sleep (delay : ℚ) : CallOp q (.sleep delay)

theorem only_emitEvent (event : UpstreamResilienceEvent) :
    (x.emitEvent q.serviceName event).Only (CallOp q) := by
  unfold emitEvent
  split
  · exact Prog.only_call_bind (.onEvent event) fun _ => Prog.only_pure ()
  · exact Prog.only_pure ()

theorem only_settle (permit : CircuitPermit) (settlement : Settlement)
    (event : UpstreamResilienceEvent) :
    (x.settle q.serviceName permit settlement event).Only (CallOp q) := by
  refine Prog.only_call_bind (.record permit settlement) fun changed => ?_
  cases changed with
  | false => exact Prog.only_pure ()
  | true => exact only_emitEvent event

theorem only_pause (delay : ℚ) : (pause delay).Only (CallOp q) := by
  unfold pause
  split
  · refine Prog.only_call_bind (.sleep delay) fun wakeup => ?_
    cases wakeup with
    | completed => exact Prog.only_pure ()
    | cancelled => exact Prog.only_throw _
  · exact Prog.only_pure ()

/-- The result is a response that the client gave. -/
def Given (h : History upstream) (outcome : Except Raised UpstreamExecutionResult) : Prop :=
  ∀ result, outcome = .ok result →
    (⟨.response, .ok result.response⟩ : Exchange upstream) ∈ h

theorem given_error (h : History upstream) (e : Raised) : Given h (.error e) := by
  intro result hr
  cases hr

/-- Settling the permit comes last and adds nothing to the result. -/
theorem wp_settle_given {settlement : Settlement} {event : UpstreamResilienceEvent}
    {h : History upstream} {outcome : Except Raised UpstreamExecutionResult}
    (hgiven : ∀ h', h <+: h' → Given h' outcome) :
    (x.settle q.serviceName permit settlement event >>= fun _ => .finish outcome).wp
      (fun _ => CallOp q) Given h := by
  rw [Prog.wp_bind]
  refine Prog.wp_of_only (only_settle _ _ _) (fun _ _ => id) fun h' settled hle => ?_
  cases settled with
  | error e => exact given_error h' e
  | ok _ => exact hgiven h' hle

theorem wp_attemptLoop_given (permit : CircuitPermit) (remaining attempts : ℕ)
    (h : History upstream) :
    (x.attemptLoop q permit remaining attempts).wp (fun _ => CallOp q) Given h := by
  induction remaining generalizing attempts h with
  | zero => exact given_error h _
  | succ remaining ih =>
    rw [attemptLoop, Prog.wp_call_bind]
    refine ⟨.request, fun _ => ?_⟩
    rw [Prog.wp_call_bind]
    refine ⟨.response, fun reply => ?_⟩
    cases reply with
    | error failure =>
      cases failure with
      | cancelled => exact given_error _ _
      | other className => exact given_error _ _
      | requestError error =>
        dsimp only
        split
        · rw [Prog.wp_bind]
          refine Prog.wp_of_only (only_emitEvent _) (fun _ _ => id) fun h₁ told _ => ?_
          cases told with
          | error e => exact given_error h₁ e
          | ok _ =>
            rw [Prog.sequel_ok, Prog.wp_bind]
            refine Prog.wp_of_only (only_pause _) (fun _ _ => id) fun h₂ slept _ => ?_
            cases slept with
            | error e => exact given_error h₂ e
            | ok _ => exact ih (attempts + 1) h₂
        · split
          · exact wp_settle_given fun h' _ => given_error h' _
          · exact wp_settle_given fun h' _ => given_error h' _
    | ok response =>
      have hgiven : ∀ h', h ++ [⟨.request q, ()⟩] ++ [⟨.response, .ok response⟩] <+: h' →
          Given h' (.ok ⟨response, attempts + 1⟩) := by
        intro h' hle result hr
        cases hr
        exact hle.subset (by simp)
      dsimp only
      split
      · exact wp_settle_given hgiven
      · exact wp_settle_given hgiven

/-- A call hands its arguments on to the client, and returns a response the client gave. -/
theorem wp_execute_given (x : ResilientUpstreamExecutor) (q : UpstreamRequest) :
    (x.execute q).wp (fun _ => CallOp q) Given [] := by
  unfold execute
  split
  · rw [Prog.wp_call_bind]
    refine ⟨.beforeRequest, fun admission => ?_⟩
    cases admission with
    | error e =>
      rw [Prog.wp_bind]
      refine Prog.wp_of_only (only_emitEvent _) (fun _ _ => id) fun h told _ => ?_
      cases told with
      | error e => exact given_error h e
      | ok _ => exact given_error h _
    | ok permit =>
      dsimp only
      rw [admitted, Prog.wp_tryCatch]
      refine Prog.wp_mono (wp_attemptLoop_given permit _ 0 _) fun h outcome _ hgiven => ?_
      cases outcome with
      | ok result => exact hgiven
      | error e =>
        rw [Prog.recovery_error]
        cases e with
        | cancelled => exact wp_settle_given fun h' _ => given_error h' _
        | _ => exact given_error h _
  · exact given_error [] _

end Operations

section Parts

variable {x : ResilientUpstreamExecutor} {q : UpstreamRequest} {h : History upstream}
  {permit : CircuitPermit} {α : Type}

theorem wp_emitEvent {post : History upstream → Except Raised Unit → Prop} {service : String}
    {event : UpstreamResilienceEvent} (he : (status h).escaped = false)
    (ha : (status h).permit ≠ none → (status h).attempts ≠ 0)
    (hpost : ∀ h', status h' = status h → post h' (.ok ())) :
    (x.emitEvent service event).wp (CallOk q) post h := by
  unfold emitEvent
  split
  · rw [Prog.wp_call_bind]
    exact ⟨⟨he, ha⟩, fun r => hpost _ (by simp [CallStatus.after])⟩
  · exact hpost h rfl

theorem wp_settle {post : History upstream → Except Raised Unit → Prop}
    {settlement : Settlement} {event : UpstreamResilienceEvent}
    (hp : (status h).Pending permit) (ha : (status h).attempts ≠ 0)
    (hpost : ∀ h', status h' = { status h with settled := true } → post h' (.ok ())) :
    (x.settle q.serviceName permit settlement event).wp (CallOk q) post h := by
  rw [settle, Prog.wp_call_bind]
  refine ⟨⟨rfl, hp, ha⟩, fun changed => ?_⟩
  cases changed with
  | false => exact hpost _ (by simp [CallStatus.after])
  | true =>
    refine wp_emitEvent (by simpa [CallStatus.after] using hp.unescaped)
      (fun _ => by simpa [CallStatus.after] using ha) fun h' hs => hpost h' ?_
    simpa [CallStatus.after] using hs

theorem wp_pause {post : History upstream → Except Raised Unit → Prop} {delay : ℚ}
    (hp : (status h).Pending permit) (ha : (status h).attempts ≠ 0)
    (hpost : ∀ h', status h' = status h → post h' (.ok ()))
    (hcancel : ∀ h', status h' = status h → post h' (.error .cancelled)) :
    (pause delay).wp (CallOk q) post h := by
  unfold pause
  split
  · rw [Prog.wp_call_bind]
    refine ⟨⟨permit, hp, ha⟩, fun wakeup => ?_⟩
    cases wakeup with
    | completed => exact hpost _ (by simp [CallStatus.after])
    | cancelled => exact hcancel _ (by simp [CallStatus.after])
  · exact hpost h rfl

end Parts

section Loop

variable {x : ResilientUpstreamExecutor} {q : UpstreamRequest} {permit : CircuitPermit}

/-- How the loop leaves a call: only a cancellation leaves the permit to its caller. -/
def LoopPost (permit : CircuitPermit) (h : History upstream)
    (outcome : Except Raised UpstreamExecutionResult) : Prop :=
  (outcome = .error .cancelled ∧ (status h).Pending permit ∧ (status h).attempts ≠ 0) ∨
    (outcome ≠ .error .cancelled ∧ CallPost h)

theorem wp_settle_finish {h : History upstream} {settlement : Settlement}
    {event : UpstreamResilienceEvent} {outcome : Except Raised UpstreamExecutionResult}
    (hp : (status h).Pending permit) (ha : (status h).attempts ≠ 0)
    (ho : outcome ≠ .error .cancelled) :
    (x.settle q.serviceName permit settlement event >>= fun _ => .finish outcome).wp (CallOk q)
      (LoopPost permit) h := by
  rw [Prog.wp_bind]
  refine wp_settle hp ha fun h' hs => .inr ⟨ho, fun _ => .inl ?_⟩
  rw [hs]

theorem wp_attemptLoop (remaining attempts : ℕ) (h : History upstream) (hr : 0 < remaining)
    (hp : (status h).Pending permit)
    (hprobe : permit.halfOpenProbe = true → remaining + (status h).attempts ≤ 1) :
    (x.attemptLoop q permit remaining attempts).wp (CallOk q) (LoopPost permit) h := by
  induction remaining generalizing attempts h with
  | zero => omega
  | succ remaining ih =>
    have hfirst : permit.halfOpenProbe = true → (status h).attempts = 0 := by
      intro hh
      have := hprobe hh
      omega
    rw [attemptLoop, Prog.wp_call_bind]
    refine ⟨⟨rfl, permit, hp, hfirst⟩, fun _ => ?_⟩
    -- The status while the client is awaited.
    set h₁ := h ++ [(⟨.request q, ()⟩ : Exchange upstream)] with hh₁
    have hs₁ : status h₁ = { status h with attempts := (status h).attempts + 1 } := by
      simp [hh₁, CallStatus.after]
    have hp₁ : (status h₁).Pending permit := by
      rw [hs₁]
      exact ⟨hp.permit_eq, hp.unsettled, hp.unescaped⟩
    have ha₁ : (status h₁).attempts ≠ 0 := by
      rw [hs₁]
      exact Nat.succ_ne_zero _
    rw [Prog.wp_call_bind]
    refine ⟨⟨permit, hp₁, ha₁⟩, fun reply => ?_⟩
    match reply with
    | .error .cancelled =>
      refine .inl ⟨rfl, ?_⟩
      simpa [CallStatus.after] using And.intro hp₁ ha₁
    | .error (.other className) =>
      refine .inr ⟨by simp, fun _ => .inr ?_⟩
      simp [CallStatus.after]
    | .error (.requestError error) =>
      have hs₂ : status (h₁ ++ [⟨.response, .error (.requestError error)⟩]) = status h₁ := by
        simp [CallStatus.after]
      have hp₂ : (status (h₁ ++ [⟨.response, .error (.requestError error)⟩])).Pending permit := by
        rw [hs₂]
        exact hp₁
      have ha₂ : (status (h₁ ++ [⟨.response, .error (.requestError error)⟩])).attempts ≠ 0 := by
        rw [hs₂]
        exact ha₁
      dsimp only
      split
      · next hretry =>
        rw [Prog.wp_bind]
        refine wp_emitEvent hp₂.unescaped (fun _ => ha₂) fun h₃ hs₃ => ?_
        have hp₃ : (status h₃).Pending permit := by rw [hs₃]; exact hp₂
        have ha₃ : (status h₃).attempts ≠ 0 := by rw [hs₃]; exact ha₂
        rw [Prog.sequel_ok, Prog.wp_bind]
        refine wp_pause hp₃ ha₃ (fun h₄ hs₄ => ?_) (fun h₄ hs₄ => ?_)
        · refine ih (attempts + 1) h₄ hretry.1 (by rw [hs₄]; exact hp₃) fun hh => ?_
          have hle := hprobe hh
          have := hretry.1
          omega
        · exact .inl ⟨rfl, by rw [hs₄]; exact ⟨hp₃, ha₃⟩⟩
      · split <;> exact wp_settle_finish hp₂ ha₂ (by simp)
    | .ok response =>
      have hs₂ : status (h₁ ++ [⟨.response, .ok response⟩]) = status h₁ := by
        simp [CallStatus.after]
      rw [← hs₂] at hp₁ ha₁
      dsimp only
      split <;> exact wp_settle_finish hp₁ ha₁ (by simp)

theorem wp_admitted {h : History upstream}
    (hs : status h = { CallStatus.initial with permit := some permit }) :
    (x.admitted q permit).wp (CallOk q) (fun h _ => CallPost h) h := by
  have hp : (status h).Pending permit := by
    rw [hs]
    exact ⟨rfl, rfl, rfl⟩
  have hmax := x.settings.maxAttempts_range
  have hloop : (x.attemptLoop q permit (x.maxAttempts permit) 0).wp (CallOk q)
      (LoopPost permit) h := by
    refine wp_attemptLoop _ _ h ?_ hp fun hh => ?_
    · unfold maxAttempts
      split <;> omega
    · simp [maxAttempts, hh, hs, CallStatus.initial]
  rw [admitted, Prog.wp_tryCatch]
  refine Prog.wp_mono hloop fun h' outcome _ hpost => ?_
  rcases hpost with ⟨rfl, hp', ha'⟩ | ⟨hne, hpost⟩
  · rw [Prog.recovery_error, Prog.wp_bind]
    refine wp_settle hp' ha' fun h'' hs'' => ?_
    exact fun _ => .inl (by rw [hs''])
  · cases outcome with
    | ok result => exact hpost
    | error e => cases e <;> first | exact hpost | exact (hne rfl).elim

/-- Every call keeps the discipline from its start to its end. -/
theorem wp_execute (x : ResilientUpstreamExecutor) (q : UpstreamRequest) :
    (x.execute q).wp (CallOk q) (fun h _ => CallPost h) [] := by
  unfold execute
  split
  · rw [Prog.wp_call_bind]
    refine ⟨⟨rfl, rfl⟩, fun admission => ?_⟩
    cases admission with
    | error e =>
      rw [Prog.wp_bind]
      refine wp_emitEvent rfl (fun hn => (hn rfl).elim) fun h' hs => ?_
      intro hne
      exact (hne (by rw [hs]; rfl)).elim
    | ok permit => exact wp_admitted rfl
  · intro hne
    exact (hne rfl).elim

end Loop

/-- The discipline of the executor's calls. -/
def callDiscipline (x : ResilientUpstreamExecutor) : Discipline (executorSystem x) where
  ok := CallOk
  post _ h _ := CallPost h
  handler := wp_execute x

end SecureGateway.Resilience
