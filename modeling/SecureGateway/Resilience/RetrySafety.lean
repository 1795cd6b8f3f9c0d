import SecureGateway.Foundation.Execution
import SecureGateway.Resilience.Settlement

/-!
# Retries and accounting of one call

The log of a call lists its attempts, how they ended, its sleeps and its settlements. A call
whose attempts end in responses or `httpx.RequestError`s repeats only safe methods, only after
a failed connection, and settles its permit once, by its last attempt.
-/
namespace SecureGateway.Resilience

open Interleaving ResilientUpstreamExecutor

structure CallLog where
  permit : Option CircuitPermit
  attempts : ℕ
  replies : List (Except RequestError UpstreamResponse)
  /-- Each sleep, with the number of attempts made before it. -/
  sleeps : List (ℕ × ℚ)
  settlements : List Settlement
  /-- The number of RETRY events given to the callback. -/
  retries : ℕ
  /-- No await has been cancelled or left by an exception outside `httpx.RequestError`. -/
  plain : Bool

namespace CallLog

def initial : CallLog := ⟨none, 0, [], [], [], 0, true⟩

def after (l : CallLog) : Exchange upstream → CallLog
  | ⟨.beforeRequest _, .ok permit⟩ => { l with permit := some permit }
  | ⟨.request _, _⟩ => { l with attempts := l.attempts + 1 }
  | ⟨.response, .ok response⟩ => { l with replies := l.replies ++ [.ok response] }
  | ⟨.response, .error (.requestError error)⟩ => { l with replies := l.replies ++ [.error error] }
  | ⟨.response, .error _⟩ => { l with plain := false }
  | ⟨.sleep delay, .completed⟩ => { l with sleeps := l.sleeps ++ [(l.attempts, delay)] }
  | ⟨.sleep delay, .cancelled⟩ =>
    { l with sleeps := l.sleeps ++ [(l.attempts, delay)], plain := false }
  | ⟨.record _ _ settlement, _⟩ => { l with settlements := l.settlements ++ [settlement] }
  | ⟨.onEvent _ .retry, _⟩ => { l with retries := l.retries + 1 }
  | _ => l

end CallLog

def callLog (h : History upstream) : CallLog := h.foldl .after .initial

@[simp] theorem callLog_nil : callLog [] = .initial := rfl

@[simp] theorem callLog_snoc (h : History upstream) (e : Exchange upstream) :
    callLog (h ++ [e]) = (callLog h).after e := by
  simp [callLog]

/-- A failed connection: the upstream has seen nothing of the request. -/
def Transient (reply : Except RequestError UpstreamResponse) : Prop :=
  reply = .error .connectError ∨ reply = .error .connectTimeout

/-- What the last attempt of a call is recorded as. -/
def settlementFor : Except RequestError UpstreamResponse → Settlement
  | .ok response =>
    if 500 ≤ response.statusCode ∧ response.statusCode ≤ 599 then .failure else .success
  | .error .poolTimeout => .neutral
  | .error _ => .failure

/-- What the last attempt of a call makes of it. -/
def outcomeFor (attempts : ℕ) :
    Except RequestError UpstreamResponse → Except Raised UpstreamExecutionResult
  | .ok response => .ok ⟨response, attempts⟩
  | .error error => .error (.requestError error)

/-- The pauses after `n` failed attempts; a pause of no length is not entered. -/
def backoffs (settings : UpstreamResilienceSettings) (n : ℕ) : List (ℕ × ℚ) :=
  ((List.range' 1 n).map fun i =>
    (i, min (settings.retryBaseDelaySeconds * 2 ^ (i - 1)) 2)).filter (0 < ·.2)

theorem backoffs_succ (settings : UpstreamResilienceSettings) (n : ℕ) :
    backoffs settings (n + 1) = backoffs settings n ++
      if 0 < min (settings.retryBaseDelaySeconds * 2 ^ n) 2 then
        [(n + 1, min (settings.retryBaseDelaySeconds * 2 ^ n) 2)] else [] := by
  have hn : 1 + n - 1 = n := by omega
  simp only [backoffs, List.range'_1_concat, List.map_append, List.filter_append, List.map_cons,
    List.map_nil, List.filter_cons, List.filter_nil, hn, decide_eq_true_eq]
  rw [Nat.add_comm 1 n]

/-- The log of an admitted call that has ended. -/
structure Accounted (x : ResilientUpstreamExecutor) (q : UpstreamRequest) (permit : CircuitPermit)
    (l : CallLog) (outcome : Except Raised UpstreamExecutionResult) : Prop where
  attempts_le : l.attempts ≤ x.settings.maxAttempts
  probe_once : permit.halfOpenProbe = true → l.attempts ≤ 1
  replied : l.replies.length = l.attempts
  transient : ∀ reply ∈ l.replies.dropLast, Transient reply
  safe : 1 < l.attempts → x.upper q.method ∈ ["GET", "HEAD", "OPTIONS"]
  slept : l.sleeps = backoffs x.settings (l.attempts - 1)
  settled : ∃ last, l.replies.getLast? = some last ∧ l.settlements = [settlementFor last] ∧
    outcome = outcomeFor l.attempts last
  announced : x.hasCallback = true → l.retries + 1 = l.attempts

/-- The log of a call that is about to make another attempt, after `n` failed ones. -/
structure Looping (x : ResilientUpstreamExecutor) (q : UpstreamRequest) (n : ℕ) (l : CallLog) :
    Prop where
  plain : l.plain = true
  attempts_eq : l.attempts = n
  replied : l.replies.length = n
  transient : ∀ reply ∈ l.replies, Transient reply
  safe : 0 < n → x.upper q.method ∈ ["GET", "HEAD", "OPTIONS"]
  slept : l.sleeps = backoffs x.settings n
  unsettled : l.settlements = []
  announced : x.hasCallback = true → l.retries = n

section Loop

variable {x : ResilientUpstreamExecutor} {q : UpstreamRequest} {permit : CircuitPermit}
  {h : History upstream} {n : ℕ}

/-- Every reply is possible and nothing is forbidden: the post condition does the work. -/
def anyOp : History upstream → UpstreamOp → Prop := fun _ _ => True

/-- The call was cancelled, or left by an exception that `execute` does not handle. -/
def Interrupted (outcome : Except Raised UpstreamExecutionResult) : Prop :=
  outcome = .error .cancelled ∨ ∃ className, outcome = .error (.other className)

/-- How an admitted call ends. The loop is never left at its bottom. -/
structure CallAccounted (x : ResilientUpstreamExecutor) (q : UpstreamRequest)
    (permit : CircuitPermit) (h : History upstream)
    (outcome : Except Raised UpstreamExecutionResult) : Prop where
  no_runtimeError : ∀ message, outcome ≠ .error (.runtimeError message)
  admitted : (callLog h).permit = some permit
  accounted : (callLog h).plain = true → Accounted x q permit (callLog h) outcome
  interrupted : (callLog h).plain = false → Interrupted outcome

theorem wp_emitEvent_log {event : UpstreamResilienceEvent} {service : String}
    {post : History upstream → Except Raised Unit → Prop}
    (hpost : ∀ h', callLog h' = { callLog h with
      retries := (callLog h).retries +
        if x.hasCallback = true ∧ event = .retry then 1 else 0 } → post h' (.ok ())) :
    (x.emitEvent service event).wp anyOp post h := by
  unfold emitEvent
  split
  · next hc =>
    rw [Prog.wp_call_bind]
    refine ⟨trivial, fun r => hpost _ ?_⟩
    cases event <;> simp [CallLog.after, hc]
  · next hc => exact hpost h (by simp [hc])

theorem wp_settle_log {settlement : Settlement} {event : UpstreamResilienceEvent}
    {service : String} {post : History upstream → Except Raised Unit → Prop}
    (hevent : event ≠ .retry)
    (hpost : ∀ h', callLog h' = { callLog h with
      settlements := (callLog h).settlements ++ [settlement] } → post h' (.ok ())) :
    (x.settle service permit settlement event).wp anyOp post h := by
  rw [settle, Prog.wp_call_bind]
  refine ⟨trivial, fun changed => ?_⟩
  have hlog : callLog (h ++ [⟨.record service permit settlement, changed⟩]) =
      { callLog h with settlements := (callLog h).settlements ++ [settlement] } := by
    simp [CallLog.after]
  cases changed with
  | false => exact hpost _ hlog
  | true =>
    refine wp_emitEvent_log fun h' hs => hpost h' ?_
    simpa [hevent, hlog] using hs

theorem maxAttempts_pos (permit : CircuitPermit) : 0 < x.maxAttempts permit := by
  have := x.settings.maxAttempts_range
  unfold maxAttempts
  split <;> omega

theorem maxAttempts_le (permit : CircuitPermit) :
    x.maxAttempts permit ≤ x.settings.maxAttempts ∧
      (permit.halfOpenProbe = true → x.maxAttempts permit = 1) := by
  have := x.settings.maxAttempts_range
  unfold maxAttempts
  split
  · exact ⟨by omega, fun _ => rfl⟩
  · next hp => exact ⟨le_rfl, fun h => (hp h).elim⟩

/-- The last attempt ended in `last`: it is settled and becomes the outcome of the call. -/
theorem wp_settle_last (last : Except RequestError UpstreamResponse) {settlement : Settlement}
    {event : UpstreamResilienceEvent} {k : History upstream}
    (hevent : event ≠ .retry) (hs : settlement = settlementFor last)
    (hn : n + 1 ≤ x.maxAttempts permit) (hpermit : (callLog h).permit = some permit)
    (hl : Looping x q n (callLog h))
    (hlog : callLog k = { callLog h with
      attempts := (callLog h).attempts + 1, replies := (callLog h).replies ++ [last] }) :
    (x.settle q.serviceName permit settlement event >>=
      fun _ => Prog.finish (outcomeFor (n + 1) last)).wp anyOp (CallAccounted x q permit) k := by
  rw [Prog.wp_bind]
  refine wp_settle_log hevent fun h' hs' =>
    ⟨by cases last <;> simp [outcomeFor], by simp [hs', hlog, hpermit], fun _ => ?_,
      by simp [hs', hlog, hl.plain]⟩
  obtain ⟨hmax, hprobe⟩ := maxAttempts_le (x := x) permit
  rw [hs', hlog]
  refine ⟨?_, ?_, ?_, ?_, ?_, ?_, ⟨last, ?_, ?_, ?_⟩, ?_⟩
  · simp only [hl.attempts_eq]
    omega
  · intro hp
    have := hprobe hp
    simp only [hl.attempts_eq]
    omega
  · simp [hl.replied, hl.attempts_eq]
  · simpa using hl.transient
  · intro hlt
    exact hl.safe (by simpa [hl.attempts_eq] using hlt)
  · simpa [hl.attempts_eq] using hl.slept
  · simp
  · simp [hl.unsettled, hs]
  · simp [hl.attempts_eq]
  · intro hc
    simp [hl.announced hc, hl.attempts_eq]

/-- The pause before the next attempt, with the attempts counted so far. -/
theorem wp_pause_log {delay : ℚ} {post : History upstream → Except Raised Unit → Prop}
    (hpost : ∀ h', callLog h' = { callLog h with
      sleeps := (callLog h).sleeps ++ if 0 < delay then [((callLog h).attempts, delay)] else [] } →
      post h' (.ok ()))
    (hcancel : ∀ h', (callLog h').permit = (callLog h).permit → (callLog h').plain ≠ true →
      post h' (.error .cancelled)) :
    (pause delay).wp anyOp post h := by
  unfold pause
  split
  · next hd =>
    rw [Prog.wp_call_bind]
    refine ⟨trivial, fun wakeup => ?_⟩
    cases wakeup with
    | completed => exact hpost _ (by simp [CallLog.after, hd])
    | cancelled => exact hcancel _ (by simp [CallLog.after]) (by simp [CallLog.after])
  · next hd => exact hpost h (by simp [hd])

/-- A retryable failure is followed by the event and the pause, then by the next attempt. -/
theorem looping_retry {l : CallLog} {error : RequestError} (hl : Looping x q n l)
    (hretry : x.transportErrorIsRetryable q.method error = true) :
    Looping x q (n + 1)
      { l with
        attempts := l.attempts + 1
        replies := l.replies ++ [.error error]
        retries := l.retries + if x.hasCallback = true then 1 else 0
        sleeps := l.sleeps ++
          if 0 < x.retryDelay (n + 1) then [(l.attempts + 1, x.retryDelay (n + 1))] else [] } := by
  obtain ⟨hsafe, hkind⟩ : x.upper q.method ∈ safeRetryMethods ∧
      (error = .connectError ∨ error = .connectTimeout) := by
    unfold transportErrorIsRetryable at hretry
    split at hretry
    · next hm => exact ⟨by simpa [methodIsRetryable] using hm, by simpa using hretry⟩
    · cases hretry
  refine ⟨hl.plain, by simp [hl.attempts_eq], by simp [hl.replied], ?_, fun _ => hsafe, ?_,
    hl.unsettled, ?_⟩
  · intro reply hr
    rcases List.mem_append.mp hr with hr | hr
    · exact hl.transient reply hr
    · cases List.mem_singleton.mp hr
      rcases hkind with rfl | rfl
      · exact .inl rfl
      · exact .inr rfl
  · simp only [hl.slept, hl.attempts_eq, retryDelay, backoffs_succ, Nat.add_sub_cancel]
  · intro hc
    simp [hc, hl.announced hc]

theorem callLog_attempt (h : History upstream) (q : UpstreamRequest)
    (reply : Except RequestFailure UpstreamResponse) :
    callLog (h ++ [⟨.request q, ()⟩] ++ [⟨.response, reply⟩]) =
      { callLog h with attempts := (callLog h).attempts + 1 }.after ⟨.response, reply⟩ := by
  rw [callLog_snoc, callLog_snoc]
  rfl

theorem wp_attemptLoop_log (remaining n : ℕ) (h : History upstream) (hr : 0 < remaining)
    (hn : n + remaining = x.maxAttempts permit) (hpermit : (callLog h).permit = some permit)
    (hl : Looping x q n (callLog h)) :
    (x.attemptLoop q permit remaining n).wp anyOp (CallAccounted x q permit) h := by
  induction remaining generalizing n h with
  | zero => omega
  | succ remaining ih =>
    rw [attemptLoop, Prog.wp_call_bind]
    refine ⟨trivial, fun _ => ?_⟩
    rw [Prog.wp_call_bind]
    refine ⟨trivial, fun reply => ?_⟩
    have hlog := callLog_attempt h q reply
    cases reply with
    | error failure =>
      cases failure with
      | cancelled =>
        refine ⟨by simp, by rw [hlog]; exact hpermit, fun hplain => ?_, fun _ => .inl rfl⟩
        rw [hlog] at hplain
        cases hplain
      | other className =>
        refine ⟨by simp, by rw [hlog]; exact hpermit, fun hplain => ?_, fun _ => .inr ⟨_, rfl⟩⟩
        rw [hlog] at hplain
        cases hplain
      | requestError error =>
        dsimp only
        split
        · next hretry =>
          rw [Prog.wp_bind]
          refine wp_emitEvent_log fun h₁ hs₁ => ?_
          rw [Prog.sequel_ok, Prog.wp_bind]
          have hpermit₁ : (callLog h₁).permit = some permit := by rw [hs₁, hlog]; exact hpermit
          refine wp_pause_log (fun h₂ hs₂ => ?_) (fun h₂ hsame hnot =>
            ⟨by simp, hsame.trans hpermit₁, fun hplain => (hnot hplain).elim, fun _ => .inl rfl⟩)
          refine ih (n + 1) h₂ hretry.1 (by omega) (by rw [hs₂]; exact hpermit₁) ?_
          rw [hs₂, hs₁, hlog]
          simpa [CallLog.after] using looping_retry hl hretry.2
        · split
          · next hcount =>
            refine wp_settle_last (.error error) (by simp) ?_ (by omega) hpermit hl hlog
            cases error <;> first | rfl | simp [transportErrorCountsForCircuit] at hcount
          · next hcount =>
            refine wp_settle_last (.error error) (by simp) ?_ (by omega) hpermit hl hlog
            cases error <;> first | rfl | simp [transportErrorCountsForCircuit] at hcount
    | ok response =>
      dsimp only
      split
      · next hcount =>
        refine wp_settle_last (.ok response) (by simp) ?_ (by omega) hpermit hl hlog
        have : 500 ≤ response.statusCode ∧ response.statusCode ≤ 599 := by
          simpa [responseCountsForCircuitFailure] using hcount
        simp [settlementFor, this]
      · next hcount =>
        refine wp_settle_last (.ok response) (by simp) ?_ (by omega) hpermit hl hlog
        have : ¬ (500 ≤ response.statusCode ∧ response.statusCode ≤ 599) := by
          simpa [responseCountsForCircuitFailure] using hcount
        simp only [settlementFor, if_neg this]

theorem looping_admitted :
    Looping x q 0 { CallLog.initial with permit := some permit } :=
  ⟨rfl, rfl, rfl, by simp [CallLog.initial], by simp, rfl, rfl, fun _ => rfl⟩

theorem wp_admitted_log (hlog : callLog h = { CallLog.initial with permit := some permit }) :
    (x.admitted q permit).wp anyOp (CallAccounted x q permit) h := by
  have hloop : (x.attemptLoop q permit (x.maxAttempts permit) 0).wp anyOp
      (CallAccounted x q permit) h := by
    refine wp_attemptLoop_log _ 0 h (maxAttempts_pos permit) (Nat.zero_add _) (by rw [hlog]) ?_
    rw [hlog]
    exact looping_admitted
  rw [admitted, Prog.wp_tryCatch]
  refine Prog.wp_mono hloop fun h' outcome _ hpost => ?_
  cases outcome with
  | ok result => exact hpost
  | error e =>
    rw [Prog.recovery_error]
    cases e with
    | cancelled =>
      rw [recordNeutral, Prog.wp_bind]
      refine wp_settle_log (by simp) fun h'' hs =>
        ⟨by simp, by rw [hs]; exact hpost.admitted, fun hplain => ?_, fun _ => .inl rfl⟩
      -- A call that was not cancelled anywhere does not end so.
      rw [hs] at hplain
      obtain ⟨last, -, -, ho⟩ := (hpost.accounted hplain).settled
      cases last <;> cases ho
    | _ => exact hpost

/-- How any call ends: one that was not admitted makes no attempt and settles nothing. -/
structure RetryPost (x : ResilientUpstreamExecutor) (q : UpstreamRequest) (h : History upstream)
    (outcome : Except Raised UpstreamExecutionResult) : Prop where
  no_runtimeError : ∀ message, outcome ≠ .error (.runtimeError message)
  refused : (callLog h).permit = none → (callLog h).attempts = 0 ∧ (callLog h).settlements = []
  accounted : (callLog h).plain = true → ∀ permit, (callLog h).permit = some permit →
    Accounted x q permit (callLog h) outcome
  interrupted : (callLog h).plain = false → Interrupted outcome

theorem wp_execute_log (x : ResilientUpstreamExecutor) (q : UpstreamRequest) :
    (x.execute q).wp anyOp (RetryPost x q) [] := by
  unfold execute
  split
  · rw [Prog.wp_call_bind]
    refine ⟨trivial, fun admission => ?_⟩
    cases admission with
    | error e =>
      rw [Prog.wp_bind]
      refine wp_emitEvent_log fun h' hs => ?_
      have hlog : callLog h' = { CallLog.initial with retries := (callLog h').retries } := by
        rw [hs]
        rfl
      refine ⟨by simp, fun _ => ?_, fun _ permit hp => ?_, fun hp => ?_⟩
      · rw [hlog]
        exact ⟨rfl, rfl⟩
      · rw [hlog] at hp
        cases hp
      · rw [hlog] at hp
        cases hp
    | ok permit =>
      refine Prog.wp_mono (wp_admitted_log rfl) fun h' outcome _ hpost => ?_
      refine ⟨hpost.no_runtimeError, fun hp => ?_, fun hplain permit' hp => ?_,
        hpost.interrupted⟩
      · rw [hpost.admitted] at hp
        cases hp
      · rw [hpost.admitted] at hp
        cases hp
        exact hpost.accounted hplain
  · exact ⟨by simp, fun _ => ⟨rfl, rfl⟩, by simp [CallLog.initial], by simp [CallLog.initial]⟩

end Loop

/-- What every call's log shows at its end. -/
def retryDiscipline (x : ResilientUpstreamExecutor) : Discipline (executorSystem x) where
  ok _ := anyOp
  post := RetryPost x
  handler := wp_execute_log x

section Failures

variable {settings : UpstreamResilienceSettings} {v v' : ServiceView} {e : CallEvent} {i : ℕ}

/-- One for a call that has settled its permit, zero for any other. -/
def settledCount (v : ServiceView) (i : ℕ) : ℕ := ((v.calls i).any CallStatus.settled).toNat

theorem settledCount_update {b : ServiceCircuitBreaker} {j : ℕ} {c c' : CallStatus}
    (hj : v.calls j = some c) (hc : c.settled = true → c'.settled = true) :
    settledCount v i ≤ settledCount (v.update b j c') i := by
  by_cases hij : i = j
  · subst hij
    cases hs : c.settled with
    | false => simp [settledCount, hj, hs]
    | true => simp [settledCount, ServiceView.update, hj, hs, hc hs]
  · simp [settledCount, ServiceView.update, hij]

theorem settledCount_mono (hs : CallStep settings v e v') :
    settledCount v i ≤ settledCount v' i := by
  cases hs with
  | silent => exact le_rfl
  | @start j hj =>
    by_cases hij : i = j
    · subst hij
      simp [settledCount, hj]
    · simp [settledCount, ServiceView.update, hij]
  | answer now hj => exact settledCount_update hj (by simp [CallStatus.initial])
  | settle now s hj hc => exact settledCount_update hj fun _ => rfl
  | attempt hj hc hprobe => exact settledCount_update hj id
  | escape hj hc => exact settledCount_update hj id

theorem failures_answer {now : ℚ} (h : Consistent settings v) :
    (v.breaker.beforeRequest settings now).2.consecutiveFailures =
      v.breaker.consecutiveFailures := by
  have hadm := beforeRequest_admission now h.sound
  generalize (v.breaker.beforeRequest settings now).1 = r at hadm
  generalize (v.breaker.beforeRequest settings now).2 = b at hadm ⊢
  cases hadm <;> rfl

/-- A settlement counts at most one failure. Where the probe fails, the count is already at the
threshold that `record_failure` writes. -/
theorem failures_record {permit : CircuitPermit} {now : ℚ} {s : Settlement}
    (h : Consistent settings v) (hp : permit ∈ v.issued) :
    (v.breaker.record settings now permit s).2.consecutiveFailures ≤
      v.breaker.consecutiveFailures + 1 := by
  have hcomp := record_completion now h.sound hp s
  generalize (v.breaker.record settings now permit s).1 = changed at hcomp
  generalize (v.breaker.record settings now permit s).2 = b at hcomp ⊢
  cases hcomp with
  | stale | ignore => exact Nat.le_succ _
  | clear | recover => exact Nat.zero_le _
  | count => exact le_rfl
  | trip _ _ hf => exact hf.ge
  | reopen _ hc _ =>
    have := h.sound.tripped (by simp [hc])
    change settings.failureThreshold ≤ _
    omega

theorem failures_step (h : Consistent settings v) (hs : CallStep settings v e v') :
    (∃ j s changed, e = .settle j s changed ∧ settledCount v j = 0 ∧ settledCount v' j = 1 ∧
      v'.breaker.consecutiveFailures ≤ v.breaker.consecutiveFailures + 1) ∨
    v'.breaker.consecutiveFailures = v.breaker.consecutiveFailures := by
  cases hs with
  | silent | start | attempt | escape => exact .inr rfl
  | answer now hj => exact .inr (failures_answer h)
  | @settle j c permit now s hj hc =>
    refine .inl ⟨j, s, _, rfl, ?_, ?_, ?_⟩
    · simp [settledCount, hj, hc.unsettled]
    · simp [settledCount, ServiceView.update]
    · exact failures_record h ⟨j, false, c, hj, hc.permit_eq, hc.unsettled⟩

end Failures

section Runs

variable {x : ResilientUpstreamExecutor} {p : Pool (executorSystem x)}
  {ts : List (Transition (executorSystem x))} {c : ℚ} {i : ℕ}

/-- What one step adds to the failure count of a service, if it is a step of call `i`. -/
def failuresAddedBy (service : String) (i : ℕ) (t : Transition (executorSystem x)) : ℕ :=
  match t.label with
  | .act j _ =>
    if j = i then
      (t.after.world.breaker service).consecutiveFailures -
        (t.before.world.breaker service).consecutiveFailures
    else 0
  | _ => 0

/-- What the steps of call `i` add to the failure count of a service, over a whole run. -/
def failuresAdded (service : String) (i : ℕ) (ts : List (Transition (executorSystem x))) : ℕ :=
  (ts.map (failuresAddedBy service i)).sum

theorem failuresAddedBy_le {t : Transition (executorSystem x)} (service : String)
    (hs : Step t.before t.label t.after) (h : Regular t.before) :
    settledCount (view service t.before) i + failuresAddedBy service i t ≤
      settledCount (view service t.after) i := by
  have hstep := step_view service hs h.1
  have hmono := settledCount_mono (i := i) hstep
  unfold failuresAddedBy
  split
  · next j y hl =>
    split
    · next hj =>
      subst hj
      rcases failures_step (h.2 service) hstep with ⟨k, s, changed, he, h0, h1, hle⟩ | heq
      · obtain ⟨k', y', hl', hev⟩ := label_of_event (t := t) he (by simp) (by simp)
        rw [hl] at hl'
        cases hl'
        -- The settlement is one of the call that acts.
        have hk : k = j := by
          unfold callEvent at hev
          split at hev <;> cases hev
          rfl
        subst hk
        change (t.after.world.breaker service).consecutiveFailures ≤
          (t.before.world.breaker service).consecutiveFailures + 1 at hle
        omega
      · change (t.after.world.breaker service).consecutiveFailures =
          (t.before.world.breaker service).consecutiveFailures at heq
        omega
    · exact hmono
  · exact hmono

theorem failuresAdded_le (service : String) (h : Run (freshPool x c) ts p) :
    failuresAdded service i ts ≤ settledCount (view service p) i := by
  induction h with
  | refl => exact Nat.zero_le _
  | @snoc ts q q' l hr hs ih =>
    have hle := failuresAddedBy_le (i := i) (t := ⟨q, l, q'⟩) service hs (regular_run hr).1
    simp only [failuresAdded, List.map_append, List.sum_append, List.map_cons, List.map_nil,
      List.sum_cons, List.sum_nil] at ih ⊢
    simp only at hle
    omega

/-- The breakers, and a client that gives its answers one after the other. -/
def aloneWith (x : ResilientUpstreamExecutor)
    (client : ℕ → Except RequestError UpstreamResponse) :
    Environment upstream (Circuits × ℕ)
  | (c, n), .beforeRequest service =>
    let result := (c.breaker service).beforeRequest x.settings c.clock
    (result.1, c.set service result.2, n)
  | (c, n), .record service permit settlement =>
    let result := (c.breaker service).record x.settings c.clock permit settlement
    (result.1, c.set service result.2, n)
  | s, .onEvent _ _ => (none, s)
  | s, .request _ => ((), s)
  | (c, n), .response => ((client n).mapError .requestError, c, n + 1)
  | s, .sleep _ => (.completed, s)

theorem aloneWith_respond (client : ℕ → Except RequestError UpstreamResponse) (s : Circuits × ℕ)
    (op : UpstreamOp) :
    Circuits.respond x.settings s.1 op (aloneWith x client s op).1 =
      some (aloneWith x client s op).2.1 := by
  obtain ⟨c, n⟩ := s
  cases op <;> simp [Circuits.respond, aloneWith]

theorem plain_exec {α : Type} (client : ℕ → Except RequestError UpstreamResponse)
    (p : Prog upstream Raised α) (s : Circuits × ℕ) (h : History upstream)
    (hp : (callLog h).plain = true) :
    (callLog (h ++ (p.exec (aloneWith x client) s).history)).plain = true := by
  induction p generalizing s h with
  | finish outcome => simpa [Prog.exec] using hp
  | perform op resume ih =>
    have hnext : (callLog (h ++ [⟨op, (aloneWith x client s op).1⟩])).plain = true := by
      obtain ⟨c, n⟩ := s
      rw [callLog_snoc]
      cases op with
      | beforeRequest service =>
        cases hr : ((c.breaker service).beforeRequest x.settings c.clock).1 <;>
          simpa [aloneWith, CallLog.after, hr] using hp
      | onEvent service event => cases event <;> simpa [aloneWith, CallLog.after] using hp
      | response =>
        cases hr : client n <;> simpa [aloneWith, CallLog.after, hr, Except.mapError] using hp
      | record | request | sleep => simpa [aloneWith, CallLog.after] using hp
    simpa [Prog.exec] using ih _ (aloneWith x client s op).2 _ hnext

/-- Retries are safe and every call is accounted for once, whatever the other calls do. The log
of each ended call is that of an orderly one, and the call has added at most one to the failure
count of its service. Every call comes to its end, whatever the client answers to it. -/
theorem retry_safety (x : ResilientUpstreamExecutor) (c : ℚ)
    (ts : List (Transition (executorSystem x))) (p : Pool (executorSystem x))
    (h : Run (freshPool x c) ts p) (i : ℕ) (th : Thread (executorSystem x))
    (hi : p.threads[i]? = some th) :
    (∀ outcome, th.outcome = some outcome → RetryPost x th.request th.history outcome) ∧
    failuresAdded th.request.serviceName i ts ≤ 1 ∧
    ∀ client : ℕ → Except RequestError UpstreamResponse,
      let e := th.program.exec (aloneWith x client) (p.world, 0)
      ∃ us p', Run (freshPool x c) (ts ++ us) p' ∧
        p'.threads[i]? = some ⟨th.request, th.history ++ e.history, .finish e.outcome⟩ ∧
        ((callLog th.history).plain = true →
          (callLog (th.history ++ e.history)).plain = true) := by
  refine ⟨?_, ?_, ?_⟩
  · intro outcome ho
    exact (((retryDiscipline x).holds_run h).1 i th hi).finished ho
  · refine (failuresAdded_le th.request.serviceName h).trans ?_
    exact Bool.toNat_le _
  · intro client e
    obtain ⟨us, -, hr⟩ := h.exec (aloneWith x client) Prod.fst (aloneWith_respond client) hi
      (p.world, 0) rfl
    have hlt : i < p.threads.length := (List.getElem?_eq_some_iff.mp hi).1
    refine ⟨us, _, hr, List.getElem?_set_self hlt, fun hp => ?_⟩
    exact plain_exec client th.program (p.world, 0) th.history hp

/-- A GET whose first connection fails, sleeps a tenth of a second and is answered with 200. -/
def retriedGet : List (Move (executorSystem defaultExecutor)) :=
  .spawn getRequest ::
    List.replicate 4 (.act 0 (answers (.error (.requestError .connectError)))) ++
    List.replicate 3 (.act 0 (answers (.ok ⟨200, [], []⟩)))

/-- The run ends with the call answered at its second attempt. -/
def showsRetry (ts : List (Transition (executorSystem defaultExecutor))) : Bool :=
  (ts.getLast?.bind (·.after.threads[0]?)).any fun th =>
    th.outcome = some (.ok ⟨⟨200, [], []⟩, 2⟩) && (callLog th.history).plain &&
      (callLog th.history).permit = some ⟨0, false⟩

theorem retriedGet_accounted :
    ∃ ts p th, Run (freshPool defaultExecutor 0) ts p ∧ p.threads[0]? = some th ∧
      Accounted defaultExecutor th.request ⟨0, false⟩ (callLog th.history)
        (.ok ⟨⟨200, [], []⟩, 2⟩) := by
  have hplay : ((freshPool defaultExecutor 0).play retriedGet).any showsRetry = true := by
    decide +kernel
  obtain ⟨ts, hts, hshow⟩ := (Option.any_eq_true _ _).mp hplay
  obtain ⟨q, hrun⟩ := Pool.play_run hts
  obtain ⟨th, hlast, hcall⟩ := (Option.any_eq_true _ _).mp hshow
  obtain ⟨t, ht, hth⟩ := Option.bind_eq_some_iff.mp hlast
  obtain ⟨us, rfl⟩ := List.getLast?_eq_some_iff.mp ht
  obtain ⟨-, -, rfl⟩ := hrun.snoc_inv
  simp only [Bool.and_eq_true, decide_eq_true_eq] at hcall
  obtain ⟨⟨hout, hplain⟩, hpermit⟩ := hcall
  have hpost := (retry_safety defaultExecutor 0 _ _ hrun 0 th hth).1 _ hout
  exact ⟨_, _, th, hrun, hth, hpost.accounted hplain _ hpermit⟩

end Runs

end SecureGateway.Resilience
