import SecureGateway.Observability.Cardinality

/-!
# What is recorded of each request

The middleware records a request once when it ends, in the metrics and then in the log, with
the status it ends in. The counters are the numbers of the requests that have been recorded.
-/
namespace SecureGateway.Observability

open Interleaving Gateway

section Samples

namespace GatewayMetrics

/-- The value of a counter, or the number of observations of a histogram. -/
def samples (m : GatewayMetrics) (s : Series) : ℕ := (m.children.lookup s).getD 0

variable {m : GatewayMetrics} {s t : Series}

theorem samples_empty : empty.samples s = 0 := rfl

theorem lookup_bump (children : List (Series × ℕ)) :
    (children.map (bump s)).lookup t =
      (children.lookup t).map fun n => if t = s then n + 1 else n := by
  induction children with
  | nil => rfl
  | cons c children ih =>
    obtain ⟨key, n⟩ := c
    by_cases hs : key = s
    · by_cases ht : t = key
      · subst ht hs
        simp [bump]
      · simp [bump, hs, List.lookup_cons, beq_false_of_ne (hs ▸ ht), ih]
    · by_cases ht : t = key
      · subst ht
        simp [bump, hs]
      · simp [bump, hs, List.lookup_cons, beq_false_of_ne ht, ih]

/-- A sample counts once, and for its own series. -/
theorem samples_observe : (m.observe s).samples t = m.samples t + if t = s then 1 else 0 := by
  unfold samples observe
  split
  · next h =>
    rw [lookup_bump]
    cases hl : m.children.lookup t with
    | some n => by_cases ht : t = s <;> simp [ht]
    | none =>
      have hne : t ≠ s := by
        rintro rfl
        obtain ⟨c, hc, rfl⟩ := List.mem_map.mp h
        have := List.lookup_eq_none_iff.mp hl c hc
        simp at this
      simp [hne]
  · next h =>
    rw [List.lookup_append]
    cases hl : m.children.lookup t with
    | some n =>
      have hne : t ≠ s := by
        rintro rfl
        refine h (List.mem_map.mpr ⟨(t, n), ?_, rfl⟩)
        obtain ⟨l₁, l₂, hsplit, -⟩ := List.lookup_eq_some_iff.mp hl
        rw [hsplit]
        simp
      simp [hne]
    | none =>
      by_cases ht : t = s
      · simp [ht]
      · simp [ht, List.lookup_cons, beq_false_of_ne ht]

/-- What a handler performs is no request of its own. -/
theorem samples_after (op : GatewayOp) (method route statusClass : String) :
    (m.after op).samples (.httpRequestsTotal method route statusClass) =
      m.samples (.httpRequestsTotal method route statusClass) := by
  unfold after
  split
  · simp [recordSecurityEvent, samples_observe]
  · simp [recordRateLimitDecision, samples_observe]
  · simp [recordUpstreamRequest, samples_observe]
  · next service event =>
    unfold bestEffort recordUpstreamResilienceEvent
    split
    · next m' hm =>
      split at hm
      · cases hm
        simp [samples_observe]
      · cases hm
    · rfl
  · rfl

end GatewayMetrics

end Samples

section Middleware

variable {cfg : Config} {q : Incoming} {h : History application} {α : Type}

/-- The status that a request is recorded with; a cancelled one is not recorded. -/
def statusOf : Except Raised Response → Option ℤ
  | .ok response => some response.statusCode
  | .error error => if error = .cancelled then none else some 500

def eventOf : Except Raised Response → String
  | .ok _ => "request_completed"
  | .error _ => "request_failed"

/-- The history of `finishRequest`. -/
def finishing (q : Incoming) (event : String) (statusCode : ℤ) : History application :=
  [⟨.recordHttpRequest q.http.method (resolveRouteTemplate q.scopeRoute) statusCode, ()⟩,
    ⟨.emitRequestLog event q.http.requestId.str q.http.method
      (resolveRouteTemplate q.scopeRoute) statusCode, ()⟩]

def IsGateway : AppOp → Prop
  | .gateway _ => True
  | _ => False

def Performed (h : History application) : Prop := ∀ x ∈ h, IsGateway x.op

/-- Nothing is recorded before the route has ended, and the log line follows the metric. -/
def MayRecord (q : Incoming) (h : History application) : AppOp → Prop
  | .gateway _ => Performed h
  | .recordHttpRequest method route _ =>
    Performed h ∧ method = q.http.method ∧ route = resolveRouteTemplate q.scopeRoute
  | .emitRequestLog event requestId method route statusCode =>
    ∃ performed, Performed performed ∧ h ++ [⟨.emitRequestLog event requestId method route
      statusCode, ()⟩] = performed ++ finishing q event statusCode

/-- How a request has been recorded when it has ended. -/
def EndRecorded (q : Incoming) (h : History application) (outcome : Except Raised Response) :
    Prop :=
  (∃ performed, Performed performed ∧ h = performed ++
    (statusOf outcome).toList.flatMap (finishing q (eventOf outcome))) ∧
  ∀ response, outcome = .ok response → response.requestId = some q.http.requestId.str

theorem gateway_callNext (e : Endpoint) : (callNext cfg e).Only IsGateway := by
  cases e with
  | framework http outcome => exact Prog.only_liftExcept outcome
  | api q =>
    refine Prog.only_tryCatch (Prog.only_bind ?_ fun _ => Prog.only_pure _) fun error => ?_
    · exact Prog.only_embed (fun _ => trivial) (route cfg q)
    · unfold handleException
      split
      · exact Prog.only_pure _
      · split
        · exact Prog.only_pure _
        · exact Prog.only_throw _

theorem wp_finishRequest_bind {post : History application → Except Raised α → Prop}
    {event : String} {statusCode : ℤ} {k : Unit → AppAction α} (hh : Performed h)
    (hk : (k ()).wp (MayRecord q) post (h ++ finishing q event statusCode)) :
    (finishRequest q event statusCode >>= k).wp (MayRecord q) post h := by
  refine ⟨⟨hh, rfl, rfl⟩, fun _ => ⟨⟨h, hh, ?_⟩, fun _ => ?_⟩⟩
  · simp [finishing]
  · rw [List.append_assoc]
    exact hk

theorem wp_dispatch (q : Incoming) : (dispatch cfg q).wp (MayRecord q) (EndRecorded q) [] := by
  unfold dispatch
  rw [Prog.wp_bind]
  refine (Prog.wp_tryCatch _ _).mpr ?_
  refine Prog.wp_only_history (gateway_callNext q.endpoint) (by simp) ?_ ?_
  · intro h op hh hop
    cases op with
    | gateway op => exact hh
    | _ => exact hop.elim
  · intro h outcome hh
    cases outcome with
    | ok response =>
      refine wp_finishRequest_bind hh ⟨⟨h, hh, rfl⟩, fun response' hr => ?_⟩
      cases hr
      rfl
    | error error =>
      rw [Prog.recovery_error]
      by_cases hcancelled : error = .cancelled
      · rw [if_pos hcancelled]
        refine ⟨⟨h, hh, ?_⟩, fun response hr => by cases hr⟩
        simp [statusOf, hcancelled]
      · rw [if_neg hcancelled]
        refine wp_finishRequest_bind hh ⟨⟨h, hh, ?_⟩, fun response hr => by cases hr⟩
        simp [statusOf, eventOf, hcancelled]

def recordDiscipline (cfg : Config) : Discipline (applicationSystem cfg) where
  ok := MayRecord
  post := EndRecorded
  handler := wp_dispatch

end Middleware

section Runs

variable {cfg : Config} {w : AppWorld} {ts : List (Transition (applicationSystem cfg))}
  {p : Pool (applicationSystem cfg)} {th : Thread (applicationSystem cfg)} {i : ℕ}

/-- The status in the metric that the history has. -/
def recordedStatus (h : History application) : Option ℤ :=
  h.findSome? fun x => match x.op with
    | .recordHttpRequest _ _ statusCode => some statusCode
    | _ => none

/-- The log lines in a history. -/
def requestLines (h : History application) : List (String × String × String × String × ℤ) :=
  h.filterMap fun x => match x.op with
    | .emitRequestLog event requestId method route statusCode =>
      some (event, requestId, method, route, statusCode)
    | _ => none

/-- The histories of the middleware: nothing recorded, a metric, or the metric and the line. -/
def Tidy (q : Incoming) (h : History application) : Prop :=
  Performed h ∨ ∃ performed event statusCode, Performed performed ∧
    (h = performed ++ (finishing q event statusCode).take 1 ∨
      h = performed ++ finishing q event statusCode)

theorem tidy_thread (hr : Run (.initial w) ts p) (hi : p.threads[i]? = some th) :
    Tidy th.request th.history := by
  rcases List.eq_nil_or_concat' th.history with hnil | ⟨h, x, hx⟩
  · rw [hnil]
    exact Or.inl (by simp [Performed])
  · have hok := (recordDiscipline cfg).exchange_ok hr hi hx
    rw [hx]
    obtain ⟨op, r⟩ := x
    cases op with
    | gateway op =>
      refine Or.inl fun y hy => ?_
      rcases List.mem_append.mp hy with hy | hy
      · exact hok y hy
      · rw [List.mem_singleton.mp hy]
        trivial
    | recordHttpRequest method route statusCode =>
      obtain ⟨hh, rfl, rfl⟩ := hok
      exact Or.inr ⟨h, "", statusCode, hh, Or.inl rfl⟩
    | emitRequestLog event requestId method route statusCode =>
      obtain ⟨performed, hh, heq⟩ := hok
      exact Or.inr ⟨performed, event, statusCode, hh, Or.inr heq⟩

/-- The child of the counter that a status is recorded in. -/
def labelsOf (cfg : Config) (q : Incoming) (statusCode : ℤ) : Series :=
  .httpRequestsTotal (normalizeHttpMethod cfg.unicode q.http.method)
    (resolveRouteTemplate q.scopeRoute) (statusClass statusCode)

def recordsIn (cfg : Config) (s : Series) (x : Exchange application) : Bool :=
  match x.op with
  | .recordHttpRequest method route statusCode =>
    Series.httpRequestsTotal (normalizeHttpMethod cfg.unicode method) route
      (statusClass statusCode) = s
  | _ => false

variable {q : Incoming} {h : History application} {s : Series}

theorem countP_performed (hh : Performed h) : h.countP (recordsIn cfg s) = 0 := by
  refine List.countP_eq_zero.mpr fun x hx => ?_
  obtain ⟨op, r⟩ := x
  cases op with
  | gateway op => exact Bool.false_ne_true
  | _ => exact (hh _ hx).elim

theorem recordedStatus_performed (hh : Performed h) (h' : History application) :
    recordedStatus (h ++ h') = recordedStatus h' := by
  unfold recordedStatus
  rw [List.findSome?_append, List.findSome?_eq_none_iff.mpr, Option.none_or]
  intro x hx
  obtain ⟨op, r⟩ := x
  cases op with
  | gateway op => rfl
  | _ => exact (hh _ hx).elim

theorem requestLines_performed (hh : Performed h) (h' : History application) :
    requestLines (h ++ h') = requestLines h' := by
  unfold requestLines
  rw [List.filterMap_append, List.filterMap_eq_nil_iff.mpr, List.nil_append]
  intro x hx
  obtain ⟨op, r⟩ := x
  cases op with
  | gateway op => rfl
  | _ => exact (hh _ hx).elim

theorem countP_tidy (hh : Tidy q h) : h.countP (recordsIn cfg s) =
    if (recordedStatus h).any (fun statusCode => labelsOf cfg q statusCode = s) then 1 else 0 := by
  rcases hh with hh | ⟨performed, event, statusCode, hh, rfl | rfl⟩
  · have hnone := recordedStatus_performed hh []
    rw [List.append_nil] at hnone
    rw [countP_performed hh, hnone]
    rfl
  · rw [List.countP_append, countP_performed hh, recordedStatus_performed hh]
    by_cases hlabels : labelsOf cfg q statusCode = s
    · unfold labelsOf at hlabels
      simp [finishing, recordsIn, recordedStatus, labelsOf, hlabels]
    · unfold labelsOf at hlabels
      simp [finishing, recordsIn, recordedStatus, labelsOf, hlabels]
  · rw [List.countP_append, countP_performed hh, recordedStatus_performed hh]
    by_cases hlabels : labelsOf cfg q statusCode = s
    · unfold labelsOf at hlabels
      simp [finishing, recordsIn, recordedStatus, labelsOf, hlabels]
    · unfold labelsOf at hlabels
      simp [finishing, recordsIn, recordedStatus, labelsOf, hlabels]

/-- The counter has one sample for each metric of the run. -/
theorem samples_run {w : World} {method route statusClass : String}
    (hr : Run (.initial (AppWorld.start w)) ts p) :
    p.world.metrics.samples (.httpRequestsTotal method route statusClass) =
      ts.countP fun t =>
        t.label.counts (recordsIn cfg (.httpRequestsTotal method route statusClass)) := by
  induction hr with
  | refl => rfl
  | @snoc ts q q' l _ hs ih =>
    rw [List.countP_append, ← ih]
    cases hs with
    | spawn r => simp [Label.counts]
    | tick t => simp [Label.counts]
    | @act i th op resume r world hi hp hw =>
      cases op with
      | gateway op =>
        obtain ⟨world', -, rfl⟩ := Option.map_eq_some_iff.mp hw
        simp [Label.counts, recordsIn, GatewayMetrics.samples_after]
      | recordHttpRequest method' route' statusCode =>
        cases hw
        unfold GatewayMetrics.recordHttpRequest
        rw [GatewayMetrics.samples_observe, GatewayMetrics.samples_observe, List.countP_singleton,
          if_neg (Series.noConfusion : ¬ Series.httpRequestsTotal _ _ _ =
            .httpRequestDurationSeconds _ _), Nat.add_zero]
        exact congrArg _ (if_congr (eq_comm.trans decide_eq_true_iff.symm) rfl rfl)
      | emitRequestLog event requestId method route statusCode =>
        cases hw
        simp [Label.counts, recordsIn]

/-- However requests are interleaved: the counter of a method, a route and a status class is
the number of the requests with these labels that have been recorded; and a request that has
ended has been recorded with the status it ended in, once in the metrics and once in the log,
unless it was cancelled, and its response carries its own identifier. -/
theorem requests_tallied (cfg : Config) (w : World)
    (ts : List (Transition (applicationSystem cfg))) (p : Pool (applicationSystem cfg))
    (hr : Run (.initial (AppWorld.start w)) ts p) :
    (∀ method route statusClass,
      p.world.metrics.samples (.httpRequestsTotal method route statusClass) =
        p.threads.countP fun th => (recordedStatus th.history).any fun statusCode =>
          labelsOf cfg th.request statusCode = .httpRequestsTotal method route statusClass) ∧
    ∀ th ∈ p.threads, ∀ outcome, th.outcome = some outcome →
      recordedStatus th.history = statusOf outcome ∧
      requestLines th.history = (statusOf outcome).toList.map (fun statusCode =>
        (eventOf outcome, th.request.http.requestId.str, th.request.http.method,
          resolveRouteTemplate th.request.scopeRoute, statusCode)) ∧
      ∀ response, outcome = .ok response →
        response.requestId = some th.request.http.requestId.str := by
  refine ⟨fun method route statusClass => ?_, fun th hth outcome ho => ?_⟩
  · rw [samples_run hr]
    refine hr.countP_threads fun th hth => ?_
    obtain ⟨i, hi⟩ := List.mem_iff_getElem?.mp hth
    exact countP_tidy (tidy_thread hr hi)
  · obtain ⟨i, hi⟩ := List.mem_iff_getElem?.mp hth
    have hkeeps := ((recordDiscipline cfg).holds_run hr).1 i th hi
    obtain ⟨⟨performed, hh, heq⟩, hresponse⟩ := hkeeps.finished ho
    refine ⟨?_, ?_, hresponse⟩
    · rw [heq, recordedStatus_performed hh]
      cases statusOf outcome <;> rfl
    · rw [heq, requestLines_performed hh]
      cases statusOf outcome <;> rfl

/-- One request with a method of the client's own making. -/
theorem requests_tallied_brewed :
    ∃ (ts : List (Transition (applicationSystem defaultConfig))) (p : Pool _),
      Run (.initial (AppWorld.start migratedWorld)) ts p ∧
      p.world.metrics.samples (.httpRequestsTotal "OTHER" "/api/{service_name}/{path:path}" "4xx") =
        1 := by
  have hplay : ((Pool.initial (AppWorld.start migratedWorld)).play brewed).any (fun ts =>
      ts.any fun t => t.after.threads.countP (fun th => (recordedStatus th.history).any
        fun statusCode => labelsOf defaultConfig th.request statusCode =
          .httpRequestsTotal "OTHER" "/api/{service_name}/{path:path}" "4xx") = 1) = true := by
    decide +kernel
  obtain ⟨ts, hts, hany⟩ := (Option.any_eq_true _ _).mp hplay
  obtain ⟨t, ht, hcount⟩ := List.any_eq_true.mp hany
  obtain ⟨p, hr⟩ := Pool.play_run hts
  obtain ⟨ts₁, ts₂, rfl⟩ := List.append_of_mem ht
  have hto : Run (.initial (AppWorld.start migratedWorld)) (ts₁ ++ [t]) t.after :=
    hr.upTo.snoc (hr.step ht)
  refine ⟨_, _, hto, ?_⟩
  rw [(requests_tallied defaultConfig migratedWorld _ _ hto).1]
  exact of_decide_eq_true hcount

end Runs

end SecureGateway.Observability
