import SecureGateway.Gateway.Effects
import SecureGateway.Gateway.RouteDiscipline

/-!
# The zero-trust gate

No request reaches a service before its whole chain of checks has passed in that request, in
any interleaving and whatever the client sends. What the database says at the time of the
lookup decides, so a permission that is gone when the request starts is no use to it.
-/
namespace SecureGateway.Gateway

open Interleaving Resilience

variable {cfg : Config} {w : World} {ts : List (Transition (gatewaySystem cfg))}
  {p : Pool (gatewaySystem cfg)}

/-- The lookups of the checks. -/
def Lookup : GatewayOp → Prop
  | .selectUser _ | .selectPermissionExists _ _ | .evalTokenBucket _ _ _ _ _ _ => True
  | _ => False

theorem BackendFailure.lookup {op : GatewayOp} {r : op.Reply} (h : BackendFailure op r) :
    Lookup op := by
  cases op <;> trivial

theorem only_forwardRequest (http : HttpRequest) (serviceName path : String)
    (decision : RateLimit.RateLimitDecision) :
    (forwardRequest cfg http serviceName path decision).Only fun op => ¬ Lookup op := by
  refine Prog.only_bind (Prog.only_liftExcept _) fun baseUrl => ?_
  refine Prog.only_call_bind id fun read => ?_
  cases read with
  | error f => exact Prog.only_throw _
  | ok body =>
    refine Prog.only_bind ?_ fun result => Prog.only_call_bind id fun _ => Prog.only_pure _
    exact Prog.only_tryCatch (Prog.only_embed (fun _ => id) _)
      (only_upstreamFailed fun _ _ => id)

/-- A lookup of a proxied request comes before everything it does upstream. -/
def LooksUpFirst (q : ApiRequest) (h : History gateway) (op : GatewayOp) : Prop :=
  (∃ http serviceName path, q = .proxy http serviceName path) → Lookup op →
    ∀ x ∈ h, ∀ e, x.op ≠ .upstream e

theorem wp_lookups {α : Type} {q : ApiRequest} {h : History gateway} {program : Action α}
    {post : History gateway → Except Raised α → Prop} (hp : program.Only Looking)
    (hh : ∀ x ∈ h, Harmless x.op)
    (hpost : ∀ h' outcome, (∀ x ∈ h', Harmless x.op) → post h' outcome) :
    program.wp (LooksUpFirst q) post h := by
  refine Prog.wp_only_history (hp.mono harmless_of_looking) hh
    (fun h op hh _ _ _ x hx e he => ?_) hpost
  have := hh x hx
  rw [he] at this
  exact this

theorem proxyRequest_looksUpFirst (q : ApiRequest) (http : HttpRequest)
    (serviceName path : String) :
    (proxyRequest cfg http serviceName path).wp (LooksUpFirst q) (fun _ _ => True) [] := by
  rw [proxyRequest, Prog.wp_bind]
  refine wp_lookups only_getCurrentUser (by simp) fun h₁ current hh₁ => ?_
  cases current with
  | error e => trivial
  | ok user =>
    rw [Prog.sequel_ok, Prog.wp_bind]
    refine wp_lookups (only_enforceProxyRateLimit _ _) hh₁ fun h₂ limited hh₂ => ?_
    cases limited with
    | error e => trivial
    | ok decision =>
      rw [Prog.sequel_ok, Prog.wp_bind]
      refine wp_lookups (only_enforceProxyAuthorization _ _) hh₂ fun h₃ checked hh₃ => ?_
      cases checked with
      | error e => trivial
      | ok _ =>
        refine Prog.wp_of_only (only_forwardRequest http serviceName path decision) ?_ ?_
        · intro h op hop _ hl
          exact (hop hl).elim
        · intros
          trivial

def lookupDiscipline (cfg : Config) : Discipline (gatewaySystem cfg) where
  ok := LooksUpFirst
  post _ _ _ := True
  handler q := by
    by_cases hq : ∃ http serviceName path, q = .proxy http serviceName path
    · obtain ⟨http, serviceName, path, rfl⟩ := hq
      change Prog.wp _ _ _ (ite _ _ _)
      split
      · exact proxyRequest_looksUpFirst _ http serviceName path
      · trivial
    · refine Prog.wp_of_only (Prog.only_of_forall (fun _ => trivial) _) (P := fun _ => True) ?_ ?_
      · intro h op _ hproxy
        exact (hq hproxy).elim
      · intros
        trivial

section Gate

/-- Request `i` has started and not ended. -/
def Underway (i : ℕ) (p : Pool (gatewaySystem cfg)) : Prop :=
  ∃ th, p.threads[i]? = some th ∧ th.outcome = none

theorem underway_of_act {t : Transition (gatewaySystem cfg)} {i : ℕ} {x : Exchange gateway}
    (hs : Step t.before t.label t.after) (hl : t.label = .act i x) : Underway i t.before := by
  rw [hl] at hs
  obtain ⟨th, resume, hi, hp, -, -⟩ := hs.act_inv
  exact ⟨th, hi, by rw [Thread.outcome, hp]⟩

/-- What a request does upstream, it does with the chain of checks in its history. -/
theorem upstream_checked {t : Transition (gatewaySystem cfg)} {i : ℕ} {x : Exchange gateway}
    {e : UpstreamOp} (hr : Run (.initial w) ts p) (ht : t ∈ ts) (hl : t.label = .act i x)
    (hx : x.op = .upstream e) :
    ∃ th http serviceName path userId code u, t.before.threads[i]? = some th ∧
      th.request = .proxy http serviceName path ∧
      ZeroTrust cfg http serviceName userId code th.history ∧ Smooth [] th.history ∧
      u.serviceName = serviceName ∧ u.method = http.method ∧ About u e := by
  obtain ⟨th, hi, hok⟩ := (gatewayDiscipline cfg).act_ok hr ht hl
  rw [hx] at hok
  obtain ⟨http, serviceName, path, userId, code, u, hq, hz, hs, hu, hm, ha⟩ := hok
  exact ⟨th, http, serviceName, path, userId, code, u, hi, hq, hz, hs, hu, hm, ha⟩

/-- A permission found in a history was in the database when it was looked up. -/
theorem granted_in_database {i : ℕ} {th : Thread (gatewaySystem cfg)} {userId : Uuid}
    {code : String} (hr : Run (.initial w) ts p) (hi : p.threads[i]? = some th)
    (hg : Performed th.history (.selectPermissionExists userId code) (.ok true)) :
    ∃ t ∈ ts, t.label = .act i ⟨.selectPermissionExists userId code, .ok true⟩ ∧
      t.before.world.db.permissionExists userId code = true := by
  obtain ⟨h₁, h₂, hx⟩ := List.append_of_mem hg
  obtain ⟨ts₁, t, ts₂, th₀, rfl, hl, -, -, -⟩ := hr.exchange hi hx
  have ht : t ∈ ts₁ ++ t :: ts₂ := by simp
  exact ⟨t, ht, hl, respond_permission (act_respond hr ht hl)⟩

/-- Without the permission for as long as it runs, a proxied request does nothing upstream. -/
theorem no_upstream_without_permission {i : ℕ} {th : Thread (gatewaySystem cfg)}
    {http : HttpRequest} {serviceName path : String} (hr : Run (.initial w) ts p)
    (hi : p.threads[i]? = some th) (hq : th.request = .proxy http serviceName path)
    (hlacks : ∀ userId code, Authenticated cfg http userId th.history →
      PermissionFor serviceName http.method code → ∀ t ∈ ts, Underway i t.before →
        t.before.world.db.permissionExists userId code = false)
    {t : Transition (gatewaySystem cfg)} {x : Exchange gateway} (ht : t ∈ ts)
    (hl : t.label = .act i x) (e : UpstreamOp) : x.op ≠ .upstream e := by
  intro hx
  obtain ⟨th₀, http₀, service₀, path₀, userId, code, u, hi₀, hq₀, hz, -⟩ :=
    upstream_checked hr ht hl hx
  obtain ⟨th', hi', hq', hle⟩ := hr.persists_from ht hi₀
  rw [hi] at hi'
  cases hi'
  rw [hq, hq₀] at hq'
  cases hq'
  obtain ⟨ts₁, ts₂, rfl⟩ := List.append_of_mem ht
  obtain ⟨t', ht', hl', hdb⟩ := granted_in_database hr.upTo hi₀ hz.granted
  have hmem : t' ∈ ts₁ ++ t :: ts₂ := List.mem_append_left _ ht'
  have hnot := hlacks userId code (hz.authenticated.mono hle) hz.code_for t' hmem
    (underway_of_act (hr.step hmem) hl')
  rw [hdb] at hnot
  cases hnot

/-- With a failed back end anywhere in it, a proxied request does nothing upstream. -/
theorem no_upstream_after_failure {i : ℕ} {th : Thread (gatewaySystem cfg)}
    {http : HttpRequest} {serviceName path : String} (hr : Run (.initial w) ts p)
    (hi : p.threads[i]? = some th) (hq : th.request = .proxy http serviceName path)
    {f : Exchange gateway} (hf : f ∈ th.history) (hfail : BackendFailure f.op f.reply)
    {t : Transition (gatewaySystem cfg)} {x : Exchange gateway} (ht : t ∈ ts)
    (hl : t.label = .act i x) (e : UpstreamOp) : x.op ≠ .upstream e := by
  intro hx
  obtain ⟨th₀, -, -, -, -, -, -, hi₀, -, -, ⟨k, hk, hsmooth⟩, -⟩ := upstream_checked hr ht hl hx
  have hs := hr.step ht
  rw [hl] at hs
  obtain ⟨th₁, resume, hi₁, -, -, hts⟩ := hs.act_inv
  rw [hi₀] at hi₁
  cases hi₁
  have hlt : i < t.before.threads.length := (List.getElem?_eq_some_iff.mp hi₀).1
  obtain ⟨ts₁, ts₂, rfl⟩ := List.append_of_mem ht
  obtain ⟨th', hi', -, ⟨l, hl'⟩⟩ := hr.onward.thread_persists (i := i)
    (by rw [hts, List.getElem?_set_self hlt])
  rw [hi] at hi'
  cases hi'
  -- The failure is before the operation, is the operation, or comes after it.
  rw [← hl', List.append_assoc] at hf
  rcases List.mem_append.mp hf with hf | hf
  · rw [List.nil_append] at hk
    exact hsmooth f (hk ▸ hf) hfail
  · rcases List.mem_cons.mp hf with rfl | hf
    · have := hfail.lookup
      rw [hx] at this
      exact this
    · obtain ⟨l₁, l₂, rfl⟩ := List.append_of_mem hf
      have hdec : th.history = (th₀.history ++ [x] ++ l₁) ++ f :: l₂ := by simp [← hl']
      have hfirst := (lookupDiscipline cfg).exchange_ok hr hi hdec ⟨_, _, _, hq⟩ hfail.lookup
      exact hfirst x (by simp) e hx

/-- The zero-trust gate, in every run. -/
theorem zero_trust_gate (cfg : Config) (w : World) (ts : List (Transition (gatewaySystem cfg)))
    (p : Pool (gatewaySystem cfg)) (hr : Run (.initial w) ts p) :
    (∀ ts₁ t ts₂ i u r, ts = ts₁ ++ t :: ts₂ → t.label = .act i ⟨.upstream (.request u), r⟩ →
      ∃ th http path userId code, t.before.threads[i]? = some th ∧
        th.request = .proxy http u.serviceName path ∧ u.method = http.method ∧
        ZeroTrust cfg http u.serviceName userId code th.history ∧
        ∃ t' ∈ ts₁, t'.label = .act i ⟨.selectPermissionExists userId code, .ok true⟩ ∧
          t'.before.world.db.permissionExists userId code = true) ∧
    ∀ i th http serviceName path, p.threads[i]? = some th →
      th.request = .proxy http serviceName path →
      ((∀ userId code, Authenticated cfg http userId th.history →
          PermissionFor serviceName http.method code → ∀ t ∈ ts, Underway i t.before →
            t.before.world.db.permissionExists userId code = false) ∨
        ∃ x ∈ th.history, BackendFailure x.op x.reply) →
      ∀ t ∈ ts, ∀ x, t.label = .act i x →
        (∀ e, x.op ≠ .upstream e) ∧ t.after.world.circuits = t.before.world.circuits := by
  constructor
  · intro ts₁ t ts₂ i u r hts hl
    subst hts
    obtain ⟨th, http, service, path, userId, code, u', hi, hq, hz, -, rfl, hm, hu⟩ :=
      upstream_checked hr (by simp) hl rfl
    cases hu
    obtain ⟨t', ht', hl', hdb⟩ := granted_in_database hr.upTo hi hz.granted
    exact ⟨th, http, path, userId, code, hi, hq, hm, hz, t', ht', hl', hdb⟩
  · intro i th http serviceName path hi hq hcause t ht x hl
    have hnone : ∀ e, x.op ≠ .upstream e := by
      rcases hcause with hlacks | ⟨f, hf, hfail⟩
      · exact no_upstream_without_permission hr hi hq hlacks ht hl
      · exact no_upstream_after_failure hr hi hq hf hfail ht hl
    refine ⟨hnone, ?_⟩
    exact (respond_effect (act_respond hr ht hl)).circuits_eq hnone

/-- A proxied GET of a user who may read the service. -/
def proxiedGet : List (Move (gatewaySystem defaultConfig)) :=
  .spawn (.proxy (localRequest "GET" (some "token")) "service-a" "health") :: steps 0 12 true

def isClientCall : Label (gatewaySystem defaultConfig) → Bool
  | .act _ ⟨.upstream (.request _), _⟩ => true
  | _ => false

theorem isClientCall_inv {l : Label (gatewaySystem defaultConfig)} (h : isClientCall l = true) :
    ∃ i u r, l = .act i ⟨.upstream (.request u), r⟩ := by
  unfold isClientCall at h
  split at h
  · next i u r => exact ⟨i, u, r, rfl⟩
  · cases h

theorem proxiedGet_checked :
    ∃ (ts : List (Transition (gatewaySystem defaultConfig))) (p : Pool _),
      Run (.initial migratedWorld) ts p ∧ ∃ t ∈ ts, ∃ i u r th http path userId code,
      t.label = .act i ⟨.upstream (.request u), r⟩ ∧ t.before.threads[i]? = some th ∧
        th.request = .proxy http u.serviceName path ∧
        ZeroTrust defaultConfig http u.serviceName userId code th.history := by
  have hplay : ((Pool.initial migratedWorld).play proxiedGet).any
      (fun ts => ts.any fun t => isClientCall t.label) = true := by decide +kernel
  obtain ⟨ts, hts, hany⟩ := (Option.any_eq_true _ _).mp hplay
  obtain ⟨t, ht, hcall⟩ := List.any_eq_true.mp hany
  obtain ⟨i, u, r, hl⟩ := isClientCall_inv hcall
  obtain ⟨p, hr⟩ := Pool.play_run hts
  obtain ⟨ts₁, ts₂, hdec⟩ := List.append_of_mem ht
  obtain ⟨th, http, path, userId, code, hi, hq, -, hz, -⟩ :=
    (zero_trust_gate defaultConfig migratedWorld ts p hr).1 ts₁ t ts₂ i u r hdec hl
  exact ⟨ts, p, hr, t, ht, i, u, r, th, http, path, userId, code, hl, hi, hq, hz⟩

end Gate

end SecureGateway.Gateway
