import SecureGateway.RateLimit.Admission
import SecureGateway.RateLimit.ServerClock
import SecureGateway.Gateway.Limits
import SecureGateway.Gateway.LoginRace
import SecureGateway.Gateway.RedisKeys
import SecureGateway.Gateway.ZeroTrust

/-!
# The traffic that passes

The bucket of an identity, over all runs of the gateway. Between the reading of the clock and the
script anything may happen, and an answer may be lost; still the bucket is that of the limiter on
its own, so what passes is bounded by the policy.
-/
namespace SecureGateway.Gateway

open Interleaving RateLimit

section Keys

variable {cfg : Config} {policy policy' : RateLimitPolicy} {identity identity' : String}

/-- The keys of the two policies part at the first character of their names. -/
theorem policy_of_key (hp : policy ∈ limiterPolicies) (hp' : policy' ∈ limiterPolicies)
    (h : RedisRateLimiter.buildKey cfg identity policy =
      RedisRateLimiter.buildKey cfg identity' policy') : policy = policy' := by
  have hapart : ∀ d d' : String, RedisRateLimiter.buildKey cfg d proxyRateLimitPolicy ≠
      RedisRateLimiter.buildKey cfg d' loginIpRateLimitPolicy := by
    intro d d' heq
    simp only [RedisRateLimiter.buildKey, String.append_assoc] at heq
    have hnames := congrArg String.toList (append_left_inj.mp (append_left_inj.mp heq))
    simp only [String.toList_append] at hnames
    have hfirst : some 'a' = some 'l' := congrArg List.head? hnames
    cases hfirst
  simp only [limiterPolicies, List.mem_cons, List.not_mem_nil, or_false] at hp hp'
  rcases hp with rfl | rfl
  · rcases hp' with rfl | rfl
    · rfl
    · exact (hapart _ _ h).elim
  · rcases hp' with rfl | rfl
    · exact (hapart _ _ h.symm).elim
    · rfl

end Keys

/-- The script of this reply has run, whether or not its answer has arrived. -/
def hasRun : Except RedisFault ScriptReply → Bool
  | .ok _ => true
  | .error f => f.executed

section Steps

variable {cfg : Config} {policy : RateLimitPolicy} {identity key : String} {w : World}
  {ts : List (Transition (gatewaySystem cfg))} {p : Pool (gatewaySystem cfg)}
  {t : Transition (gatewaySystem cfg)}

/-- The reading that the step has Redis check the key by. -/
def checkedAt (key : String) : Label (gatewaySystem cfg) → Option ℤ
  | .act _ ⟨.evalTokenBucket key' _ _ _ nowMs _, r⟩ =>
    if key' = key ∧ hasRun r = true then some nowMs else none
  | _ => none

/-- The readings that a run has Redis check the key by. -/
def checksOf (key : String) (ts : List (Transition (gatewaySystem cfg))) : List ℤ :=
  ts.filterMap fun t => checkedAt key t.label

/-- An answer of the limiter that lets the key pass, going by a reading from `a` to `b`. -/
def passes (policy : RateLimitPolicy) (key : String) (a b : ℤ) : Exchange gateway → Bool
  | ⟨.evalTokenBucket key' _ _ _ nowMs _, .ok r⟩ =>
    (decide (key' = key) && decide (a ≤ nowMs ∧ nowMs ≤ b)) && letsPass policy r
  | _ => false

theorem Effect.buckets_eq {w' : World} {op : GatewayOp} (h : Effect w op w')
    (hop : ∀ capacity refillRate cost nowMs ttlMs,
      op ≠ .evalTokenBucket key capacity refillRate cost nowMs ttlMs) :
    w'.buckets key = w.buckets key := by
  cases h with
  | bucketStored key' capacity refillRate cost nowMs ttlMs b =>
    have hne : key ≠ key' := by
      rintro rfl
      exact hop _ _ _ _ _ rfl
    exact Function.update_of_ne hne _ _
  | _ => rfl

/-- What a step of the gateway does to the bucket of a key. -/
inductive BucketStep (policy : RateLimitPolicy) (key : String)
    (t : Transition (gatewaySystem cfg)) : Prop
  | kept (hnone : checkedAt key t.label = none)
      (hkey : t.after.world.buckets key = t.before.world.buckets key)
      (hpass : ∀ a b, t.label.counts (passes policy key a b) = false)
  | ran {nowMs : ℤ} (hread : checkedAt key t.label = some nowMs) (hnonneg : 0 ≤ nowMs)
      (hle : nowMs ≤ t.before.world.nowMs)
      (hkey : t.after.world.buckets key = (evalBucketAt policy nowMs t.before.world.nowMs
        (t.before.world.buckets key)).2)
      (hpass : ∀ a b, t.label.counts (passes policy key a b) = true →
        (a ≤ nowMs ∧ nowMs ≤ b) ∧ ∃ r, (evalBucketAt policy nowMs t.before.world.nowMs
          (t.before.world.buckets key)).1 = .ok r ∧ letsPass policy r = true)

/-- A step that is no check of the key. -/
theorem bucketStep_other {i : ℕ} {op : GatewayOp} {r : op.Reply}
    (hl : t.label = .act i ⟨op, r⟩)
    (hw : t.before.world.respond cfg.resilience op r = some t.after.world)
    (hop : ∀ capacity refillRate cost nowMs ttlMs,
      op ≠ .evalTokenBucket key capacity refillRate cost nowMs ttlMs) :
    BucketStep policy key t := by
  refine .kept ?_ ((respond_effect hw).buckets_eq hop) fun a b => ?_
  · rw [hl]
    cases op with
    | evalTokenBucket key' capacity refillRate cost nowMs ttlMs =>
      refine if_neg ?_
      rintro ⟨rfl, -⟩
      exact hop _ _ _ _ _ rfl
    | _ => rfl
  · rw [hl]
    cases op with
    | evalTokenBucket key' capacity refillRate cost nowMs ttlMs =>
      have hne : key' ≠ key := by
        rintro rfl
        exact hop _ _ _ _ _ rfl
      cases r with
      | error f => rfl
      | ok r => simp [Label.counts, passes, hne]
    | _ => rfl

/-- A check of the key, with its answer. -/
theorem bucketStep_check {i : ℕ} {nowMs : ℤ} {r : Except RedisFault ScriptReply}
    (hl : t.label = .act i ⟨bucketOp cfg policy identity nowMs, r⟩)
    (hkey : key = RedisRateLimiter.buildKey cfg identity policy)
    (hw : t.before.world.respond cfg.resilience (bucketOp cfg policy identity nowMs) r =
      some t.after.world)
    (hnonneg : 0 ≤ nowMs) (hle : nowMs ≤ t.before.world.nowMs) : BucketStep policy key t := by
  subst hkey
  change t.before.world.script r (evalBucketAt policy nowMs t.before.world.nowMs _)
    (t.before.world.setBucket _) = _ at hw
  cases r with
  | error f =>
    simp only [World.script] at hw
    split at hw
    · next hexecuted =>
      have hw := Option.some.inj hw
      have hread : checkedAt (RedisRateLimiter.buildKey cfg identity policy) t.label =
          some nowMs := by
        rw [hl]
        exact if_pos ⟨rfl, hexecuted⟩
      refine .ran hread hnonneg hle ?_ ?_
      · rw [← hw]
        exact Function.update_self _ _ _
      · intro a b hpass
        rw [hl] at hpass
        cases hpass
    · next hlost =>
      have hw := Option.some.inj hw
      refine .kept ?_ ?_ fun a b => ?_
      · rw [hl]
        exact if_neg fun h => hlost h.2
      · rw [← hw]
      · rw [hl]
        rfl
  | ok r =>
    simp only [World.script] at hw
    split at hw
    · next hanswer =>
      have hw := Option.some.inj hw
      have hread : checkedAt (RedisRateLimiter.buildKey cfg identity policy) t.label =
          some nowMs := by
        rw [hl]
        exact if_pos ⟨rfl, rfl⟩
      refine .ran hread hnonneg hle ?_ fun a b hpass => ?_
      · rw [← hw]
        exact Function.update_self _ _ _
      · rw [hl] at hpass
        simp only [Label.counts, passes, bucketOp, Bool.and_eq_true, decide_eq_true_eq] at hpass
        exact ⟨hpass.1.2, r, hanswer, hpass.2⟩
    · cases hw

theorem bucketStep_of_run (hpolicy : policy ∈ limiterPolicies)
    (hkey : key = RedisRateLimiter.buildKey cfg identity policy) (hr : Run (.initial w) ts p)
    (ht : t ∈ ts) : BucketStep policy key t := by
  have hs := hr.step ht
  cases hl : t.label with
  | spawn q =>
    rw [hl] at hs
    refine .kept (by rw [hl]; rfl) (by rw [hs.spawn_inv.1]) fun a b => by rw [hl]; rfl
  | tick e =>
    rw [hl] at hs
    refine .kept (by rw [hl]; rfl) (by rw [hs.tick_inv.1]; rfl) fun a b => by rw [hl]; rfl
  | act i x =>
    obtain ⟨op, r⟩ := x
    have hw := act_respond hr ht hl
    by_cases hop : ∃ capacity refillRate cost nowMs ttlMs,
        op = .evalTokenBucket key capacity refillRate cost nowMs ttlMs
    · obtain ⟨capacity, refillRate, cost, nowMs, ttlMs, rfl⟩ := hop
      obtain ⟨th, hi, hok⟩ := (limitDiscipline cfg).act_ok hr ht hl
      obtain ⟨hnonneg, hclock, policy', hpolicy', identity', hargs⟩ := hok
      obtain ⟨ts₁, ts₂, rfl⟩ := List.append_of_mem ht
      have hle := clock_reading_le hr.upTo hi hclock
      cases hargs
      obtain rfl := policy_of_key hpolicy hpolicy' hkey.symm
      exact bucketStep_check hl rfl hw hnonneg hle
    · refine bucketStep_other hl hw fun capacity refillRate cost nowMs ttlMs he => ?_
      exact hop ⟨_, _, _, _, _, he⟩

end Steps

section Runs

variable {cfg : Config} {policy : RateLimitPolicy} {identity key : String} {w : World}
  {ts : List (Transition (gatewaySystem cfg))} {p q : Pool (gatewaySystem cfg)}
  {t : Transition (gatewaySystem cfg)} {a b : ℤ}

/-- Readings of the clock reach Redis in their order, and while they are fresh. -/
structure Timely (policy : RateLimitPolicy) (key : String)
    (ts : List (Transition (gatewaySystem cfg))) : Prop where
  ordered : (checksOf key ts).Pairwise (· ≤ ·)
  fresh : ∀ t ∈ ts, ∀ nowMs ∈ checkedAt key t.label,
    2 * (t.before.world.nowMs - nowMs) ≤ policy.stateTtlMs

theorem checksOf_concat : checksOf key (ts ++ [t]) =
    checksOf key ts ++ (checkedAt key t.label).toList := by
  rw [checksOf, checksOf, List.filterMap_append]
  cases h : checkedAt key t.label with
  | none => simp [h]
  | some nowMs => simp [h]

theorem Timely.before (h : Timely policy key (ts ++ [t])) : Timely policy key ts := by
  refine ⟨?_, fun t' ht' => h.fresh t' (List.mem_append_left _ ht')⟩
  have hordered := h.ordered
  rw [checksOf_concat] at hordered
  exact (List.pairwise_append.mp hordered).1

/-- The limiter on its own spends on a check what its answer lets pass. -/
theorem checks_spend {r : ScriptReply} {nowMs : ℤ} {bucket : Redis.Key Bucket}
    (h : (evalBucket policy nowMs bucket).1 = .ok r) (hpass : letsPass policy r = true) :
    (checks policy).spend bucket nowMs = policy.cost := by
  have hcheck : (check policy nowMs bucket).1 =
      decisionOf policy r.allowed r.tokens r.retryAfterMs r.resetAfterMs := by
    rw [check_eq, h]
    rfl
  simp only [checks, hcheck]
  cases hd : decisionOf policy r.allowed r.tokens r.retryAfterMs r.resetAfterMs with
  | ok decision =>
    simp only [letsPass, hd] at hpass
    exact if_pos hpass
  | error => simp [letsPass, hd] at hpass

theorem spend_nonneg (bucket : Redis.Key Bucket) (nowMs : ℤ) :
    0 ≤ (checks policy).spend bucket nowMs := by
  simp only [checks]
  split
  · split
    · positivity
    · exact le_rfl
  · exact le_rfl

/-- The bucket of a run is that of the limiter on its own, and what has passed was paid for. -/
structure BucketTracked (policy : RateLimitPolicy) (key : String) (a b : ℤ)
    (ts : List (Transition (gatewaySystem cfg))) (p : Pool (gatewaySystem cfg)) : Prop where
  nonneg : ∀ u ∈ checksOf key ts, 0 ≤ u
  follows : Follows policy (p.world.buckets key) ((checks policy).run none (checksOf key ts))
  paid : (policy.cost : ℚ) * (ts.countP fun t => t.label.counts (passes policy key a b)) ≤
    (checks policy).spent a b none (checksOf key ts)

theorem BucketTracked.step (h : BucketTracked policy key a b ts t.before)
    (hs : BucketStep policy key t) (htimely : Timely policy key (ts ++ [t]))
    (hrange : t.before.world.nowMs + policy.stateTtlMs ≤ Redis.maxExpiry) :
    BucketTracked policy key a b (ts ++ [t]) t.after := by
  have hordered := htimely.ordered
  rw [checksOf_concat] at hordered
  cases hs with
  | kept hnone hkey hpass =>
    have hsame : checksOf key (ts ++ [t]) = checksOf key ts := by
      rw [checksOf_concat, hnone]
      exact List.append_nil _
    refine ⟨hsame ▸ h.nonneg, ?_, ?_⟩
    · rw [hsame, hkey]
      exact h.follows
    · rw [hsame, List.countP_append, List.countP_singleton, hpass a b]
      exact h.paid
  | @ran nowMs hread hnonneg hle hkey hpass =>
    have hmore : checksOf key (ts ++ [t]) = checksOf key ts ++ [nowMs] := by
      rw [checksOf_concat, hread]
      rfl
    rw [hread] at hordered
    obtain ⟨hsorted, -, hlast⟩ := List.pairwise_append.mp hordered
    have hfrom : (0 :: checksOf key ts).Pairwise (· ≤ ·) :=
      List.pairwise_cons.mpr ⟨h.nonneg, hsorted⟩
    have hwell : WellFormed policy ((checks policy).run none (checksOf key ts)) nowMs := by
      refine wellFormed_mono ((tokenAccount policy).valid_run (wellFormed_absent policy) hfrom) ?_
      cases hl : (checksOf key ts).getLast? with
      | none => exact hnonneg
      | some u => exact hlast u (List.mem_of_getLast? hl) nowMs (by simp)
    have hfresh := htimely.fresh t (by simp) nowMs (by simp [hread])
    obtain ⟨hanswer, hfollows⟩ := h.follows.next hwell hrange hle hfresh
    refine ⟨?_, ?_, ?_⟩
    · intro u hu
      rw [hmore] at hu
      rcases List.mem_append.mp hu with hu | hu
      · exact h.nonneg u hu
      · rw [List.mem_singleton.mp hu]
        exact hnonneg
    · rw [hmore, hkey, Budget.Machine.run, List.foldl_append]
      exact hfollows
    · rw [hmore, Budget.Machine.spent_concat, List.countP_append]
      have hpaid := h.paid
      cases hcounts : t.label.counts (passes policy key a b) with
      | false =>
        have hmiss : [t].countP (fun t => t.label.counts (passes policy key a b)) = 0 := by
          simp [hcounts]
        have hmost : (0 : ℚ) ≤ if a ≤ nowMs ∧ nowMs ≤ b then (checks policy).spend
            ((checks policy).run none (checksOf key ts)) nowMs else 0 := by
          split
          · exact spend_nonneg _ _
          · exact le_rfl
        rw [hmiss, Nat.add_zero]
        linarith
      | true =>
        have hhit : [t].countP (fun t => t.label.counts (passes policy key a b)) = 1 := by
          simp [hcounts]
        obtain ⟨hwindow, r, hr, hpasses⟩ := hpass a b hcounts
        rw [hhit, if_pos hwindow, checks_spend (hanswer.symm.trans hr) hpasses]
        push_cast
        linarith

theorem bucketTracked_run (hpolicy : policy ∈ limiterPolicies)
    (hkey : key = RedisRateLimiter.buildKey cfg identity policy) (hempty : w.buckets key = none)
    (hr : Run (.initial w) ts p) (htimely : Timely policy key ts)
    (hrange : p.world.nowMs + policy.stateTtlMs ≤ Redis.maxExpiry) :
    BucketTracked policy key a b ts p := by
  induction hr with
  | refl =>
    refine ⟨by simp [checksOf], ?_, by simp [checksOf, Budget.Machine.spent]⟩
    change Follows policy (w.buckets key) none
    rw [hempty]
    exact follows_absent policy
  | @snoc ts q p l hrun hs ih =>
    have hclock := step_nowMs_le hs
    have hbefore := ih htimely.before (by omega)
    have hstep := bucketStep_of_run hpolicy hkey (hrun.snoc hs) (t := ⟨q, l, p⟩) (by simp)
    exact hbefore.step (t := ⟨q, l, p⟩) hstep htimely (by change q.world.nowMs + _ ≤ _; omega)

/-- Each request that has passed has had an answer of its own. -/
theorem countP_any_le {kind : Exchange gateway → Bool}
    {threads : List (Thread (gatewaySystem cfg))} :
    threads.countP (fun th => th.history.any kind) ≤
      (threads.map fun th => th.history.countP kind).sum := by
  induction threads with
  | nil => exact le_rfl
  | cons th threads ih =>
    rw [List.countP_cons, List.map_cons, List.sum_cons]
    have hone : (if th.history.any kind = true then 1 else 0) ≤ th.history.countP kind := by
      split
      · next hany => exact List.countP_pos_iff.mpr (by simpa using hany)
      · exact Nat.zero_le _
    omega

theorem passed_le (hpolicy : policy ∈ limiterPolicies)
    (hkey : key = RedisRateLimiter.buildKey cfg identity policy) (hempty : w.buckets key = none)
    (hr : Run (.initial w) ts p) (htimely : Timely policy key ts)
    (hrange : p.world.nowMs + policy.stateTtlMs ≤ Redis.maxExpiry) (hab : a ≤ b) :
    (policy.cost : ℚ) * p.threads.countP (fun th => th.history.any (passes policy key a b)) ≤
      policy.capacity + policy.refillRatePerSecond * (b - a) / 1000 := by
  have htracked := bucketTracked_run (a := a) (b := b) hpolicy hkey hempty hr htimely hrange
  have hfrom : (0 :: checksOf key ts).Pairwise (· ≤ ·) :=
    List.pairwise_cons.mpr ⟨htracked.nonneg, htimely.ordered⟩
  have hspent := (tokenAccount policy).spent_le (ratePerMs_pos policy).le
    (fun bucket t _ => available_le_capacity policy bucket t) (wellFormed_absent policy) hfrom hab
  have hthreads : p.threads.countP (fun th => th.history.any (passes policy key a b)) ≤
      ts.countP fun t => t.label.counts (passes policy key a b) := by
    rw [hr.countP_exchanges]
    exact countP_any_le
  have hcost : (0 : ℚ) ≤ policy.cost := by positivity
  have hfewer := mul_le_mul_of_nonneg_left (Nat.cast_le (α := ℚ).mpr hthreads) hcost
  have hpaid := htracked.paid
  have hring : policy.refillRatePerSecond / 1000 * ((b : ℚ) - a) =
      policy.refillRatePerSecond * (b - a) / 1000 := by ring
  linarith

end Runs

section Requests

variable {cfg : Config} {w : World} {ts : List (Transition (gatewaySystem cfg))}
  {p : Pool (gatewaySystem cfg)} {th : Thread (gatewaySystem cfg)}

/-- The limiter has let the identity pass, by a reading from `a` to `b`. -/
def passedBetween (cfg : Config) (policy : RateLimitPolicy) (identity : String) (a b : ℤ)
    (h : History gateway) : Bool :=
  h.any (passes policy (RedisRateLimiter.buildKey cfg identity policy) a b)

theorem AdmittedAt.passed {policy : RateLimitPolicy} {identity : String} {nowMs : ℤ}
    {h : History gateway} (ha : AdmittedAt cfg policy identity nowMs h) :
    passedBetween cfg policy identity nowMs nowMs h = true := by
  obtain ⟨r, hr, hpass⟩ := ha
  refine List.any_eq_true.mpr ⟨_, hr, ?_⟩
  simp [passes, bucketOp, hpass]

theorem RateLimitAllowed.passed {userId : Uuid} {h : History gateway}
    (ha : RateLimitAllowed cfg userId h) : ∃ nowMs, passedBetween cfg proxyRateLimitPolicy
      (Python.strip userId.str) nowMs nowMs h = true := by
  obtain ⟨nowMs, r, decision, hr, hd, hallowed⟩ := ha
  refine ⟨nowMs, AdmittedAt.passed ⟨r, hr, ?_⟩⟩
  rw [letsPass, hd]
  exact hallowed

/-- What reaches a service has passed the limiter of its user. -/
theorem forwarded_passed (hr : Run (.initial w) ts p) (hth : th ∈ p.threads) {e : Resilience.UpstreamOp}
    {r : (GatewayOp.upstream e).Reply} (hx : Performed th.history (.upstream e) r) :
    ∃ http serviceName path userId nowMs, th.request = .proxy http serviceName path ∧
      Authenticated cfg http userId th.history ∧ passedBetween cfg proxyRateLimitPolicy
        (Python.strip userId.str) nowMs nowMs th.history = true := by
  obtain ⟨i, hi⟩ := List.mem_iff_getElem?.mp hth
  obtain ⟨h₁, h₂, hsplit⟩ := List.append_of_mem hx
  obtain ⟨http, serviceName, path, userId, code, u, hq, hz, -⟩ :=
    (gatewayDiscipline cfg).exchange_ok hr hi hsplit
  have hle : h₁ <+: th.history := hsplit ▸ List.prefix_append h₁ _
  obtain ⟨nowMs, hpassed⟩ := (hz.allowed.mono hle).passed
  exact ⟨http, serviceName, path, userId, nowMs, hq, hz.authenticated.mono hle, hpassed⟩

/-- A password is checked for what has passed the limiter of its address. -/
theorem verified_passed (hr : Run (.initial w) ts p) (hth : th ∈ p.threads)
    {x : Exchange gateway} (hx : x ∈ th.history) (hv : Verifying x.op) :
    ∃ http username password nowMs, th.request = .token http username password ∧
      passedBetween cfg loginIpRateLimitPolicy (addressOf http) nowMs nowMs th.history = true := by
  obtain ⟨i, hi⟩ := List.mem_iff_getElem?.mp hth
  obtain ⟨h₁, h₂, hsplit⟩ := List.append_of_mem hx
  have hok := (limitDiscipline cfg).exchange_ok hr hi hsplit
  have hle : h₁ <+: th.history := hsplit ▸ List.prefix_append h₁ _
  obtain ⟨op, r⟩ := x
  cases op with
  | verifyPassword given hash =>
    obtain ⟨http, username, password, nowMs, hq, ha⟩ := hok
    exact ⟨http, username, password, nowMs, hq, (ha.mono hle).passed⟩
  | verifyAndUpdatePassword given hash =>
    obtain ⟨http, username, password, nowMs, hq, ha⟩ := hok
    exact ⟨http, username, password, nowMs, hq, (ha.mono hle).passed⟩
  | _ => exact hv.elim

/-- The traffic of the gateway, however requests are interleaved and whatever fails. Of a user's
requests, and of the logins from an address, no more pass in any stretch of time than the policy
says, as long as readings of the clock reach Redis in order and fresh; and nothing reaches a
service, and no password is checked, but for a request that has passed. -/
theorem traffic_metered (cfg : Config) (w : World) (ts : List (Transition (gatewaySystem cfg)))
    (p : Pool (gatewaySystem cfg)) (hr : Run (.initial w) ts p) :
    (∀ policy ∈ limiterPolicies, ∀ identity,
      w.buckets (RedisRateLimiter.buildKey cfg identity policy) = none →
      Timely policy (RedisRateLimiter.buildKey cfg identity policy) ts →
      p.world.nowMs + policy.stateTtlMs ≤ Redis.maxExpiry → ∀ a b, a ≤ b →
      (policy.cost : ℚ) *
          p.threads.countP (fun th => passedBetween cfg policy identity a b th.history) ≤
        policy.capacity + policy.refillRatePerSecond * (b - a) / 1000) ∧
    ∀ th ∈ p.threads, ∀ x ∈ th.history,
      (∀ e, x.op = .upstream e → ∃ http serviceName path userId nowMs,
        th.request = .proxy http serviceName path ∧ Authenticated cfg http userId th.history ∧
        passedBetween cfg proxyRateLimitPolicy (Python.strip userId.str) nowMs nowMs
          th.history = true) ∧
      (Verifying x.op → ∃ http username password nowMs,
        th.request = .token http username password ∧
        passedBetween cfg loginIpRateLimitPolicy (addressOf http) nowMs nowMs
          th.history = true) := by
  constructor
  · intro policy hpolicy identity hempty htimely hrange a b hab
    exact passed_le hpolicy rfl hempty hr htimely hrange hab
  · intro th hth x hx
    refine ⟨?_, verified_passed hr hth hx⟩
    intro e he
    obtain ⟨op, r⟩ := x
    change op = .upstream e at he
    subst he
    exact forwarded_passed hr hth hx

end Requests

section Example

/-- Two reads of alice; the second has read the clock before the first is counted. -/
def twoReads : List (Move (gatewaySystem defaultConfig)) :=
  .spawn (.proxy (localRequest "GET" (some "token")) "service-a" "health") ::
    .spawn (.proxy (localRequest "GET" (some "token")) "service-a" "health") ::
      (steps 0 3 true ++ steps 1 3 true ++ steps 0 1 true ++ steps 1 1 true)

def aliceKey : String :=
  RedisRateLimiter.buildKey defaultConfig (Python.strip alice.id.str) proxyRateLimitPolicy

def freshCheck (t : Transition (gatewaySystem defaultConfig)) : Bool :=
  (checkedAt aliceKey t.label).all fun nowMs => t.before.world.nowMs = nowMs

/-- Both pass, within what the policy gives to a second. -/
theorem traffic_metered_twice :
    ∃ (ts : List (Transition (gatewaySystem defaultConfig))) (p : Pool _),
      Run (.initial migratedWorld) ts p ∧
      p.threads.countP (fun th => passedBetween defaultConfig proxyRateLimitPolicy
        (Python.strip alice.id.str) 0 1000 th.history) = 2 ∧
      (proxyRateLimitPolicy.cost : ℚ) * p.threads.countP (fun th => passedBetween defaultConfig
        proxyRateLimitPolicy (Python.strip alice.id.str) 0 1000 th.history) ≤
      proxyRateLimitPolicy.capacity +
        proxyRateLimitPolicy.refillRatePerSecond * ((1000 : ℤ) - (0 : ℤ)) / 1000 := by
  have hplay : ((Pool.initial migratedWorld).play twoReads).any (fun ts =>
      (ts.all freshCheck && decide ((checksOf aliceKey ts).Pairwise (· ≤ ·))) &&
        ts.getLast?.any fun t => decide (t.after.world.nowMs ≤ 2 ^ 60) && decide
          (t.after.threads.countP (fun th => passedBetween defaultConfig proxyRateLimitPolicy
            (Python.strip alice.id.str) 0 1000 th.history) = 2)) = true := by
    decide +kernel
  obtain ⟨ts, hts, hplayed⟩ := (Option.any_eq_true _ _).mp hplay
  obtain ⟨htimes, hlast⟩ := Bool.and_eq_true_iff.mp hplayed
  obtain ⟨hfresh, hordered⟩ := Bool.and_eq_true_iff.mp htimes
  obtain ⟨t, ht, hend⟩ := (Option.any_eq_true _ _).mp hlast
  obtain ⟨hclock, hcount⟩ := Bool.and_eq_true_iff.mp hend
  obtain ⟨p, hr⟩ := Pool.play_run hts
  obtain ⟨ts', rfl⟩ := List.getLast?_eq_some_iff.mp ht
  obtain ⟨-, -, rfl⟩ := hr.snoc_inv
  have htimely : Timely proxyRateLimitPolicy aliceKey (ts' ++ [t]) := by
    refine ⟨of_decide_eq_true hordered, fun t' ht' nowMs hn => ?_⟩
    have hsame := List.all_eq_true.mp hfresh t' ht'
    rw [freshCheck, Option.mem_def.mp hn] at hsame
    have hsame : t'.before.world.nowMs = nowMs := of_decide_eq_true hsame
    have httl := proxyRateLimitPolicy.stateTtlMs_pos
    omega
  have hbound := (traffic_metered defaultConfig migratedWorld _ _ hr).1 proxyRateLimitPolicy
    (by simp [limiterPolicies]) (Python.strip alice.id.str) rfl htimely
    (proxy_deadlineInRange (of_decide_eq_true hclock)) 0 1000 (by decide)
  exact ⟨_, _, hr, of_decide_eq_true hcount, hbound⟩

end Example

end SecureGateway.Gateway
