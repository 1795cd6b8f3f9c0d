import SecureGateway.Gateway.Effects
import SecureGateway.Gateway.RouteDiscipline

/-!
# Logins that overlap a lockout

A login reads the lock of its account, then verifies the password, then resets the account and
answers with a token. Another login may lock the account in between. A lock that is in force
goes away by a reset only, so what is read off the order of the checks, the locks and the
resets decides whether one is ever undercut.
-/
namespace SecureGateway.Gateway

open Interleaving Login

/-- The lock that a command at time `now` finds in a key. -/
def lockAt (now : ℤ) (key : LoginKey) : Option ℤ := (key.live now).bind (·.value.lockedUntilMs)

/-- The account is locked, with `locked_until_ms` equal to `u`. -/
def LockedUntil (w : World) (key : String) (u : ℤ) : Prop :=
  lockAt w.nowMs (w.logins key) = some u ∧ w.nowMs < u

def Locked (w : World) (key : String) : Prop := ∃ u, LockedUntil w key u

section Scripts

variable {now nowMs serverMs threshold failureWindowMs lockoutMs u : ℤ} {key : LoginKey}

theorem lockAt_live : lockAt now (key.live now) = lockAt now key := by
  unfold lockAt Redis.Key.live
  rw [Option.filter_filter]
  simp

theorem stored_of_lockAt (h : lockAt now key = some u) : storedLockedUntil (key.live now) = u := by
  unfold lockAt at h
  simp [storedLockedUntil, h]

theorem lockAt_stored {e : Redis.Entry LoginState} (h : lockAt now (some e) = some u) :
    e.value.lockedUntilMs = some u := by
  obtain ⟨e', hlive, hu⟩ := Option.bind_eq_some_iff.mp h
  obtain ⟨heq, -⟩ := Redis.Key.live_eq_some.mp hlive
  cases heq
  exact hu

/-- A check keeps the key, or removes a lock that is over. -/
theorem lockStatus_cases (nowMs serverMs : ℤ) (key : LoginKey) :
    (loginLockStatusScript nowMs serverMs key).2 = key ∨
      (loginLockStatusScript nowMs serverMs key).2 = key.live serverMs ∨
      (loginLockStatusScript nowMs serverMs key).2 = none ∧
        storedLockedUntil (key.live serverMs) ≤ nowMs := by
  unfold loginLockStatusScript
  dsimp only
  split
  · exact .inl rfl
  · split
    · exact .inr (.inl rfl)
    · next hle =>
      split
      · exact .inr (.inr ⟨rfl, not_lt.mp hle⟩)
      · exact .inr (.inl rfl)

theorem lockStatus_open {r : LoginReply}
    (h : (loginLockStatusScript nowMs serverMs key).1 = .ok r) (hr : r.locked = 0) :
    storedLockedUntil (key.live serverMs) ≤ nowMs := by
  unfold loginLockStatusScript at h
  dsimp only at h
  split at h
  · cases h
  · split at h
    · cases h
      cases hr
    · next hle => exact not_lt.mp hle

/-- A failure keeps the key of a locked account; otherwise it is counted, or locks. -/
theorem loginFailure_cases (threshold nowMs failureWindowMs lockoutMs serverMs : ℤ)
    (key : LoginKey) :
    let key' := (loginFailureScript threshold nowMs failureWindowMs lockoutMs serverMs key).2
    key' = key ∨ key' = key.live serverMs ∨ storedLockedUntil (key.live serverMs) ≤ nowMs ∧
      ∃ failures, (∃ d, key' = some ⟨⟨some failures, none⟩, d⟩) ∨
        key' = some ⟨⟨some failures, some (nowMs + lockoutMs)⟩, some (serverMs + lockoutMs)⟩ := by
  generalize hr : loginFailureScript threshold nowMs failureWindowMs lockoutMs serverMs key = r
  simp only [loginFailureScript] at hr
  split at hr
  · exact .inl (by rw [← hr])
  · split at hr
    · exact .inl (by rw [← hr])
    · split at hr
      · exact .inl (by rw [← hr])
      · split at hr
        · exact .inl (by rw [← hr])
        · split at hr
          · exact .inr (.inl (by rw [← hr]))
          · next hle =>
            refine .inr (.inr ⟨not_lt.mp hle, ?_⟩)
            split at hr <;> split at hr <;> subst hr
            · exact ⟨_, .inr rfl⟩
            · exact ⟨_, .inl ⟨_, rfl⟩⟩
            · exact ⟨_, .inr rfl⟩
            · exact ⟨_, .inl ⟨_, rfl⟩⟩

end Scripts

section Steps

variable {cfg : Config} {w : World} {ts : List (Transition (gatewaySystem cfg))}
  {p : Pool (gatewaySystem cfg)} {t : Transition (gatewaySystem cfg)} {key : String} {u u' : ℤ}

/-- The script of this reply has run. -/
def Executed {α : Type} : Except RedisFault α → Prop
  | .ok _ => True
  | .error f => f.executed = true

/-- Request `i` deletes the login state of the account. -/
def Erases (t : Transition (gatewaySystem cfg)) (i : ℕ) (key : String) : Prop :=
  ∃ r, t.label = .act i ⟨.evalLoginReset key, r⟩ ∧ Executed r

/-- Request `i` answers a login to the account with a token. -/
def Issues (t : Transition (gatewaySystem cfg)) (i : ℕ) (key : String) : Prop :=
  ∃ x th http username password accessToken headers, t.label = .act i x ∧
    t.after.threads[i]? = some th ∧ th.request = .token http username password ∧
    th.outcome = some (.ok (.token accessToken headers)) ∧ key = accountKey cfg username

/-- The lock check of request `i` lets it pass. -/
def FindsOpen (t : Transition (gatewaySystem cfg)) (i : ℕ) (key : String) : Prop :=
  ∃ nowMs r, t.label = .act i ⟨.evalLockStatus key nowMs, .ok r⟩ ∧ r.locked = 0

/-- The step locks the account until `u`. -/
def SetsLock (t : Transition (gatewaySystem cfg)) (key : String) (u : ℤ) : Prop :=
  ¬ Locked t.before.world key ∧ LockedUntil t.after.world key u

/-- What a step of a run can do to the login state of an account. -/
inductive KeyStep (key : String) (t : Transition (gatewaySystem cfg)) : Prop
  | kept (hk : t.after.world.logins key = t.before.world.logins key)
      (ht : t.before.world.nowMs ≤ t.after.world.nowMs)
  | checked {nowMs : ℤ} (hn : nowMs ≤ t.before.world.nowMs)
      (hk : t.after.world.logins key =
        (loginLockStatusScript nowMs t.before.world.nowMs (t.before.world.logins key)).2)
      (ht : t.after.world.nowMs = t.before.world.nowMs)
  | failed {i : ℕ} {threshold nowMs failureWindowMs lockoutMs : ℤ}
      {r : Except RedisFault LoginReply}
      (hl : t.label = .act i
        ⟨.evalLoginFailure key threshold nowMs failureWindowMs lockoutMs, r⟩)
      (hn : nowMs ≤ t.before.world.nowMs)
      (hk : t.after.world.logins key =
        (loginFailureScript threshold nowMs failureWindowMs lockoutMs t.before.world.nowMs
          (t.before.world.logins key)).2)
      (ht : t.after.world.nowMs = t.before.world.nowMs)
  | erased {i : ℕ} (he : Erases t i key) (hk : t.after.world.logins key = none)
      (ht : t.after.world.nowMs = t.before.world.nowMs)

theorem KeyStep.nowMs_le (h : KeyStep key t) :
    t.before.world.nowMs ≤ t.after.world.nowMs := by
  cases h with
  | kept _ ht => exact ht
  | checked _ _ ht | failed _ _ _ ht | erased _ _ ht => exact ht.ge

/-- A lock with the time it ends and a deadline of the key that is not earlier. -/
def Holding (w : World) (key : String) (u : ℤ) : Prop :=
  ∃ v d, w.logins key = some ⟨v, some d⟩ ∧ v.lockedUntilMs = some u ∧ u ≤ d

theorem Holding.lockedUntil (h : Holding w key u) (hu : w.nowMs < u) : LockedUntil w key u := by
  obtain ⟨v, d, hk, hv, hd⟩ := h
  refine ⟨?_, hu⟩
  rw [hk, lockAt, Redis.Key.live_some_of_le (by omega)]
  exact hv

/-- While the account is locked, neither a check nor a failure changes what is held. -/
theorem KeyStep.locked_cases (h : KeyStep key t) (hl : LockedUntil t.before.world key u) :
    ((∃ i, Erases t i key) ∧ t.after.world.logins key = none) ∨
      t.after.world.logins key = t.before.world.logins key ∨
      t.after.world.logins key =
        (t.before.world.logins key).live t.before.world.nowMs := by
  have hover : ∀ nowMs ≤ t.before.world.nowMs,
      ¬ storedLockedUntil ((t.before.world.logins key).live t.before.world.nowMs) ≤ nowMs := by
    intro nowMs hn hle
    rw [stored_of_lockAt hl.1] at hle
    exact absurd hl.2 (by omega)
  cases h with
  | kept hk _ => exact .inr (.inl hk)
  | @checked nowMs hn hk _ =>
    rw [hk]
    rcases lockStatus_cases nowMs t.before.world.nowMs (t.before.world.logins key) with
      he | he | ⟨-, hle⟩
    · exact .inr (.inl he)
    · exact .inr (.inr he)
    · exact (hover nowMs hn hle).elim
  | @failed i threshold nowMs window lockoutMs r _ hn hk _ =>
    rw [hk]
    rcases loginFailure_cases threshold nowMs window lockoutMs t.before.world.nowMs
      (t.before.world.logins key) with he | he | ⟨hle, -⟩
    · exact .inr (.inl he)
    · exact .inr (.inr he)
    · exact (hover nowMs hn hle).elim
  | @erased i he hk _ => exact .inl ⟨⟨i, he⟩, hk⟩

/-- An unexpired lock survives everything but a reset. -/
theorem KeyStep.holding (h : KeyStep key t) (hh : Holding t.before.world key u)
    (hu : t.before.world.nowMs < u) (hne : ∀ i, ¬ Erases t i key) :
    Holding t.after.world key u := by
  obtain ⟨v, d, hk, hv, hd⟩ := hh
  rcases h.locked_cases (Holding.lockedUntil ⟨v, d, hk, hv, hd⟩ hu) with ⟨⟨i, he⟩, -⟩ | he | he
  · exact (hne i he).elim
  · exact ⟨v, d, by rw [he, hk], hv, hd⟩
  · refine ⟨v, d, ?_, hv, hd⟩
    rw [he, hk, Redis.Key.live_some_of_le (by omega)]

theorem lockAt_earlier {now now' : ℤ} {k : LoginKey} (hle : now ≤ now')
    (h : lockAt now' k = some u) : lockAt now k = some u := by
  obtain ⟨e, he, hu⟩ := Option.bind_eq_some_iff.mp h
  obtain ⟨rfl, hd⟩ := Redis.Key.live_eq_some.mp he
  refine Option.bind_eq_some_iff.mpr ⟨e, ?_, hu⟩
  exact Redis.Key.live_eq_some.mpr ⟨rfl, fun d hm => hle.trans (hd d hm)⟩

/-- The lock of an account that stays locked stays the same. -/
theorem KeyStep.lock_eq (h : KeyStep key t) (hl : LockedUntil t.before.world key u)
    (hl' : LockedUntil t.after.world key u') : u = u' := by
  have hearlier := lockAt_earlier h.nowMs_le hl'.1
  rcases h.locked_cases hl with ⟨-, he⟩ | he | he
  · rw [he] at hearlier
    cases hearlier
  · rw [he, hl.1] at hearlier
    exact Option.some.inj hearlier
  · rw [he, lockAt_live, hl.1] at hearlier
    exact Option.some.inj hearlier

/-- Only a failure locks an account, and its key then outlives the lock. -/
theorem KeyStep.setsLock (h : KeyStep key t) (hs : SetsLock t key u) :
    Holding t.after.world key u ∧ ∃ i x, t.label = .act i x ∧ RecordsFailure x.op := by
  obtain ⟨hn, hl⟩ := hs
  have hsame : ∀ {k : LoginKey}, t.after.world.logins key = k →
      lockAt t.before.world.nowMs k ≠ lockAt t.before.world.nowMs (t.before.world.logins key) := by
    intro k hk he
    have hearlier := lockAt_earlier h.nowMs_le hl.1
    rw [hk, he] at hearlier
    exact hn ⟨u, hearlier, h.nowMs_le.trans_lt hl.2⟩
  have hnone : t.after.world.logins key ≠ none := by
    intro he
    have hlock := hl.1
    rw [he] at hlock
    cases hlock
  cases h with
  | kept hk _ => exact (hsame hk rfl).elim
  | @checked nowMs _ hk _ =>
    rcases lockStatus_cases nowMs t.before.world.nowMs (t.before.world.logins key) with
      he | he | ⟨he, -⟩
    · exact (hsame (hk.trans he) rfl).elim
    · exact (hsame (hk.trans he) lockAt_live).elim
    · exact (hnone (hk.trans he)).elim
  | @failed i threshold nowMs window lockoutMs r hlab hle hk ht =>
    refine ⟨?_, i, _, hlab, trivial⟩
    rcases loginFailure_cases threshold nowMs window lockoutMs t.before.world.nowMs
      (t.before.world.logins key) with he | he | ⟨-, failures, ⟨d, he⟩ | he⟩
    · exact (hsame (hk.trans he) rfl).elim
    · exact (hsame (hk.trans he) lockAt_live).elim
    · have hlock := hl.1
      rw [hk.trans he] at hlock
      cases lockAt_stored hlock
    · have hlock := hl.1
      rw [hk.trans he] at hlock
      cases lockAt_stored hlock
      exact ⟨_, _, hk.trans he, rfl, by omega⟩
  | erased _ hk _ => exact (hnone hk).elim

end Steps

section Runs

variable {cfg : Config} {w w' : World} {ts : List (Transition (gatewaySystem cfg))}
  {p q q' : Pool (gatewaySystem cfg)} {t : Transition (gatewaySystem cfg)} {key : String}
  {u : ℤ} {i : ℕ}

theorem step_nowMs_le {l : Label (gatewaySystem cfg)} (hs : Step q l q') :
    q.world.nowMs ≤ q'.world.nowMs := by
  cases l with
  | spawn r => rw [hs.spawn_inv.1]
  | tick e =>
    rw [hs.tick_inv.1]
    exact le_max_left _ _
  | act i x =>
    obtain ⟨-, -, -, -, hw, -⟩ := hs.act_inv
    exact (respond_effect hw).nowMs_eq.ge

theorem run_nowMs_le (h : Run q ts q') : q.world.nowMs ≤ q'.world.nowMs := by
  induction h with
  | refl => exact le_rfl
  | snoc _ hs ih => exact ih.trans (step_nowMs_le hs)

/-- A reading of the clock is never ahead of it. -/
theorem clock_reading_le {th : Thread (gatewaySystem cfg)} {nowMs : ℤ}
    (hr : Run (.initial w) ts p) (hi : p.threads[i]? = some th)
    (hp : Performed th.history .clockMs nowMs) : nowMs ≤ p.world.nowMs := by
  obtain ⟨h₁, h₂, hx⟩ := List.append_of_mem hp
  obtain ⟨ts₁, t, ts₂, th₀, rfl, hl, -, -, -⟩ := hr.exchange hi hx
  obtain ⟨rfl, hsame⟩ := respond_clockMs (act_respond hr (by simp) hl)
  rw [← hsame]
  exact run_nowMs_le hr.onward

theorem respond_reset {settings : Resilience.UpstreamResilienceSettings}
    {r : Except RedisFault Bool} (h : w.respond settings (.evalLoginReset key) r = some w') :
    w' = w ∨ (Executed r ∧ w' = w.setLogin key none) := by
  change w.script r (.ok _, none) (w.setLogin key) = some w' at h
  cases r with
  | error f =>
    simp only [World.script] at h
    split at h <;> cases h
    · next hf => exact .inr ⟨hf, rfl⟩
    · exact .inl rfl
  | ok b =>
    simp only [World.script] at h
    split at h <;> cases h
    exact .inr ⟨trivial, rfl⟩

theorem respond_lockStatus {settings : Resilience.UpstreamResilienceSettings} {nowMs : ℤ}
    {r : LoginReply} (h : w.respond settings (.evalLockStatus key nowMs) (.ok r) = some w') :
    (loginLockStatusScript nowMs w.nowMs (w.logins key)).1 = .ok r ∧
      w' = w.setLogin key (loginLockStatusScript nowMs w.nowMs (w.logins key)).2 := by
  simp only [World.respond, World.script] at h
  split at h <;> cases h
  next hr => exact ⟨hr, rfl⟩

theorem setLogin_logins (w : World) (key key' : String) (s : LoginKey) :
    (w.setLogin key' s).logins key = if key = key' then s else w.logins key := by
  simp only [World.setLogin, Function.update_apply]

theorem keyStep_of_run (hr : Run (.initial w) ts p) (ht : t ∈ ts) (key : String) :
    KeyStep key t := by
  have hs := hr.step ht
  cases hl : t.label with
  | spawn r =>
    rw [hl] at hs
    exact .kept (by rw [hs.spawn_inv.1]) (step_nowMs_le hs)
  | tick e =>
    rw [hl] at hs
    exact .kept (by rw [hs.tick_inv.1]; rfl) (step_nowMs_le hs)
  | act i x =>
    obtain ⟨op, r⟩ := x
    obtain ⟨th, hi, hok⟩ := (gatewayDiscipline cfg).act_ok hr ht hl
    have hw := act_respond hr ht hl
    obtain ⟨ts₁, ts₂, rfl⟩ := List.append_of_mem ht
    have hclock : ∀ nowMs, Performed th.history .clockMs nowMs → nowMs ≤ t.before.world.nowMs :=
      fun nowMs hp => clock_reading_le hr.upTo hi hp
    have hle := step_nowMs_le hs
    have he := respond_effect hw
    generalize hafter : t.after.world = w₁ at he
    have hnow : t.after.world.nowMs = t.before.world.nowMs := by rw [hafter, he.nowMs_eq]
    cases he with
    | lockStatusRead key' nowMs =>
      by_cases hk : key = key'
      · subst hk
        refine .checked (hclock nowMs hok) ?_ hnow
        rw [hafter, setLogin_logins, if_pos rfl]
      · refine .kept ?_ hle
        rw [hafter, setLogin_logins, if_neg hk]
    | failureRecorded key' threshold nowMs window lockoutMs =>
      by_cases hk : key = key'
      · subst hk
        refine .failed hl (hclock nowMs hok) ?_ hnow
        rw [hafter, setLogin_logins, if_pos rfl]
      · refine .kept ?_ hle
        rw [hafter, setLogin_logins, if_neg hk]
    | loginReset key' =>
      by_cases hk : key = key'
      · subst hk
        rcases respond_reset hw with hsame | ⟨hex, hsame⟩
        · exact .kept (by rw [hsame]) hle
        · refine .erased ⟨r, hl, hex⟩ ?_ hnow
          rw [hsame, setLogin_logins, if_pos rfl]
      · refine .kept ?_ hle
        rw [hafter, setLogin_logins, if_neg hk]
    | bucketStored => exact .kept (by rw [hafter]; rfl) hle
    | unchanged | eventAppended | userCommitted | passwordHashCommitted | roleInserted
    | roleDeleted | circuitsChanged => exact .kept (by rw [hafter]) hle

/-- An account that was open and is locked was locked by a step in between. -/
theorem lock_set_between (h : Run q ts q') (hk : ∀ t ∈ ts, KeyStep key t)
    (ho : ¬ Locked q.world key) (hl : LockedUntil q'.world key u) :
    ∃ ts₁ t ts₂, ts = ts₁ ++ t :: ts₂ ∧ SetsLock t key u := by
  induction h with
  | refl => exact (ho ⟨u, hl⟩).elim
  | @snoc ts q₁ q' l _ hs ih =>
    by_cases hl₁ : Locked q₁.world key
    · obtain ⟨u₁, hl₁⟩ := hl₁
      have hlast := hk ⟨q₁, l, q'⟩ (by simp)
      have hu : u₁ = u := hlast.lock_eq hl₁ hl
      subst hu
      obtain ⟨ts₁, t, ts₂, rfl, hset⟩ := ih (fun t ht => hk t (List.mem_append_left _ ht)) hl₁
      exact ⟨ts₁, t, ts₂ ++ [⟨q₁, l, q'⟩], by simp, hset⟩
    · exact ⟨ts, ⟨q₁, l, q'⟩, [], rfl, hl₁, hl⟩

/-- Where no reset meets a lock, an unexpired lock is still held. -/
theorem lock_stays (h : Run q ts q') (hk : ∀ t ∈ ts, KeyStep key t)
    (hne : ∀ t ∈ ts, ∀ i, Erases t i key → ¬ Locked t.before.world key)
    (hh : Holding q.world key u) (hu : q'.world.nowMs < u) : Holding q'.world key u := by
  induction h with
  | refl => exact hh
  | @snoc ts q₁ q' l _ hs ih =>
    have hlast := hk ⟨q₁, l, q'⟩ (by simp)
    have hu₁ : q₁.world.nowMs < u := hlast.nowMs_le.trans_lt hu
    have hh₁ := ih (fun t ht => hk t (List.mem_append_left _ ht))
      (fun t ht => hne t (List.mem_append_left _ ht)) hu₁
    refine hlast.holding hh₁ hu₁ fun i he => ?_
    exact hne ⟨q₁, l, q'⟩ (by simp) i he ⟨u, hh₁.lockedUntil hu₁⟩

/-- A check that lets its request pass leaves the account open. -/
theorem FindsOpen.not_locked (hr : Run (.initial w) ts p) (ht : t ∈ ts)
    (ho : FindsOpen t i key) : ¬ Locked t.after.world key := by
  obtain ⟨nowMs, r, hl, hzero⟩ := ho
  obtain ⟨th, hi, hclock⟩ := (gatewayDiscipline cfg).act_ok hr ht hl
  obtain ⟨hreply, hafter⟩ := respond_lockStatus (act_respond hr ht hl)
  obtain ⟨ts₁, ts₂, rfl⟩ := List.append_of_mem ht
  have hle : nowMs ≤ t.before.world.nowMs := clock_reading_le hr.upTo hi hclock
  have hopen := lockStatus_open hreply hzero
  rintro ⟨u, hlock, hu⟩
  rw [hafter] at hlock hu
  rw [setLogin_logins, if_pos rfl] at hlock
  have hbefore : lockAt t.before.world.nowMs (t.before.world.logins key) = some u := by
    rcases lockStatus_cases nowMs t.before.world.nowMs (t.before.world.logins key) with
      he | he | ⟨he, -⟩
    · rwa [he] at hlock
    · rw [he] at hlock
      exact lockAt_live.symm.trans hlock
    · rw [he] at hlock
      cases hlock
  rw [stored_of_lockAt hbefore] at hopen
  exact absurd hu (not_lt.mpr (hopen.trans hle))

/-- A locked account that a request has found open was locked after that check. -/
theorem lock_after_check {th : Thread (gatewaySystem cfg)} (hr : Run (.initial w) ts p)
    (hi : p.threads[i]? = some th) (hf : FoundUnlocked key th.history)
    (hl : LockedUntil p.world key u) :
    ∃ l₁ c l₂ t l₃, ts = l₁ ++ c :: (l₂ ++ t :: l₃) ∧ FindsOpen c i key ∧ SetsLock t key u := by
  obtain ⟨nowMs, r, hp, hzero⟩ := hf
  obtain ⟨h₁, h₂, hx⟩ := List.append_of_mem hp
  obtain ⟨l₁, c, us, th₀, rfl, hlab, -, -, -⟩ := hr.exchange hi hx
  have hc : FindsOpen c i key := ⟨nowMs, r, hlab, hzero⟩
  have hkey : ∀ t ∈ us, KeyStep key t := fun t ht => keyStep_of_run hr (by simp [ht]) key
  obtain ⟨l₂, t, l₃, rfl, hset⟩ :=
    lock_set_between hr.onward hkey (hc.not_locked hr (by simp)) hl
  exact ⟨l₁, c, l₂, t, l₃, rfl, hc, hset⟩

/-- What the discipline says about a step that answers with a token. -/
theorem Issues.inv (hr : Run (.initial w) ts p) (ht : t ∈ ts) (h : Issues t i key) :
    ∃ x th₀, t.label = .act i x ∧ t.before.threads[i]? = some th₀ ∧ ¬ RecordsFailure x.op ∧
      (FoundUnlocked key th₀.history ∨ FindsOpen t i key) := by
  obtain ⟨x, th, http, username, password, accessToken, headers, hl, hi, hq, ho, rfl⟩ := h
  have hs := hr.step ht
  rw [hl] at hs
  obtain ⟨th₀, resume, hi₀, -, -, hts⟩ := hs.act_inv
  have hlt : i < t.before.threads.length := (List.getElem?_eq_some_iff.mp hi₀).1
  rw [hts, List.getElem?_set_self hlt] at hi
  cases hi
  have hkeeps := (((gatewayDiscipline cfg).holds_run hr).2 t ht).2 i _
    (by rw [hts, List.getElem?_set_self hlt])
  obtain ⟨⟨nowMs, r, hp, hzero⟩, k, y, hk, hquiet⟩ :=
    hkeeps.finished ho http username password accessToken headers hq rfl
  obtain ⟨-, hy⟩ := List.append_inj' hk rfl
  cases hy
  refine ⟨x, th₀, hl, hi₀, hquiet, ?_⟩
  rcases List.mem_append.mp hp with hp | hp
  · exact .inl ⟨nowMs, r, hp, hzero⟩
  · cases List.mem_singleton.mp hp
    exact .inr ⟨nowMs, r, hl, hzero⟩

/-- No request undercuts a lock: a reset never meets one that is in force, and no token is
answered while its account is locked. -/
def LockRespected (ts : List (Transition (gatewaySystem cfg))) : Prop :=
  (∀ t ∈ ts, ∀ i key, Erases t i key → ¬ Locked t.before.world key) ∧
    ∀ t ∈ ts, ∀ i key, Issues t i key → ¬ Locked t.after.world key

/-- A lock that is set between the check of a request and its reset or its token is over by
then. -/
def LocksClearOfLogins (ts : List (Transition (gatewaySystem cfg))) : Prop :=
  ∀ i key u l₁ c l₂ t l₃ f l₄, ts = l₁ ++ c :: (l₂ ++ t :: (l₃ ++ f :: l₄)) →
    FindsOpen c i key → SetsLock t key u → (Erases f i key ∨ Issues f i key) →
    u ≤ f.before.world.nowMs

theorem locksClear_of_lockRespected (hr : Run (.initial w) ts p) (h : LockRespected ts) :
    LocksClearOfLogins ts := by
  rintro i key u l₁ c l₂ t l₃ f l₄ rfl - hset hf
  by_contra hlt
  push Not at hlt
  have hdec : l₁ ++ c :: (l₂ ++ t :: (l₃ ++ f :: l₄)) =
      (l₁ ++ c :: l₂) ++ t :: (l₃ ++ f :: l₄) := by simp
  have hrt : Run t.after (l₃ ++ f :: l₄) p := by
    rw [hdec] at hr
    exact hr.onward
  have hkey : ∀ t' ∈ l₁ ++ c :: (l₂ ++ t :: (l₃ ++ f :: l₄)), KeyStep key t' :=
    fun t' ht' => keyStep_of_run hr ht' key
  have hfmem : f ∈ l₁ ++ c :: (l₂ ++ t :: (l₃ ++ f :: l₄)) := by simp
  obtain ⟨hheld, -⟩ := (hkey t (by simp)).setsLock hset
  -- No reset met the lock, so it is still there.
  have hstays : Holding f.before.world key u :=
    lock_stays hrt.upTo (fun t' ht' => hkey t' (by simp [ht']))
      (fun t' ht' i' => h.1 t' (by simp [ht']) i' key) hheld hlt
  have hlocked : Locked f.before.world key := ⟨u, hstays.lockedUntil hlt⟩
  rcases hf with hf | hf
  · exact h.1 f hfmem i key hf hlocked
  · obtain ⟨⟨op, r⟩, th₀, hl, -⟩ := hf.inv hr hfmem
    have hnow := (respond_effect (act_respond hr hfmem hl)).nowMs_eq
    have hkept := (hkey f hfmem).holding hstays hlt fun i' he => h.1 f hfmem i' key he hlocked
    exact h.2 f hfmem i key hf ⟨u, hkept.lockedUntil (hnow.trans_lt hlt)⟩

theorem lockRespected_of_locksClear (hr : Run (.initial w) ts p) (h : LocksClearOfLogins ts) :
    LockRespected ts := by
  -- A lock in force where request `i` stands, after the check it passed, was set since.
  have hclear : ∀ {f : Transition (gatewaySystem cfg)} {i key u th l l₄}, ts = l ++ f :: l₄ →
      f.before.threads[i]? = some th → FoundUnlocked key th.history →
      LockedUntil f.before.world key u → ¬ (Erases f i key ∨ Issues f i key) := by
    rintro f i key u th l l₄ rfl hi hf hlock hact
    obtain ⟨l₁, c, l₂, t, l₃, rfl, hc, hset⟩ := lock_after_check hr.upTo hi hf hlock
    have hover := h i key u l₁ c l₂ t l₃ f l₄ (by simp) hc hset hact
    exact absurd hlock.2 (not_lt.mpr hover)
  constructor
  · rintro f hf i key he ⟨u, hlock⟩
    obtain ⟨l, l₄, hts⟩ := List.append_of_mem hf
    obtain ⟨r, hl, -⟩ := id he
    obtain ⟨th, hi, http, username, password, -, -, hfound⟩ :=
      (gatewayDiscipline cfg).act_ok hr hf hl
    exact hclear hts hi hfound hlock (.inl he)
  · rintro f hf i key he ⟨u, hlock⟩
    obtain ⟨l, l₄, hts⟩ := List.append_of_mem hf
    obtain ⟨x, th₀, hl, hi, hquiet, hfound | hopen⟩ := he.inv hr hf
    · have hkey := keyStep_of_run hr hf key
      by_cases hbefore : Locked f.before.world key
      · obtain ⟨u₀, hlock₀⟩ := hbefore
        exact hclear hts hi hfound hlock₀ (.inr he)
      · obtain ⟨-, i', x', hl', hrec⟩ := hkey.setsLock ⟨hbefore, hlock⟩
        rw [hl] at hl'
        cases hl'
        exact hquiet hrec
    · exact hopen.not_locked hr hf ⟨u, hlock⟩

/-- Exactly when no lock is undercut by a login in flight. -/
theorem lock_respected_iff (cfg : Config) (w : World)
    (ts : List (Transition (gatewaySystem cfg))) (p : Pool (gatewaySystem cfg))
    (hr : Run (.initial w) ts p) : LockRespected ts ↔ LocksClearOfLogins ts :=
  ⟨locksClear_of_lockRespected hr, lockRespected_of_locksClear hr⟩

end Runs

section Overlap

def loginRequest (password : String) : ApiRequest :=
  .token (localRequest "POST" none) "alice" password

/-- A login with the right password passes its check. Before its password is verified, five
others with wrong passwords run to their ends. Then the first one goes on to its reset. -/
def overlappingLogins : List (Move (gatewaySystem defaultConfig)) :=
  .spawn (loginRequest "right password") :: steps 0 6 true ++
    (List.range 5).flatMap (fun j =>
      .spawn (loginRequest "wrong password") :: steps (j + 1) 14 false) ++ steps 0 5 true

def erasesLock (t : Transition (gatewaySystem defaultConfig)) : Bool :=
  match t.label with
  | .act _ ⟨.evalLoginReset key, .ok _⟩ =>
    let w := t.before.world
    (lockAt w.nowMs (w.logins key)).any (w.nowMs < ·)
  | _ => false

theorem erasesLock_inv {t : Transition (gatewaySystem defaultConfig)}
    (h : erasesLock t = true) : ∃ i key, Erases t i key ∧ Locked t.before.world key := by
  unfold erasesLock at h
  split at h
  · next i key b hl =>
    obtain ⟨u, hu, hlt⟩ := (Option.any_eq_true _ _).mp h
    exact ⟨i, key, ⟨.ok b, hl, trivial⟩, u, hu, of_decide_eq_true hlt⟩
  · cases h

theorem overlapping_login_erases_lock :
    ¬ ∀ (cfg : Config) (w : World) (ts : List (Transition (gatewaySystem cfg)))
      (p : Pool (gatewaySystem cfg)), Run (.initial w) ts p → LockRespected ts := by
  intro h
  have hplay : ((Pool.initial migratedWorld).play overlappingLogins).any
      (fun ts => ts.any erasesLock) = true := by decide +kernel
  obtain ⟨ts, hts, hany⟩ := (Option.any_eq_true _ _).mp hplay
  obtain ⟨t, ht, herases⟩ := List.any_eq_true.mp hany
  obtain ⟨i, key, he, hlocked⟩ := erasesLock_inv herases
  obtain ⟨p, hr⟩ := Pool.play_run hts
  exact (h defaultConfig migratedWorld ts p hr).1 t ht i key he hlocked

/-- One login, from its start to its token. -/
def plainLogin : List (Move (gatewaySystem defaultConfig)) :=
  .spawn (loginRequest "right password") :: steps 0 16 true

def isToken : Except Raised ApiResponse → Bool
  | .ok (.token _ _) => true
  | _ => false

def recordsFailure : Label (gatewaySystem defaultConfig) → Bool
  | .act _ ⟨.evalLoginFailure _ _ _ _ _, _⟩ => true
  | _ => false

theorem plainLogin_respects_lock :
    ∃ (ts : List (Transition (gatewaySystem defaultConfig))) (p : Pool _),
      Run (.initial migratedWorld) ts p ∧
      (ts.any fun t => t.after.threads.any fun th => th.outcome.any isToken) = true ∧
      LockRespected ts := by
  have hplay : ((Pool.initial migratedWorld).play plainLogin).any (fun ts =>
      (ts.any fun t => t.after.threads.any fun th => th.outcome.any isToken) &&
        ts.all fun t => !recordsFailure t.label) = true := by decide +kernel
  obtain ⟨ts, hts, hshow⟩ := (Option.any_eq_true _ _).mp hplay
  obtain ⟨htoken, hnone⟩ := Bool.and_eq_true_iff.mp hshow
  obtain ⟨p, hr⟩ := Pool.play_run hts
  refine ⟨ts, p, hr, htoken, (lock_respected_iff defaultConfig migratedWorld ts p hr).mpr ?_⟩
  intro i key u l₁ c l₂ t l₃ f l₄ hdec _ hset _
  have ht : t ∈ ts := by simp [hdec]
  obtain ⟨-, j, ⟨op, r⟩, hl, hrec⟩ := (keyStep_of_run hr ht key).setsLock hset
  have hno := List.all_eq_true.mp hnone t ht
  rw [hl] at hno
  cases op with
  | evalLoginFailure => cases hno
  | _ => exact hrec.elim

end Overlap

end SecureGateway.Gateway
