import SecureGateway.Login.Scripts

/-!
# The lockout machine

The scripts on one key, against a reference machine that keeps the times of the counted
failures and reads counts and locks off that history. It has no key and no deadline.
-/
namespace SecureGateway.Login

inductive LoginCall where
  | recordFailure
  | checkLock
  | reset
  deriving DecidableEq, Repr

inductive LoginAnswer where
  | reply (r : LoginReply)
  | deleted (flag : Bool)
  | error (message : String)
  deriving DecidableEq, Repr

def LoginAnswer.of : Except String LoginReply → LoginAnswer
  | .ok r => .reply r
  | .error message => .error message

variable (policy : LoginProtectionPolicy)

/-- `record_failure`, `check_lock` and `reset` on one key, gateway and server on one clock. -/
def protection : Timed.Machine LoginKey LoginCall LoginAnswer where
  step key now
    | .recordFailure =>
      let r := loginFailureScript policy.failureThreshold now policy.failureWindowMs
        policy.lockoutMs now key
      (.of r.1, r.2)
    | .checkLock =>
      let r := loginLockStatusScript now now key
      (.of r.1, r.2)
    | .reset =>
      let r := loginResetScript now key
      (.deleted r.1, r.2)

/-- The failures counted since the last reset or lock expiry, newest first, and the time the
account was locked at. -/
structure Reference where
  counted : List ℤ
  lockedAt : Option ℤ
  deriving DecidableEq, Repr

/-- Length of the longest chain that starts with the newest time and whose gaps are within `w`. -/
def chainLength (w : ℤ) : List ℤ → ℤ
  | [] => 0
  | [_] => 1
  | a :: b :: rest => if a - b ≤ w then chainLength w (b :: rest) + 1 else 1

/-- The failure count at a time: the chain, if its newest failure is within `w` of that time. -/
def failureCount (w : ℤ) (counted : List ℤ) (now : ℤ) : ℤ :=
  match counted with
  | [] => 0
  | a :: _ => if now - a ≤ w then chainLength w counted else 0

/-- The chain is a prefix with small gaps, and no longer prefix has only small gaps. -/
theorem chainLength_isGreatest (w : ℤ) (counted : List ℤ) :
    ∃ k : ℕ, chainLength w counted = k ∧ k ≤ counted.length ∧
      (counted.take k).IsChain (fun a b => a - b ≤ w) ∧
      ∀ l, l ≤ counted.length → (counted.take l).IsChain (fun a b => a - b ≤ w) → l ≤ k := by
  induction counted with
  | nil => exact ⟨0, by simp [chainLength]⟩
  | cons a counted ih =>
    cases counted with
    | nil => exact ⟨1, rfl, le_rfl, by simp, fun l hl _ => hl⟩
    | cons b rest =>
      by_cases hg : a - b ≤ w
      · obtain ⟨k, hk, hle, hchain, hmax⟩ := ih
        refine ⟨k + 1, by simp [chainLength, hg, hk], by simpa using hle, ?_, ?_⟩
        · cases k with
          | zero => simp
          | succ k => exact List.isChain_cons_cons.mpr ⟨hg, hchain⟩
        · intro l hl hc
          cases l with
          | zero => omega
          | succ l => exact Nat.succ_le_succ (hmax l (by simpa using hl) hc.of_cons)
      · refine ⟨1, by simp [chainLength, hg], by simp, by simp, ?_⟩
        intro l hl hc
        match l with
        | 0 => omega
        | 1 => omega
        | l + 2 => exact (hg (List.isChain_cons_cons.mp hc).1).elim

namespace Reference

/-- From `t + d` on a lock set at `t` is over, and its failures no longer count. -/
def expire (s : Reference) (now : ℤ) : Reference :=
  match s.lockedAt with
  | some t => if now < t + policy.lockoutMs then s else ⟨[], none⟩
  | none => s

/-- The answer while the lock set at `t` is in force. -/
def lockedReply (t now : ℤ) : LoginAnswer :=
  .reply ⟨1, policy.failureThreshold, t + policy.lockoutMs - now⟩

/-- Something is still held for the account: a lock, or a failure within the window. -/
def held (s : Reference) (now : ℤ) : Bool :=
  match s.lockedAt, s.counted with
  | some t, _ => now ≤ t + policy.lockoutMs
  | none, [] => false
  | none, a :: _ => now ≤ a + policy.failureWindowMs

/-- The reference machine. -/
def machine : Timed.Machine Reference LoginCall LoginAnswer where
  step s now
    | .recordFailure =>
      let s := s.expire policy now
      match s.lockedAt with
      | some t => (lockedReply policy t now, s)
      | none =>
        let counted := now :: s.counted
        let count := failureCount policy.failureWindowMs counted now
        if count = policy.failureThreshold then
          (lockedReply policy now now, ⟨counted, some now⟩)
        else (.reply ⟨0, count, 0⟩, ⟨counted, none⟩)
    | .checkLock =>
      let s := s.expire policy now
      match s.lockedAt with
      | some t => (lockedReply policy t now, s)
      | none => (.reply ⟨0, failureCount policy.failureWindowMs s.counted now, 0⟩, s)
    | .reset => (.deleted (s.held policy now), ⟨[], none⟩)

end Reference

/-- The key of an account that is locked since `t`. -/
def lockedEntry (t : ℤ) : Redis.Entry LoginState :=
  ⟨⟨some policy.failureThreshold, some (t + policy.lockoutMs)⟩, some (t + policy.lockoutMs)⟩

/-- The key of an unlocked account whose newest failure was at `a`. -/
def countedEntry (failures a : ℤ) : Redis.Entry LoginState :=
  ⟨⟨some failures, none⟩, some (a + policy.failureWindowMs)⟩

/-- How the key mirrors the reference state at a time. -/
inductive Mirrors : LoginKey → Reference → ℤ → Prop
  | locked {counted : List ℤ} {t now : ℤ} (h0 : 0 ≤ t) (ht : t ≤ now) :
      Mirrors (some (lockedEntry policy t)) ⟨counted, some t⟩ now
  | counted {a now : ℤ} {rest : List ℤ} (h0 : 0 ≤ a) (ha : a ≤ now)
      (hc : chainLength policy.failureWindowMs (a :: rest) < policy.failureThreshold) :
      Mirrors (some (countedEntry policy (chainLength policy.failureWindowMs (a :: rest)) a))
        ⟨a :: rest, none⟩ now
  | gone {counted : List ℤ} {now : ℤ} (h0 : 0 ≤ now)
      (hc : ∀ a ∈ counted.head?, a + policy.failureWindowMs < now) :
      Mirrors none ⟨counted, none⟩ now

variable {policy} {key : LoginKey} {s : Reference} {now u : ℤ}

theorem mirrors_mono (h : Mirrors policy key s now) (hu : now ≤ u) : Mirrors policy key s u := by
  cases h with
  | locked h0 ht => exact .locked h0 (ht.trans hu)
  | counted h0 ha hc => exact .counted h0 (ha.trans hu) hc
  | gone h0 hc => exact .gone (h0.trans hu) fun a hm => (hc a hm).trans_le hu

/-- What the scripts read at a time, beside the reference state with its lock expired. -/
inductive View (policy : LoginProtectionPolicy) (now : ℤ) : LoginKey → Reference → Prop
  | locked {counted : List ℤ} {t : ℤ} (h0 : 0 ≤ t) (ht : t ≤ now)
      (hd : now < t + policy.lockoutMs) :
      View policy now (some (lockedEntry policy t)) ⟨counted, some t⟩
  | ended {t : ℤ} (h0 : 0 ≤ t) (hd : now = t + policy.lockoutMs) :
      View policy now (some (lockedEntry policy t)) ⟨[], none⟩
  | counted {a : ℤ} {rest : List ℤ} (h0 : 0 ≤ a) (ha : a ≤ now)
      (hw : now ≤ a + policy.failureWindowMs)
      (hc : chainLength policy.failureWindowMs (a :: rest) < policy.failureThreshold) :
      View policy now
        (some (countedEntry policy (chainLength policy.failureWindowMs (a :: rest)) a))
        ⟨a :: rest, none⟩
  | absent {counted : List ℤ} (h0 : 0 ≤ now)
      (hc : ∀ a ∈ counted.head?, a + policy.failureWindowMs < now) :
      View policy now none ⟨counted, none⟩

theorem live_lockedEntry {t : ℤ} (hd : now ≤ t + policy.lockoutMs) :
    Redis.Key.live now (some (lockedEntry policy t)) = some (lockedEntry policy t) :=
  Redis.Key.live_some_of_le hd

theorem live_countedEntry {c a : ℤ} (hw : now ≤ a + policy.failureWindowMs) :
    Redis.Key.live now (some (countedEntry policy c a)) = some (countedEntry policy c a) :=
  Redis.Key.live_some_of_le hw

theorem expire_of_lt {counted : List ℤ} {t : ℤ} (hd : now < t + policy.lockoutMs) :
    Reference.expire policy ⟨counted, some t⟩ now = ⟨counted, some t⟩ := if_pos hd

theorem expire_of_le {counted : List ℤ} {t : ℤ} (hd : t + policy.lockoutMs ≤ now) :
    Reference.expire policy ⟨counted, some t⟩ now = ⟨[], none⟩ := if_neg hd.not_gt

theorem mirrors_view (h : Mirrors policy key s now) :
    View policy now (key.live now) (s.expire policy now) := by
  cases h with
  | @locked counted t _ h0 ht =>
    rcases lt_trichotomy now (t + policy.lockoutMs) with hd | hd | hd
    · rw [live_lockedEntry hd.le, expire_of_lt hd]
      exact .locked h0 ht hd
    · rw [live_lockedEntry hd.le, expire_of_le hd.ge]
      exact .ended h0 hd
    · rw [lockedEntry, Redis.Key.live_some_of_lt hd, expire_of_le hd.le]
      exact .absent (h0.trans ht) (by simp)
  | @counted a _ rest h0 ha hc =>
    rcases le_or_gt now (a + policy.failureWindowMs) with hw | hw
    · rw [live_countedEntry hw]
      exact .counted h0 ha hw hc
    · rw [countedEntry, Redis.Key.live_some_of_lt hw]
      exact .absent (h0.trans ha) (by simpa using hw)
  | gone h0 hc => exact .absent h0 hc

theorem periods_pos (policy : LoginProtectionPolicy) :
    0 < policy.failureWindowMs ∧ 0 < policy.lockoutMs := by
  have hw := policy.failureWindow_range
  have hd := policy.lockout_range
  unfold LoginProtectionPolicy.failureWindowMs LoginProtectionPolicy.lockoutMs
  omega

@[simp] theorem storedFailures_none : storedFailures none = 0 := rfl

@[simp] theorem storedLockedUntil_none : storedLockedUntil none = 0 := rfl

@[simp] theorem storedFailures_locked (t : ℤ) :
    storedFailures (some (lockedEntry policy t)) = policy.failureThreshold := rfl

@[simp] theorem storedLockedUntil_locked (t : ℤ) :
    storedLockedUntil (some (lockedEntry policy t)) = t + policy.lockoutMs := rfl

@[simp] theorem storedFailures_counted (c a : ℤ) :
    storedFailures (some (countedEntry policy c a)) = c := rfl

@[simp] theorem storedLockedUntil_counted (c a : ℤ) :
    storedLockedUntil (some (countedEntry policy c a)) = 0 := rfl

/-- A failure at `now` extends the chain it can reach and starts a new one otherwise. -/
theorem failureCount_cons (w : ℤ) (counted : List ℤ) (hw : 0 ≤ w) :
    failureCount w (now :: counted) now = failureCount w counted now + 1 := by
  cases counted with
  | nil => simp [failureCount, chainLength, hw]
  | cons a rest => by_cases hg : now - a ≤ w <;> simp [failureCount, chainLength, hw, hg]

theorem checkLock_step (h : Mirrors policy key s now) :
    ((protection policy).step key now .checkLock).1 =
        ((Reference.machine policy).step s now .checkLock).1 ∧
      Mirrors policy ((protection policy).step key now .checkLock).2
        ((Reference.machine policy).step s now .checkLock).2 now := by
  have hv := mirrors_view h
  have h0 : ¬ now < 0 := by cases h <;> omega
  obtain ⟨hw, hd⟩ := periods_pos policy
  simp only [protection, Reference.machine, loginLockStatusScript, if_neg h0]
  generalize key.live now = state at hv ⊢
  generalize s.expire policy now = s' at hv ⊢
  cases hv with
  | @locked counted t ht0 ht hlt =>
    simp only [storedLockedUntil_locked, storedFailures_locked, gt_iff_lt, if_pos hlt]
    exact ⟨rfl, .locked ht0 ht⟩
  | @ended t ht0 heq =>
    have hpos : 0 < t + policy.lockoutMs := by omega
    have hnot : ¬ now < t + policy.lockoutMs := by omega
    simp only [storedLockedUntil_locked, gt_iff_lt, if_neg hnot, if_pos hpos]
    exact ⟨rfl, .gone (by omega) (by simp)⟩
  | @counted a rest ha0 ha hwin hc =>
    simp only [storedLockedUntil_counted, storedFailures_counted, gt_iff_lt, if_neg h0, lt_irrefl,
      if_false]
    refine ⟨?_, .counted ha0 ha hc⟩
    simp [LoginAnswer.of, failureCount, show now - a ≤ policy.failureWindowMs by omega]
  | @absent counted hn0 hc =>
    simp only [storedLockedUntil_none, storedFailures_none, gt_iff_lt, if_neg h0, lt_irrefl,
      if_false]
    refine ⟨?_, .gone hn0 hc⟩
    cases counted with
    | nil => rfl
    | cons a rest =>
      have hgap : ¬ now - a ≤ policy.failureWindowMs := by
        have := hc a rfl
        omega
      simp [LoginAnswer.of, failureCount, hgap]

/-- Where no lock is in force, the count the script reads is the reference count, and the
failure it adds is counted or locks the account. -/
theorem recordFailure_unlocked {state : LoginKey} {counted : List ℤ} {failures : ℤ} (h0 : 0 ≤ now)
    (hf : failures = failureCount policy.failureWindowMs counted now)
    (hbelow : failures < policy.failureThreshold)
    (hfailures : (if storedLockedUntil state > 0 then 0 else storedFailures state) = failures)
    (hunlocked : ¬ storedLockedUntil state > now) (hlive : key.live now = state)
    (hs : s.expire policy now = ⟨counted, none⟩) :
    ((protection policy).step key now .recordFailure).1 =
        ((Reference.machine policy).step s now .recordFailure).1 ∧
      Mirrors policy ((protection policy).step key now .recordFailure).2
        ((Reference.machine policy).step s now .recordFailure).2 now := by
  obtain ⟨hw, hd⟩ := periods_pos policy
  have hn : ¬ policy.failureThreshold ≤ 0 := by have := policy.failureThreshold_range; omega
  have hcount : failureCount policy.failureWindowMs (now :: counted) now = failures + 1 := by
    rw [failureCount_cons _ _ hw.le, hf]
  simp only [protection, Reference.machine, loginFailureScript, if_neg hn, if_neg h0.not_gt,
    if_neg hw.not_ge, if_neg hd.not_ge, hlive, hs, if_neg hunlocked, hfailures, hcount]
  by_cases hreach : failures + 1 = policy.failureThreshold
  · simp only [hreach, ge_iff_le, le_refl, if_true]
    refine ⟨by simp [LoginAnswer.of, Reference.lockedReply], ?_⟩
    exact .locked h0 le_rfl
  · have hmore : ¬ failures + 1 ≥ policy.failureThreshold := by omega
    simp only [if_neg hreach, if_neg hmore]
    refine ⟨rfl, ?_⟩
    have hchain : chainLength policy.failureWindowMs (now :: counted) = failures + 1 := by
      rw [← hcount]
      simp [failureCount, hw.le]
    have hm : Mirrors policy (some (countedEntry policy
        (chainLength policy.failureWindowMs (now :: counted)) now)) ⟨now :: counted, none⟩ now :=
      .counted h0 le_rfl (by rw [hchain]; omega)
    rwa [hchain] at hm

theorem recordFailure_step (h : Mirrors policy key s now) :
    ((protection policy).step key now .recordFailure).1 =
        ((Reference.machine policy).step s now .recordFailure).1 ∧
      Mirrors policy ((protection policy).step key now .recordFailure).2
        ((Reference.machine policy).step s now .recordFailure).2 now := by
  have hv := mirrors_view h
  have h0 : 0 ≤ now := by cases h <;> omega
  have hrange := policy.failureThreshold_range
  obtain ⟨hw, hd⟩ := periods_pos policy
  generalize hlive : key.live now = state at hv
  generalize hs : s.expire policy now = s' at hv
  cases hv with
  | @locked counted t ht0 ht hlt =>
    have hn : ¬ policy.failureThreshold ≤ 0 := by omega
    simp only [protection, Reference.machine, loginFailureScript, if_neg hn, if_neg h0.not_gt,
      if_neg hw.not_ge, if_neg hd.not_ge, hlive, hs, storedLockedUntil_locked,
      storedFailures_locked, gt_iff_lt, if_pos hlt]
    exact ⟨rfl, .locked ht0 ht⟩
  | @ended t ht0 heq =>
    have hpos : t + policy.lockoutMs > 0 := by omega
    have hnot : ¬ t + policy.lockoutMs > now := by omega
    exact recordFailure_unlocked h0 rfl (by simp [failureCount]; omega)
      (by simp [failureCount, hpos]) (by simpa using hnot) hlive hs
  | @counted a rest ha0 ha hwin hc =>
    have hwin' : now - a ≤ policy.failureWindowMs := by omega
    exact recordFailure_unlocked h0 rfl (by simpa [failureCount, hwin'] using hc)
      (by simp [failureCount, hwin']) (by simpa using h0) hlive hs
  | @absent counted hn0 hc =>
    have hzero : failureCount policy.failureWindowMs counted now = 0 := by
      cases counted with
      | nil => rfl
      | cons a rest =>
        have hgap : ¬ now - a ≤ policy.failureWindowMs := by
          have := hc a rfl
          omega
        simp [failureCount, hgap]
    exact recordFailure_unlocked h0 rfl (by omega) (by simp [hzero]) (by simpa using h0) hlive hs

theorem reset_step (h : Mirrors policy key s now) :
    ((protection policy).step key now .reset).1 =
        ((Reference.machine policy).step s now .reset).1 ∧
      Mirrors policy ((protection policy).step key now .reset).2
        ((Reference.machine policy).step s now .reset).2 now := by
  have h0 : 0 ≤ now := by cases h <;> omega
  refine ⟨?_, .gone h0 (by simp)⟩
  simp only [protection, Reference.machine, loginResetScript]
  congr 1
  cases h with
  | @locked counted t _ ht0 ht =>
    rcases le_or_gt now (t + policy.lockoutMs) with hd | hd
    · simp [live_lockedEntry hd, Reference.held, hd]
    · simp [lockedEntry, Redis.Key.live_some_of_lt hd, Reference.held, hd.not_ge]
  | @counted a _ rest ha0 ha hc =>
    rcases le_or_gt now (a + policy.failureWindowMs) with hw | hw
    · simp [live_countedEntry hw, Reference.held, hw]
    · simp [countedEntry, Redis.Key.live_some_of_lt hw, Reference.held, hw.not_ge]
  | @gone counted _ hn hc =>
    cases counted with
    | nil => rfl
    | cons a rest =>
      have hlt := hc a rfl
      simp [Reference.held, hlt]

/-- The key simulates the reference machine. -/
def lockoutSimulation (policy : LoginProtectionPolicy) :
    Timed.Simulation (protection policy) (Reference.machine policy) where
  Rel := Mirrors policy
  mono := mirrors_mono
  step := by
    intro key s t op h
    cases op with
    | recordFailure => exact recordFailure_step h
    | checkLock => exact checkLock_step h
    | reset => exact reset_step h

theorem recordFailure_while_locked (h0 : 0 ≤ now) (hl : now < storedLockedUntil (key.live now)) :
    ((protection policy).step key now .recordFailure).2 = key.live now := by
  obtain ⟨hw, hd⟩ := periods_pos policy
  have hn : ¬ policy.failureThreshold ≤ 0 := by have := policy.failureThreshold_range; omega
  simp only [protection, loginFailureScript, if_neg hn, if_neg h0.not_gt, if_neg hw.not_ge,
    if_neg hd.not_ge, gt_iff_lt, if_pos hl]

/-- Every run answers as the reference machine does, and a failure recorded while the lock is
in force leaves the count, the lock and the deadline of the key as they are. -/
theorem lockout_semantics (policy : LoginProtectionPolicy) (ops : List (ℤ × LoginCall))
    (ho : Timed.Ordered 0 ops) :
    (protection policy).replies none ops = (Reference.machine policy).replies ⟨[], none⟩ ops ∧
    ∀ key now, 0 ≤ now → now < storedLockedUntil (Redis.Key.live now key) →
      ((protection policy).step key now .recordFailure).2 = Redis.Key.live now key := by
  constructor
  · have hstart : Mirrors policy none ⟨[], none⟩ 0 := .gone le_rfl (by simp)
    exact (lockoutSimulation policy).replies_eq hstart ho
  · intro key now h0 hl
    exact recordFailure_while_locked h0 hl

/-- Five failures lock the account for 300 s from the fifth one, and not a millisecond more. -/
theorem lockout_semantics_account :
    (protection accountLoginProtectionPolicy).replies none
        [(0, .recordFailure), (900000, .recordFailure), (900000, .recordFailure),
          (900001, .recordFailure), (1000000, .checkLock), (1800001, .recordFailure),
          (1900000, .recordFailure), (2100000, .checkLock), (2100001, .checkLock)] =
      [.reply ⟨0, 1, 0⟩, .reply ⟨0, 2, 0⟩, .reply ⟨0, 3, 0⟩, .reply ⟨0, 4, 0⟩,
        .reply ⟨0, 4, 0⟩, .reply ⟨1, 5, 300000⟩, .reply ⟨1, 5, 200001⟩, .reply ⟨1, 5, 1⟩,
        .reply ⟨0, 0, 0⟩] := by
  rw [(lockout_semantics accountLoginProtectionPolicy _ (by unfold Timed.Ordered; decide)).1]
  decide

end SecureGateway.Login
