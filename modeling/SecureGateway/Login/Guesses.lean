import SecureGateway.Foundation.Spacing
import SecureGateway.Login.Observation

/-!
# How many guesses an account allows

A recorded failure counts unless a lock is in force. Between two resets any
`failure_threshold + 1` counted failures in a row span a whole lockout or more than the failure
window, so the guesses that an account allows are bounded over every stretch of time.
-/
namespace SecureGateway.Login

variable {policy : LoginProtectionPolicy} {key : LoginKey} {now t u : ℤ} {log : List ℤ}
  {ops : List (ℤ × LoginCall)}

/-- The failures that a run counts, with a new list at every reset. -/
def countedFailures (policy : LoginProtectionPolicy) :
    LoginKey → List (ℤ × LoginCall) → List (List ℤ)
  | _, [] => [[]]
  | key, (now, op) :: ops =>
    let rest := countedFailures policy ((protection policy).step key now op).2 ops
    match op with
    | .checkLock => rest
    | .reset => [] :: rest
    | .recordFailure =>
      if (reading key now).lockedUntil.isSome then rest else rest.modifyHead (now :: ·)

/-- The time in which an account allows `failure_threshold` guesses. -/
def guessPeriodMs (policy : LoginProtectionPolicy) : ℤ :=
  min policy.lockoutMs (policy.failureWindowMs + 1)

/-- How the key remembers the failures counted since the last reset, newest first: those it no
longer counts lie a whole period back. -/
structure Remembers (policy : LoginProtectionPolicy) (key : LoginKey) (log : List ℤ) (t : ℤ) :
    Prop where
  time_nonneg : 0 ≤ t
  past : ∀ a ∈ log, a ≤ t
  spaced : Spacing.Spaced policy.failureThreshold.toNat (guessPeriodMs policy) log
  reads : ∀ u, t ≤ u → (reading key u).lockedUntil = none →
    0 ≤ (reading key u).failures ∧ (reading key u).failures < policy.failureThreshold ∧
      ∀ (j : ℕ) (b : ℤ), (reading key u).failures ≤ j → log[j]? = some b →
        b + guessPeriodMs policy ≤ u

theorem remembers_mono (h : Remembers policy key log t) (htu : t ≤ u) :
    Remembers policy key log u :=
  ⟨h.time_nonneg.trans htu, fun a ha => (h.past a ha).trans htu, h.spaced,
    fun v hv => h.reads v (htu.trans hv)⟩

theorem guessPeriodMs_pos (policy : LoginProtectionPolicy) : 0 < guessPeriodMs policy := by
  obtain ⟨hw, hd⟩ := periods_pos policy
  unfold guessPeriodMs
  omega

theorem remembers_none (h0 : 0 ≤ t) : Remembers policy none [] t := by
  refine ⟨h0, by simp, Spacing.spaced_nil, fun u hu _ => ?_⟩
  have hrange := policy.failureThreshold_range
  rw [reading_none (by omega)]
  exact ⟨le_rfl, by simp only; omega, by simp⟩

theorem remembers_congr {key' : LoginKey} (h : Remembers policy key log t)
    (hread : ∀ u, t ≤ u → reading key' u = reading key u) : Remembers policy key' log t := by
  refine ⟨h.time_nonneg, h.past, h.spaced, fun u hu hl => ?_⟩
  rw [hread u hu] at hl ⊢
  exact h.reads u hu hl

/-- The key of a failure that locks the account. -/
theorem reading_locking (h0 : 0 ≤ now) {failures : ℤ}
    (hlock : failures + 1 ≥ policy.failureThreshold) :
    reading (countedKey policy failures now) u =
      if u < now + policy.lockoutMs then ⟨failures + 1, some (now + policy.lockoutMs)⟩
      else ⟨0, none⟩ := by
  obtain ⟨hw, hd⟩ := periods_pos policy
  rw [countedKey, if_pos hlock]
  rcases le_or_gt u (now + policy.lockoutMs) with hu | hu
  · simp only [reading, Redis.Key.live_some_of_le hu]
    have hpos : now + policy.lockoutMs > 0 := by omega
    by_cases hlt : u < now + policy.lockoutMs
    · simp [storedLockedUntil, storedFailures, hlt]
    · simp [storedLockedUntil, hlt, hpos]
  · have hnot : ¬ u < now + policy.lockoutMs := by omega
    have hnonneg : 0 ≤ u := by omega
    simp [reading, Redis.Key.live_some_of_lt hu, hnot, hnonneg]

/-- The key of a failure that does not. -/
theorem reading_counted (h0 : 0 ≤ now) (hu : now ≤ u) {failures : ℤ}
    (hcount : ¬ failures + 1 ≥ policy.failureThreshold) :
    reading (countedKey policy failures now) u =
      if u ≤ now + policy.failureWindowMs then ⟨failures + 1, none⟩ else ⟨0, none⟩ := by
  have hnonneg : 0 ≤ u := by omega
  rw [countedKey, if_neg hcount]
  rcases le_or_gt u (now + policy.failureWindowMs) with hwin | hwin
  · simp [reading, Redis.Key.live_some_of_le hwin, storedLockedUntil, storedFailures, hwin,
      hnonneg]
  · have hnot : ¬ u ≤ now + policy.failureWindowMs := by omega
    simp [reading, Redis.Key.live_some_of_lt hwin, hnot, hnonneg]

/-- A counted failure lies a period after the one that its window or lock has outlived. -/
theorem remembers_counted (h : Remembers policy key log now)
    (hunlocked : (reading key now).lockedUntil = none) :
    Remembers policy (countedKey policy (reading key now).failures now) (now :: log) now := by
  obtain ⟨h0, hbelow, hpast⟩ := h.reads now le_rfl hunlocked
  have hnow := h.time_nonneg
  have hrange := policy.failureThreshold_range
  obtain ⟨hw, hd⟩ := periods_pos policy
  have hperiod : guessPeriodMs policy ≤ policy.lockoutMs ∧
      guessPeriodMs policy ≤ policy.failureWindowMs + 1 := by
    unfold guessPeriodMs
    omega
  have hall : ∀ a ∈ now :: log, a ≤ now := by simpa using h.past
  have hbefore : ∀ {j : ℕ} {b : ℤ}, (now :: log)[j]? = some b → b ≤ now :=
    fun hb => hall _ (List.mem_of_getElem? hb)
  generalize (reading key now).failures = failures at h0 hbelow hpast ⊢
  refine ⟨hnow, hall, Spacing.spaced_cons (by omega) (fun b hb => ?_) h.spaced, ?_⟩
  · exact hpast _ b (by omega) hb
  · intro u hu hl
    by_cases hlock : failures + 1 ≥ policy.failureThreshold
    · rw [reading_locking hnow hlock] at hl ⊢
      split at hl
      · cases hl
      · next hover =>
        rw [if_neg hover]
        refine ⟨le_rfl, by simp only; omega, fun j b _ hb => ?_⟩
        have := hbefore hb
        omega
    · rw [reading_counted hnow hu hlock]
      split
      · refine ⟨by simp only; omega, by simp only; omega, fun j b hj hb => ?_⟩
        cases j with
        | zero =>
          simp only at hj
          omega
        | succ j =>
          rw [List.getElem?_cons_succ] at hb
          simp only at hj
          have := hpast j b (by omega) hb
          omega
      · next hover =>
        refine ⟨le_rfl, by simp only; omega, fun j b _ hb => ?_⟩
        have := hbefore hb
        omega

/-- The log that a call leaves. -/
def logAfter (key : LoginKey) (log : List ℤ) (now : ℤ) : LoginCall → List ℤ
  | .checkLock => log
  | .reset => []
  | .recordFailure => if (reading key now).lockedUntil.isSome then log else now :: log

theorem remembers_step (h : Remembers policy key log now) (op : LoginCall) :
    Remembers policy ((protection policy).step key now op).2 (logAfter key log now op) now := by
  cases op with
  | checkLock =>
    exact remembers_congr h fun u hu => reading_checkLock policy key h.time_nonneg hu
  | reset => exact remembers_none h.time_nonneg
  | recordFailure =>
    rw [recordFailure_key h.time_nonneg, logAfter]
    by_cases hl : (reading key now).lockedUntil.isSome
    · rw [if_pos hl, if_pos hl]
      exact remembers_congr h fun u hu => reading_live hu
    · rw [if_neg hl, if_neg hl]
      exact remembers_counted h (by simpa using hl)

/-- The newest list continues the log that the key remembers. -/
theorem countedFailures_spaced (h : Remembers policy key log t) (ho : Timed.Ordered t ops) :
    ∃ newest later, countedFailures policy key ops = newest :: later ∧
      Spacing.Spaced policy.failureThreshold.toNat (guessPeriodMs policy)
        (newest.reverse ++ log) ∧
      ∀ list ∈ later, Spacing.Spaced policy.failureThreshold.toNat (guessPeriodMs policy)
        list.reverse := by
  induction ops generalizing key log t with
  | nil => exact ⟨[], [], rfl, by simpa using h.spaced, by simp⟩
  | cons c ops ih =>
    obtain ⟨now, op⟩ := c
    obtain ⟨htn, ho⟩ := ho.cons
    obtain ⟨newest, later, heq, hnewest, hlater⟩ :=
      ih (remembers_step (remembers_mono h htn) op) ho
    cases op with
    | checkLock => exact ⟨newest, later, heq, hnewest, hlater⟩
    | reset =>
      refine ⟨[], newest :: later, congrArg (List.cons []) heq, by simpa using h.spaced, ?_⟩
      intro list hl
      rcases List.mem_cons.mp hl with rfl | hl
      · exact hnewest.left
      · exact hlater list hl
    | recordFailure =>
      simp only [countedFailures, logAfter, heq] at hnewest ⊢
      by_cases hl : (reading key now).lockedUntil.isSome
      · rw [if_pos hl] at hnewest ⊢
        exact ⟨newest, later, rfl, hnewest, hlater⟩
      · rw [if_neg hl] at hnewest ⊢
        refine ⟨now :: newest, later, rfl, ?_, hlater⟩
        simpa using hnewest

theorem countedFailures_consecutive {hi : ℤ} (ho : Timed.Ordered t ops) (hspan : t ≤ hi)
    (hhi : ∀ c ∈ ops, c.1 ≤ hi) :
    Spacing.Consecutive t hi ((countedFailures policy key ops).map List.reverse) := by
  induction ops generalizing key t with
  | nil => exact ⟨t, le_rfl, by simp, hspan⟩
  | cons c ops ih =>
    obtain ⟨now, op⟩ := c
    obtain ⟨htn, ho⟩ := ho.cons
    have hnow : now ≤ hi := hhi _ List.mem_cons_self
    have hrest : Spacing.Consecutive now hi
        ((countedFailures policy ((protection policy).step key now op).2 ops).map List.reverse) :=
      ih ho hnow fun c hc => hhi c (List.mem_cons_of_mem _ hc)
    cases op with
    | checkLock => exact hrest.weaken htn
    | reset => exact ⟨now, htn, by simp, hrest⟩
    | recordFailure =>
      simp only [countedFailures]
      split
      · exact hrest.weaken htn
      · cases hlists : countedFailures policy
            ((protection policy).step key now .recordFailure).2 ops with
        | nil => exact htn.trans hnow
        | cons newest later =>
          rw [hlists] at hrest
          obtain ⟨cut, hle, hnewest, hlater⟩ := hrest
          refine ⟨cut, htn.trans hle, ?_, hlater⟩
          intro a ha
          rcases List.mem_cons.mp (List.mem_reverse.mp ha) with rfl | ha
          · exact ⟨htn, hle⟩
          · have := hnewest a (List.mem_reverse.mpr ha)
            exact ⟨htn.trans this.1, this.2⟩

def resets (ops : List (ℤ × LoginCall)) : ℕ := ops.countP fun c => c.2 = .reset

theorem length_countedFailures (policy : LoginProtectionPolicy) (key : LoginKey)
    (ops : List (ℤ × LoginCall)) :
    (countedFailures policy key ops).length = resets ops + 1 := by
  induction ops generalizing key with
  | nil => rfl
  | cons c ops ih =>
    obtain ⟨now, op⟩ := c
    cases op with
    | checkLock => simpa [countedFailures, resets] using ih _
    | reset => simpa [countedFailures, resets] using ih _
    | recordFailure =>
      simp only [countedFailures]
      split
      · simpa [resets] using ih _
      · simpa [resets] using ih _

/-- The key after a run. -/
def keyAfter (policy : LoginProtectionPolicy) (key : LoginKey) (ops : List (ℤ × LoginCall)) :
    LoginKey := ops.foldl (fun key c => ((protection policy).step key c.1 c.2).2) key

theorem remembers_run (h : Remembers policy key log t) (ho : Timed.Ordered t ops) :
    ∃ log' t', Remembers policy (keyAfter policy key ops) log' t' ∧
      ∀ u, t ≤ u → (∀ c ∈ ops, c.1 ≤ u) → t' ≤ u := by
  induction ops generalizing key log t with
  | nil => exact ⟨log, t, h, fun u hu _ => hu⟩
  | cons c ops ih =>
    obtain ⟨htn, ho⟩ := ho.cons
    obtain ⟨log', t', h', hle⟩ := ih (remembers_step (remembers_mono h htn) c.2) ho
    refine ⟨log', t', h', fun u _ hu => hle u (hu c List.mem_cons_self) fun c' hc => ?_⟩
    exact hu c' (List.mem_cons_of_mem _ hc)

/-- In every stretch of time of every run an account allows at most `failure_threshold` guesses
for each period begun and for each reset. -/
theorem guesses_bounded (policy : LoginProtectionPolicy) (before ops : List (ℤ × LoginCall))
    (lo hi : ℤ) (ho : Timed.Ordered 0 (before ++ ops)) (hspan : lo ≤ hi)
    (hwithin : ∀ c ∈ ops, lo ≤ c.1 ∧ c.1 ≤ hi) :
    (((countedFailures policy (keyAfter policy none before) ops).map List.length).sum : ℤ) ≤
      policy.failureThreshold * ((hi - lo) / guessPeriodMs policy + resets ops + 1) := by
  obtain ⟨hnonneg, htimes⟩ := List.pairwise_cons.mp ho
  rw [List.map_append, List.pairwise_append] at htimes
  obtain ⟨hbefore, hops, hcross⟩ := htimes
  have hfrom : ∀ t, (∀ c ∈ ops, t ≤ c.1) → Timed.Ordered t ops := by
    intro t ht
    refine List.pairwise_cons.mpr ⟨fun u hu => ?_, hops⟩
    obtain ⟨c, hc, rfl⟩ := List.mem_map.mp hu
    exact ht c hc
  have hstart : Timed.Ordered 0 before :=
    List.pairwise_cons.mpr ⟨fun u hu => hnonneg u (by simp_all), hbefore⟩
  have hnone : Remembers policy none [] 0 := remembers_none le_rfl
  obtain ⟨log, t, hremembers, hle⟩ := remembers_run hnone hstart
  have ht : ∀ c ∈ ops, t ≤ c.1 := by
    intro c hc
    refine hle c.1 (hnonneg _ (by simp [List.mem_map_of_mem hc])) fun b hb => ?_
    exact hcross _ (List.mem_map_of_mem hb) _ (List.mem_map_of_mem hc)
  obtain ⟨newest, later, heq, hnewest, hlater⟩ := countedFailures_spaced hremembers (hfrom t ht)
  have hconsecutive : Spacing.Consecutive lo hi
      ((countedFailures policy (keyAfter policy none before) ops).map List.reverse) :=
    countedFailures_consecutive (hfrom lo fun c hc => (hwithin c hc).1) hspan
      fun c hc => (hwithin c hc).2
  have hbound := Spacing.sum_length_le (guessPeriodMs_pos policy) hconsecutive
    (n := policy.failureThreshold.toNat) ?_
  · have hlengths : List.length ∘ List.reverse = (List.length : List ℤ → ℕ) := by
      funext list
      exact List.length_reverse
    have hthreshold : ((policy.failureThreshold.toNat : ℕ) : ℤ) = policy.failureThreshold := by
      have := policy.failureThreshold_range
      omega
    rw [List.map_map, hlengths, List.length_map, length_countedFailures, hthreshold] at hbound
    push_cast at hbound ⊢
    linarith
  · intro log' hlog'
    rw [heq, List.map_cons] at hlog'
    rcases List.mem_cons.mp hlog' with rfl | hlog'
    · exact hnewest.left
    · obtain ⟨list, hlist, rfl⟩ := List.mem_map.mp hlog'
      exact hlater list hlist

/-- Seven guesses within five minutes. -/
def sevenGuesses : List (ℤ × LoginCall) :=
  [(900000, .recordFailure), (900001, .recordFailure), (1000000, .recordFailure),
    (1000000, .recordFailure), (1000000, .recordFailure), (1199999, .recordFailure),
    (1199999, .recordFailure)]

theorem guesses_bounded_account :
    Timed.Ordered 0 ([(0, .recordFailure)] ++ sevenGuesses) ∧
      (((countedFailures accountLoginProtectionPolicy
          (keyAfter accountLoginProtectionPolicy none [(0, .recordFailure)])
          sevenGuesses).map List.length).sum : ℤ) ≤ 5 * (299999 / 300000 + 0 + 1) := by
  have ho : Timed.Ordered 0 ([(0, LoginCall.recordFailure)] ++ sevenGuesses) := by
    unfold Timed.Ordered
    decide
  exact ⟨ho, guesses_bounded accountLoginProtectionPolicy [(0, .recordFailure)] sevenGuesses
    900000 1199999 ho (by omega) (by decide)⟩

end SecureGateway.Login
