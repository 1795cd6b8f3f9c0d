import SecureGateway.Login.Lockout

/-!
# Looking at a lock

`check_lock` deletes the key of an expired lock, so it does write. What the scripts take from
a key is a count and the end of a lock that is in force; a call of `check_lock` leaves that
reading as it is, at its own time and at every later one.
-/
namespace SecureGateway.Login

variable {policy : LoginProtectionPolicy} {key key' : LoginKey} {now u : ℤ}

/-- What the status and the failure script work with once an expired lock is set aside. -/
structure Reading where
  failures : ℤ
  lockedUntil : Option ℤ
  deriving DecidableEq, Repr

def reading (key : LoginKey) (now : ℤ) : Reading :=
  let state := key.live now
  if storedLockedUntil state > now then ⟨storedFailures state, some (storedLockedUntil state)⟩
  else if storedLockedUntil state > 0 then ⟨0, none⟩
  else ⟨storedFailures state, none⟩

/-- The answer of `check_lock` for a reading. -/
def statusAnswer (r : Reading) (now : ℤ) : LoginReply :=
  match r.lockedUntil with
  | some lockedUntil => ⟨1, r.failures, lockedUntil - now⟩
  | none => ⟨0, r.failures, 0⟩

/-- The answer of `record_failure` for a reading. -/
def failureAnswer (policy : LoginProtectionPolicy) (r : Reading) (now : ℤ) : LoginReply :=
  match r.lockedUntil with
  | some lockedUntil => ⟨1, r.failures, lockedUntil - now⟩
  | none =>
    if r.failures + 1 ≥ policy.failureThreshold then ⟨1, r.failures + 1, policy.lockoutMs⟩
    else ⟨0, r.failures + 1, 0⟩

/-- The key that `record_failure` leaves where no lock is in force. -/
def countedKey (policy : LoginProtectionPolicy) (failures now : ℤ) : LoginKey :=
  if failures + 1 ≥ policy.failureThreshold then
    some ⟨⟨some (failures + 1), some (now + policy.lockoutMs)⟩, some (now + policy.lockoutMs)⟩
  else some ⟨⟨some (failures + 1), none⟩, some (now + policy.failureWindowMs)⟩

theorem reading_live (hu : now ≤ u) : reading (key.live now) u = reading key u := by
  simp only [reading, Redis.Key.live_live hu]

theorem reading_none (h0 : 0 ≤ now) : reading none now = ⟨0, none⟩ := by
  simp [reading, h0]

/-- An expired lock reads as an absent key from then on. -/
theorem reading_expired (hpos : 0 < storedLockedUntil (key.live now))
    (hexpired : storedLockedUntil (key.live now) ≤ now) (hu : now ≤ u) :
    reading key u = ⟨0, none⟩ := by
  have hu0 : 0 ≤ u := by omega
  rw [← reading_live hu]
  rcases Redis.Key.live_eq_or_none u (key.live now) with hlive | hgone
  · have hover : ¬ storedLockedUntil (key.live now) > u := by omega
    simp only [reading, hlive, if_neg hover, gt_iff_lt, if_pos hpos]
  · have habsent : ¬ (0 : ℤ) > u := by omega
    simp only [reading, hgone, storedLockedUntil_none, storedFailures_none, if_neg habsent,
      gt_iff_lt, lt_irrefl, if_false]

/-- `check_lock` answers from the reading. -/
theorem checkLock_answer (h0 : 0 ≤ now) :
    ((protection policy).step key now .checkLock).1 =
      .reply (statusAnswer (reading key now) now) := by
  simp only [protection, loginLockStatusScript, if_neg h0.not_gt, reading]
  split
  · rfl
  · split <;> rfl

/-- `check_lock` leaves every later reading as it was. -/
theorem reading_checkLock (policy : LoginProtectionPolicy) (key : LoginKey) (h0 : 0 ≤ now)
    (hu : now ≤ u) :
    reading ((protection policy).step key now .checkLock).2 u = reading key u := by
  simp only [protection, loginLockStatusScript, if_neg h0.not_gt]
  split
  · exact reading_live hu
  · next hunlocked =>
    split
    · next hpos =>
      rw [reading_expired hpos (not_lt.mp hunlocked) hu]
      exact reading_none (by omega)
    · exact reading_live hu

/-- `record_failure` answers from the reading. Under a lock it leaves the key; otherwise the
reading decides what it writes. -/
theorem recordFailure_reads (h0 : 0 ≤ now) :
    (protection policy).step key now .recordFailure =
      (.reply (failureAnswer policy (reading key now) now),
        if (reading key now).lockedUntil.isSome then key.live now
        else countedKey policy (reading key now).failures now) := by
  obtain ⟨hw, hd⟩ := periods_pos policy
  have hn : ¬ policy.failureThreshold ≤ 0 := by have := policy.failureThreshold_range; omega
  simp only [protection, loginFailureScript, if_neg hn, if_neg h0.not_gt, if_neg hw.not_ge,
    if_neg hd.not_ge, reading]
  by_cases hlocked : storedLockedUntil (key.live now) > now
  · simp only [if_pos hlocked]
    rfl
  · by_cases hpos : storedLockedUntil (key.live now) > 0
    · simp only [if_neg hlocked, if_pos hpos, failureAnswer, countedKey]
      split <;> rfl
    · simp only [if_neg hlocked, if_neg hpos, failureAnswer, countedKey]
      split <;> rfl

theorem recordFailure_answer (h0 : 0 ≤ now) :
    ((protection policy).step key now .recordFailure).1 =
      .reply (failureAnswer policy (reading key now) now) :=
  congrArg Prod.fst (recordFailure_reads h0)

theorem recordFailure_key (h0 : 0 ≤ now) :
    ((protection policy).step key now .recordFailure).2 =
      if (reading key now).lockedUntil.isSome then key.live now
      else countedKey policy (reading key now).failures now :=
  congrArg Prod.snd (recordFailure_reads h0)

/-- The flag of a reset tells whether there was a key, which a look at an expired lock may
have deleted. -/
def LoginAnswer.masked : LoginAnswer → LoginAnswer
  | .deleted _ => .deleted false
  | answer => answer

/-- Two keys with the same readings from `t` on. -/
def SameReadings (key key' : LoginKey) (t : ℤ) : Prop :=
  0 ≤ t ∧ ∀ u, t ≤ u → reading key u = reading key' u

theorem sameReadings_recordFailure (policy : LoginProtectionPolicy)
    (h : SameReadings key key' now) :
    ((protection policy).step key now .recordFailure).1 =
        ((protection policy).step key' now .recordFailure).1 ∧
      SameReadings ((protection policy).step key now .recordFailure).2
        ((protection policy).step key' now .recordFailure).2 now := by
  obtain ⟨h0, hsame⟩ := h
  have hnow := hsame now le_rfl
  refine ⟨by rw [recordFailure_answer h0, recordFailure_answer h0, hnow], h0, ?_⟩
  intro u hu
  rw [recordFailure_key h0, recordFailure_key h0, hnow]
  split
  · rw [reading_live hu, reading_live hu]
    exact hsame u hu
  · rfl

theorem sameReadings_checkLock (h : SameReadings key key' now) :
    SameReadings ((protection policy).step key now .checkLock).2 key' now := by
  obtain ⟨h0, hsame⟩ := h
  refine ⟨h0, ?_⟩
  intro u hu
  rw [reading_checkLock policy key h0 hu]
  exact hsame u hu

theorem SameReadings.symm (h : SameReadings key key' now) : SameReadings key' key now :=
  ⟨h.1, fun u hu => (h.2 u hu).symm⟩

/-- No call tells two keys with the same readings apart, and `check_lock` keeps the readings. -/
def lockObservation (policy : LoginProtectionPolicy) :
    Timed.Indistinct (protection policy) LoginAnswer.masked (· = .checkLock) where
  Rel := SameReadings
  mono := by
    rintro key key' t u ⟨h0, hsame⟩ htu
    exact ⟨h0.trans htu, fun v hv => hsame v (htu.trans hv)⟩
  step := by
    intro key key' t op h
    cases op with
    | recordFailure =>
      obtain ⟨hanswer, hnext⟩ := sameReadings_recordFailure policy h
      exact ⟨congrArg LoginAnswer.masked hanswer, hnext⟩
    | checkLock =>
      refine ⟨?_, (sameReadings_checkLock (sameReadings_checkLock h).symm).symm⟩
      rw [checkLock_answer h.1, checkLock_answer h.1, h.2 t le_rfl]
    | reset => exact ⟨rfl, h.1, fun u hu => rfl⟩
  skip := by
    rintro key key' t op rfl h
    exact sameReadings_checkLock h

/-- `check_lock` right before `record_failure`: a lock is reported exactly when it refuses the
failure, with the remaining time; otherwise the count is the one before the failure. -/
def Agrees (policy : LoginProtectionPolicy) (key : LoginKey) (now : ℤ) : Prop :=
  ∃ status failure looked recorded,
    (protection policy).step key now .checkLock = (.reply status, looked) ∧
    (protection policy).step looked now .recordFailure = (.reply failure, recorded) ∧
    (status.locked = 1 ↔ storedLockedUntil (looked.live now) > now) ∧
    (status.locked = 1 → failure = status) ∧
    (status.locked ≠ 1 → status.failures + 1 = failure.failures)

theorem reading_locked_iff :
    (reading key now).lockedUntil.isSome ↔ storedLockedUntil (key.live now) > now := by
  simp only [reading]
  split
  · next hlocked => exact ⟨fun _ => hlocked, fun _ => rfl⟩
  · next hunlocked =>
    split
    · exact ⟨fun h => absurd h Bool.false_ne_true, fun h => (hunlocked h).elim⟩
    · exact ⟨fun h => absurd h Bool.false_ne_true, fun h => (hunlocked h).elim⟩

theorem agrees (policy : LoginProtectionPolicy) (key : LoginKey) (h0 : 0 ≤ now) :
    Agrees policy key now := by
  have hkeep := reading_checkLock policy key h0 le_rfl
  refine ⟨statusAnswer (reading key now) now, failureAnswer policy (reading key now) now, _, _,
    Prod.ext (checkLock_answer h0) rfl, Prod.ext ?_ rfl, ?_, ?_, ?_⟩
  · rw [recordFailure_answer h0, hkeep]
  · rw [← reading_locked_iff, hkeep]
    cases hlock : (reading key now).lockedUntil with
    | none => simp [statusAnswer, hlock]
    | some lockedUntil => simp [statusAnswer, hlock]
  · cases hlock : (reading key now).lockedUntil with
    | none => simp [statusAnswer, hlock]
    | some lockedUntil => simp [statusAnswer, failureAnswer, hlock]
  · cases hlock : (reading key now).lockedUntil with
    | none =>
      intro _
      simp only [statusAnswer, failureAnswer, hlock]
      split <;> rfl
    | some lockedUntil => simp [statusAnswer, hlock]

/-- Two runs that differ in calls of `check_lock` only answer every other call alike, the flag
of a reset apart; and at every time, on every key, a look agrees with the failure that
follows it. -/
theorem checkLock_observes (policy : LoginProtectionPolicy) :
    (∀ calls calls' : Timed.Marked LoginCall,
      Timed.Ordered 0 calls.all → Timed.Ordered 0 calls'.all →
      (∀ c ∈ calls, c.2 = false → c.1.2 = .checkLock) →
      (∀ c ∈ calls', c.2 = false → c.1.2 = .checkLock) →
      calls.kept = calls'.kept →
      ((protection policy).repliesKept none calls).map LoginAnswer.masked =
        ((protection policy).repliesKept none calls').map LoginAnswer.masked) ∧
    ∀ (key : LoginKey) (now : ℤ), 0 ≤ now → Agrees policy key now := by
  constructor
  · intro calls calls' ho ho' hextra hextra' hkept
    have hstart : SameReadings none none 0 := ⟨le_rfl, fun u _ => rfl⟩
    calc ((protection policy).repliesKept none calls).map LoginAnswer.masked
        = ((protection policy).replies none calls.kept).map LoginAnswer.masked :=
          (lockObservation policy).repliesKept_eq hstart ho hextra
      _ = ((protection policy).replies none calls'.kept).map LoginAnswer.masked := by rw [hkept]
      _ = ((protection policy).repliesKept none calls').map LoginAnswer.masked :=
          ((lockObservation policy).repliesKept_eq hstart ho' hextra').symm
  · intro key now h0
    exact agrees policy key h0

/-- Five failures lock the account; a look at the very end of the lock deletes the key, and
only the flag of the reset that follows shows it. -/
theorem checkLock_observes_account :
    ((protection accountLoginProtectionPolicy).repliesKept none
        (List.replicate 5 ((0, .recordFailure), true) ++ [((300000, .checkLock), false),
          ((300000, .reset), true), ((300001, .recordFailure), true)])).map LoginAnswer.masked =
      ((protection accountLoginProtectionPolicy).repliesKept none
        (List.replicate 5 ((0, .recordFailure), true) ++ [((300000, .reset), true),
          ((300001, .recordFailure), true)])).map LoginAnswer.masked ∧
    Agrees accountLoginProtectionPolicy (some (lockedEntry accountLoginProtectionPolicy 0))
      299999 := by
  constructor
  · refine (checkLock_observes accountLoginProtectionPolicy).1 _ _ ?_ ?_ ?_ ?_ rfl
    · unfold Timed.Ordered
      decide
    · unfold Timed.Ordered
      decide
    · decide
    · decide
  · exact (checkLock_observes accountLoginProtectionPolicy).2 _ _ (by decide)

end SecureGateway.Login
