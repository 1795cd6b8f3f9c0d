import SecureGateway.Foundation.Binary64

/-!
# Delays in seconds

`math.ceil(ms / 1000)`, where the quotient is a double: for which delays it is the ceiling of
the quotient itself.
-/
namespace SecureGateway.RateLimit

/-- Rounding keeps the ceiling of a delay: its seconds leave room for the milliseconds, or the
next whole second is a double. -/
def CeilingKept (ms : ℕ) : Prop :=
  let seconds := ms / 1000
  let rest := ms % 1000
  let bits := Nat.log 2 seconds
  if seconds < 2 ^ 53 then
    rest = 0 ∨ 1000 * 2 ^ bits < rest * 2 ^ 53 ∨ rest = 500 ∧ 2 ^ 52 ≤ seconds ∧ Odd seconds
  else 2 ^ (bits - 52) ∣ seconds + if rest = 0 then 0 else 1

section Split

variable {s r : ℕ}

theorem rest_lt (h : r < 1000) : (r : ℚ) / 1000 < 1 := by
  rw [div_lt_one (by norm_num)]
  exact_mod_cast h

theorem floor_delay (h : r < 1000) : ⌊(s : ℚ) + r / 1000⌋ = s := by
  have hlt := rest_lt h
  have hnonneg : (0 : ℚ) ≤ (r : ℚ) / 1000 := by positivity
  rw [Int.floor_eq_iff]
  push_cast
  constructor <;> linarith

theorem ceil_delay (h : r < 1000) :
    ⌈(s : ℚ) + r / 1000⌉ = ((s + if r = 0 then 0 else 1 : ℕ) : ℤ) := by
  have hlt := rest_lt h
  rw [Int.ceil_eq_iff]
  split
  · next h0 =>
    rw [h0]
    push_cast
    constructor <;> linarith
  · next h0 =>
    have hpos : (0 : ℚ) < (r : ℚ) / 1000 := by
      have : (0 : ℚ) < r := by exact_mod_cast Nat.pos_of_ne_zero h0
      positivity
    push_cast
    constructor <;> linarith

theorem exponent_delay (hs : s ≠ 0) (h : r < 1000) :
    Binary64.exponent ((s : ℚ) + r / 1000) = Nat.log 2 s - 52 := by
  have hlt := rest_lt h
  have hnonneg : (0 : ℚ) ≤ (r : ℚ) / 1000 := by positivity
  have hlow : (2 : ℚ) ^ Nat.log 2 s ≤ s := by exact_mod_cast Nat.pow_log_le_self 2 hs
  have hhigh : (s : ℚ) + 1 ≤ 2 ^ (Nat.log 2 s + 1) := by
    exact_mod_cast Nat.lt_pow_succ_log_self one_lt_two s
  exact Binary64.exponent_of_pow_le (by linarith) (by linarith)

/-- Less than a second: the last place is far smaller than a millisecond. -/
theorem ceil_round_short (h0 : r ≠ 0) (h : r < 1000) :
    ⌈Binary64.round ((r : ℚ) / 1000)⌉ = ⌈(r : ℚ) / 1000⌉ := by
  have hlt := rest_lt h
  have hone : (1 : ℚ) ≤ r := by exact_mod_cast Nat.one_le_iff_ne_zero.mpr h0
  have hpos : (0 : ℚ) < (r : ℚ) / 1000 := by positivity
  have hceil : ⌈(r : ℚ) / 1000⌉ = 1 := by
    rw [Int.ceil_eq_iff]
    push_cast
    constructor <;> linarith
  have hround : 0 < Binary64.round ((r : ℚ) / 1000) := by
    apply Binary64.round_pos
    calc (2 : ℚ) ^ (-1022 : ℤ) ≤ 2 ^ (-10 : ℤ) := zpow_le_zpow_right₀ one_le_two (by decide)
      _ ≤ (r : ℚ) / 1000 := by
        rw [le_div_iff₀ (by norm_num)]
        norm_num
        linarith
  have hle : Binary64.round ((r : ℚ) / 1000) ≤ 1 := by
    have hpow := Binary64.round_le_pow (k := 0) hpos.le (by simpa using hlt.le)
    simpa using hpow
  rw [hceil, Int.ceil_eq_iff]
  push_cast
  constructor <;> linarith

/-- Fewer than `2 ^ 53` seconds: what is lost is lost at the whole second below. -/
theorem ceil_round_fine (hs : s ≠ 0) (hs' : s < 2 ^ 53) (h : r < 1000) :
    ⌈Binary64.round ((s : ℚ) + r / 1000)⌉ = ⌈(s : ℚ) + r / 1000⌉ ↔
      r = 0 ∨ 1000 * 2 ^ Nat.log 2 s < r * 2 ^ 53 ∨ r = 500 ∧ 2 ^ 52 ≤ s ∧ Odd s := by
  have hbits : Nat.log 2 s ≤ 52 := Nat.lt_succ_iff.mp (Nat.log_lt_of_lt_pow hs hs')
  have hexp : Binary64.exponent ((s : ℚ) + r / 1000) = -((52 - Nat.log 2 s : ℕ) : ℤ) := by
    rw [exponent_delay hs h]
    omega
  have hulp : Binary64.ulp ((s : ℚ) + r / 1000) / 2 = (2 ^ Nat.log 2 s : ℕ) / 2 ^ 53 := by
    rw [Binary64.ulp, exponent_delay hs h, zpow_sub₀ two_ne_zero, zpow_natCast]
    push_cast
    norm_num
    ring
  rw [Binary64.ceil_round_fine hexp, floor_delay h, hulp, Int.cast_natCast, add_eq_left,
    add_lt_add_iff_left, add_right_inj]
  have hzero : (r : ℚ) / 1000 = 0 ↔ r = 0 := by simp
  have hmore : ((2 ^ Nat.log 2 s : ℕ) : ℚ) / 2 ^ 53 < (r : ℚ) / 1000 ↔
      1000 * 2 ^ Nat.log 2 s < r * 2 ^ 53 := by
    rw [div_lt_div_iff₀ (by positivity) (by norm_num)]
    constructor <;> intro h
    · have : 2 ^ Nat.log 2 s * 1000 < r * 2 ^ 53 := by exact_mod_cast h
      omega
    · have : 2 ^ Nat.log 2 s * 1000 < r * 2 ^ 53 := by omega
      exact_mod_cast this
  have htie : (r : ℚ) / 1000 = ((2 ^ Nat.log 2 s : ℕ) : ℚ) / 2 ^ 53 ∧
      Odd ((s : ℤ) * 2 ^ (52 - Nat.log 2 s)) ↔ r = 500 ∧ 2 ^ 52 ≤ s ∧ Odd s := by
    rw [div_eq_div_iff (by norm_num) (by norm_num)]
    constructor
    · rintro ⟨heq, hodd⟩
      -- A last place below one divides every whole second evenly.
      have hlog : Nat.log 2 s = 52 := by
        by_contra hne
        have heven : Even ((s : ℤ) * 2 ^ (52 - Nat.log 2 s)) :=
          (even_two.pow_of_ne_zero (by omega)).mul_left _
        exact Int.not_even_iff_odd.mpr hodd heven
      rw [hlog] at heq hodd
      have hnat : r * 2 ^ 53 = 2 ^ 52 * 1000 := by exact_mod_cast heq
      refine ⟨by omega, ?_, by simpa using hodd⟩
      exact hlog ▸ Nat.pow_log_le_self 2 hs
    · rintro ⟨rfl, hlow, hodd⟩
      have hlog : Nat.log 2 s = 52 :=
        le_antisymm hbits (Nat.le_log_of_pow_le one_lt_two hlow)
      rw [hlog]
      refine ⟨by norm_num, ?_⟩
      rw [Nat.sub_self, pow_zero, mul_one]
      exact_mod_cast hodd
  rw [hzero, hmore, htie]

/-- From `2 ^ 53` seconds on the whole seconds are no longer all doubles. -/
theorem ceil_round_coarse (hs : 2 ^ 53 ≤ s) (h : r < 1000) :
    ⌈Binary64.round ((s : ℚ) + r / 1000)⌉ = ⌈(s : ℚ) + r / 1000⌉ ↔
      2 ^ (Nat.log 2 s - 52) ∣ s + if r = 0 then 0 else 1 := by
  have hbits : 53 ≤ Nat.log 2 s := Nat.le_log_of_pow_le one_lt_two hs
  obtain ⟨j, hj⟩ : ∃ j, Nat.log 2 s - 52 = j + 1 := ⟨Nat.log 2 s - 53, by omega⟩
  have hexp : Binary64.exponent ((s : ℚ) + r / 1000) = j + 1 := by
    rw [exponent_delay (by omega) h]
    omega
  rw [Binary64.ceil_round_coarse hexp, ceil_delay h, hj]
  exact_mod_cast Iff.rfl

end Split

/-- The ceiling that Python computes is that of the quotient exactly where it is kept. -/
theorem ceil_round_iff (ms : ℕ) :
    ⌈Binary64.round ((ms : ℚ) / 1000)⌉ = ⌈(ms : ℚ) / 1000⌉ ↔ CeilingKept ms := by
  have hsplit : (ms : ℚ) / 1000 = (ms / 1000 : ℕ) + (ms % 1000 : ℕ) / 1000 := by
    have h : (ms : ℚ) = 1000 * (ms / 1000 : ℕ) + (ms % 1000 : ℕ) := by
      exact_mod_cast (Nat.div_add_mod ms 1000).symm
    rw [h]
    ring
  have hrest : ms % 1000 < 1000 := Nat.mod_lt ms (by decide)
  simp only [hsplit, CeilingKept]
  generalize ms % 1000 = r at hrest
  generalize ms / 1000 = s
  split
  · next hs =>
    rcases eq_or_ne s 0 with rfl | h0
    · rcases eq_or_ne r 0 with rfl | hr
      · simp [Binary64.round, Binary64.roundEven]
      · rw [Nat.cast_zero, zero_add]
        refine iff_of_true (ceil_round_short hr hrest) (Or.inr (Or.inl ?_))
        simp only [Nat.log_zero_right]
        omega
    · exact ceil_round_fine h0 hs hrest
  · next hs => exact ceil_round_coarse (not_lt.mp hs) hrest

/-- Half a million years are kept to the millisecond. -/
theorem ceilingKept_of_lt {ms : ℕ} (h : ms < 1000 * 2 ^ 44) : CeilingKept ms := by
  have hs : ms / 1000 < 2 ^ 44 := by omega
  have hbits : 2 ^ Nat.log 2 (ms / 1000) ≤ 2 ^ 43 := by
    apply Nat.pow_le_pow_right two_pos
    rcases eq_or_ne (ms / 1000) 0 with h0 | h0
    · simp [h0]
    · exact Nat.lt_succ_iff.mp (Nat.log_lt_of_lt_pow h0 hs)
  unfold CeilingKept
  dsimp only
  rw [if_pos (by omega)]
  rcases eq_or_ne (ms % 1000) 0 with hrest | hrest
  · exact Or.inl hrest
  · exact Or.inr (Or.inl (by omega))

end SecureGateway.RateLimit
