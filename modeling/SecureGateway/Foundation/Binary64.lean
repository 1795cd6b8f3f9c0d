import Mathlib.Data.Int.Log
import Mathlib.Data.Rat.Floor
import Mathlib.Tactic.Linarith
import Mathlib.Tactic.Ring

/-!
# Double precision

The IEEE binary64 numbers as rationals, infinities and NaN, with rounding to nearest, ties to
even. Where rounding overflows, and when it keeps the ceiling of a number.
-/

inductive Binary64 where
  /-- Both zeros are one value. -/
  | finite (value : ℚ)
  | infinity (negative : Bool)
  | nan
  deriving DecidableEq, Repr

namespace Binary64

/-- The nearest integer, the even one in a tie. -/
def roundEven (q : ℚ) : ℤ :=
  let f := ⌊q⌋
  if q - f < 1 / 2 then f
  else if 1 / 2 < q - f then f + 1
  else if Even f then f else f + 1

/-- The exponent of the last place of `x`: 53 bits, or the subnormal grid. -/
def exponent (x : ℚ) : ℤ := max (Int.log 2 |x| - 52) (-1074)

def ulp (x : ℚ) : ℚ := 2 ^ exponent x

/-- The nearest multiple of the last place. -/
def round (x : ℚ) : ℚ := roundEven (x / ulp x) * ulp x

/-- The double nearest to `x`. -/
def ofRat (x : ℚ) : Binary64 :=
  if 2 ^ 1024 ≤ |round x| then .infinity (x < 0) else .finite (round x)

def neg : Binary64 → Binary64
  | finite value => .finite (-value)
  | infinity negative => .infinity !negative
  | nan => .nan

section RoundEven

variable {k : ℤ} {q : ℚ}

/-- The whole of `roundEven`: what it takes to round above `k`. -/
theorem lt_roundEven_iff : k < roundEven q ↔ (k : ℚ) + 1 / 2 < q ∨ q = k + 1 / 2 ∧ Odd k := by
  have hle : (⌊q⌋ : ℚ) ≤ q := Int.floor_le q
  have hlt : q < ⌊q⌋ + 1 := Int.lt_floor_add_one q
  have hbelow : k < ⌊q⌋ → (k : ℚ) + 1 / 2 < q := by
    intro hk
    have : (k : ℚ) + 1 ≤ ⌊q⌋ := by exact_mod_cast hk
    linarith
  have habove : ⌊q⌋ < k → ¬ ((k : ℚ) + 1 / 2 < q ∨ q = k + 1 / 2 ∧ Odd k) := by
    intro hk hor
    have : (⌊q⌋ : ℚ) + 1 ≤ k := by exact_mod_cast hk
    rcases hor with h | ⟨h, -⟩ <;> linarith
  rcases lt_trichotomy k ⌊q⌋ with hk | hk | hk
  · refine iff_of_true ?_ (Or.inl (hbelow hk))
    unfold roundEven
    dsimp only
    split_ifs <;> omega
  · subst hk
    unfold roundEven
    dsimp only
    split_ifs with h1 h2 h3
    · refine iff_of_false (lt_irrefl _) ?_
      rintro (h | ⟨h, -⟩) <;> linarith
    · exact iff_of_true (by omega) (Or.inl (by linarith))
    · refine iff_of_false (lt_irrefl _) ?_
      rintro (h | ⟨-, h⟩)
      · linarith
      · exact (Int.not_odd_iff_even.mpr h3) h
    · exact iff_of_true (by omega) (Or.inr ⟨by linarith, Int.not_even_iff_odd.mp h3⟩)
  · refine iff_of_false ?_ (habove hk)
    unfold roundEven
    dsimp only
    split_ifs <;> omega

theorem le_roundEven (h : (k : ℚ) ≤ q) : k ≤ roundEven q := by
  have hk : k - 1 < roundEven q := by
    rw [lt_roundEven_iff]
    left
    push_cast
    linarith
  omega

theorem roundEven_le (h : q ≤ k) : roundEven q ≤ k := by
  rw [← not_lt, lt_roundEven_iff]
  rintro (h' | ⟨h', -⟩) <;> linarith

@[simp] theorem roundEven_intCast (k : ℤ) : roundEven k = k :=
  le_antisymm (roundEven_le le_rfl) (le_roundEven le_rfl)

end RoundEven

variable {x : ℚ}

theorem ulp_pos (x : ℚ) : 0 < ulp x := zpow_pos (by norm_num) _

theorem round_nonneg (h : 0 ≤ x) : 0 ≤ round x := by
  have hquot : ((0 : ℤ) : ℚ) ≤ x / ulp x := by
    rw [Int.cast_zero]
    exact div_nonneg h (ulp_pos x).le
  have hround : (0 : ℚ) ≤ roundEven (x / ulp x) := by exact_mod_cast le_roundEven hquot
  exact mul_nonneg hround (ulp_pos x).le

/-- A normal number does not vanish. -/
theorem round_pos (h : 2 ^ (-1022 : ℤ) ≤ x) : 0 < round x := by
  have hpos : 0 < x := lt_of_lt_of_le (zpow_pos two_pos _) h
  have hlog : -1022 ≤ Int.log 2 x := by
    rw [← Int.zpow_le_iff_le_log one_lt_two hpos]
    exact_mod_cast h
  have hexp : exponent x ≤ Int.log 2 x := by
    unfold exponent
    rw [abs_of_pos hpos]
    omega
  have hulp : ulp x ≤ x := by
    calc ulp x ≤ 2 ^ Int.log 2 x := zpow_le_zpow_right₀ one_le_two hexp
      _ ≤ x := by exact_mod_cast Int.zpow_log_le_self one_lt_two hpos
  have hround : 1 ≤ roundEven (x / ulp x) := by
    apply le_roundEven
    rw [le_div_iff₀ (ulp_pos x), Int.cast_one, one_mul]
    exact hulp
  have hcast : (0 : ℚ) < roundEven (x / ulp x) := by exact_mod_cast hround
  exact mul_pos hcast (ulp_pos x)

section Overflow

theorem exponent_of_pow_le {k : ℕ} (h : 2 ^ k ≤ x) (h' : x < 2 ^ (k + 1)) :
    exponent x = k - 52 := by
  have hpos : 0 < x := lt_of_lt_of_le (by positivity) h
  have hlow : (k : ℤ) ≤ Int.log 2 x := by
    rw [← Int.zpow_le_iff_le_log one_lt_two hpos]
    exact_mod_cast h
  have hhigh : Int.log 2 x < k + 1 := by
    rw [← Int.lt_zpow_iff_log_lt one_lt_two hpos]
    exact_mod_cast h'
  unfold exponent
  rw [abs_of_pos hpos]
  omega

/-- A power of two that lies below stays below. -/
theorem pow_le_round {k : ℕ} (h : 2 ^ k ≤ x) : 2 ^ k ≤ round x := by
  have hpos : 0 < x := lt_of_lt_of_le (by positivity) h
  have hlow : (k : ℤ) ≤ Int.log 2 x := by
    rw [← Int.zpow_le_iff_le_log one_lt_two hpos]
    exact_mod_cast h
  have hexp : exponent x = Int.log 2 x - 52 := by
    unfold exponent
    rw [abs_of_pos hpos]
    omega
  have hx : (2 : ℚ) ^ Int.log 2 x ≤ x := by exact_mod_cast Int.zpow_log_le_self one_lt_two hpos
  have hulp : (2 : ℚ) ^ Int.log 2 x = ((2 ^ 52 : ℤ) : ℚ) * ulp x := by
    have hcast : ((2 ^ 52 : ℤ) : ℚ) = 2 ^ (52 : ℤ) := by norm_num
    rw [ulp, hexp, hcast, ← zpow_add₀ two_ne_zero]
    congr 1
    omega
  have hround : (2 ^ 52 : ℤ) ≤ roundEven (x / ulp x) := by
    apply le_roundEven
    rw [le_div_iff₀ (ulp_pos x), ← hulp]
    exact hx
  calc (2 : ℚ) ^ k = 2 ^ (k : ℤ) := (zpow_natCast _ _).symm
    _ ≤ 2 ^ Int.log 2 x := zpow_le_zpow_right₀ one_le_two hlow
    _ = ((2 ^ 52 : ℤ) : ℚ) * ulp x := hulp
    _ ≤ roundEven (x / ulp x) * ulp x := by
      refine mul_le_mul_of_nonneg_right ?_ (ulp_pos x).le
      exact_mod_cast hround

theorem exponent_le {k : ℕ} (h0 : 0 ≤ x) (h : x ≤ 2 ^ k) : exponent x ≤ k := by
  have hlog : Int.log 2 |x| ≤ k := by
    rw [abs_of_nonneg h0]
    rcases h0.eq_or_lt with rfl | hpos
    · rw [Int.log_zero_right]
      omega
    · have hmono := Int.log_mono_right (b := 2) hpos h
      have hpow : Int.log 2 ((2 : ℚ) ^ k) = k := by
        have := Int.log_zpow (R := ℚ) (b := 2) one_lt_two k
        exact_mod_cast this
      omega
  unfold exponent
  omega

/-- A power of two that lies above stays above. -/
theorem round_le_pow {k : ℕ} (h0 : 0 ≤ x) (h : x ≤ 2 ^ k) : round x ≤ 2 ^ k := by
  have hexp := exponent_le h0 h
  obtain ⟨n, hn⟩ := Int.eq_ofNat_of_zero_le (sub_nonneg.mpr hexp)
  have hulp : (2 : ℚ) ^ k = ((2 ^ n : ℤ) : ℚ) * ulp x := by
    rw [ulp]
    push_cast
    rw [← zpow_natCast, ← zpow_natCast, ← zpow_add₀ (by norm_num)]
    congr 1
    omega
  rw [hulp]
  refine mul_le_mul_of_nonneg_right ?_ (ulp_pos x).le
  have hround : roundEven (x / ulp x) ≤ (2 ^ n : ℤ) := by
    apply roundEven_le
    rw [div_le_iff₀ (ulp_pos x), ← hulp]
    exact h
  exact_mod_cast hround

/-- Rounding overflows from the middle of the last gap on. -/
theorem overflow_iff (h0 : 0 ≤ x) : 2 ^ 1024 ≤ round x ↔ 2 ^ 1024 - 2 ^ 970 ≤ x := by
  have hgap : (0 : ℚ) < 2 ^ 970 := by positivity
  have h971 : (2 : ℚ) ^ 971 = 2 * 2 ^ 970 := pow_succ' 2 970
  have h1023 : (2 : ℚ) ^ 1023 = 2 ^ 53 * 2 ^ 970 := pow_add 2 53 970
  have h1024 : (2 : ℚ) ^ 1024 = 2 ^ 54 * 2 ^ 970 := pow_add 2 54 970
  rcases le_or_gt (2 ^ 1024) x with hx | hx
  · refine iff_of_true (pow_le_round hx) ?_
    exact (sub_le_self _ hgap.le).trans hx
  rcases lt_or_ge x (2 ^ 1023) with hlow | hhigh
  · have hround := round_le_pow h0 hlow.le
    rw [h1023] at hround hlow
    rw [h1024]
    generalize (2 : ℚ) ^ 970 = t at *
    refine iff_of_false (fun h => ?_) fun h => ?_
    · linarith only [h, hround, hgap]
    · linarith only [h, hlow, hgap]
  · have hulp : ulp x = 2 * 2 ^ 970 := by
      rw [ulp, exponent_of_pow_le hhigh hx, ← h971]
      exact zpow_natCast 2 971
    rw [round, h1024, hulp]
    generalize (2 : ℚ) ^ 970 = t at *
    have hpos : 0 < 2 * t := by linarith only [hgap]
    calc 2 ^ 54 * t ≤ roundEven (x / (2 * t)) * (2 * t)
        ↔ ((2 ^ 53 : ℤ) : ℚ) * (2 * t) ≤ roundEven (x / (2 * t)) * (2 * t) := by
          have htop : (2 : ℚ) ^ 54 * t = ((2 ^ 53 : ℤ) : ℚ) * (2 * t) := by
            push_cast
            ring
          rw [htop]
      _ ↔ (2 ^ 53 - 1 : ℤ) < roundEven (x / (2 * t)) := by
          rw [mul_le_mul_iff_of_pos_right hpos, Int.cast_le]
          omega
      _ ↔ ((2 ^ 53 - 1 : ℤ) : ℚ) + 1 / 2 ≤ x / (2 * t) := by
          have hodd : Odd (2 ^ 53 - 1 : ℤ) := by decide
          rw [lt_roundEven_iff, le_iff_lt_or_eq]
          simp only [hodd, and_true, eq_comm]
      _ ↔ 2 ^ 54 * t - t ≤ x := by
          have hmiddle : (((2 ^ 53 - 1 : ℤ) : ℚ) + 1 / 2) * (2 * t) = 2 ^ 54 * t - t := by
            push_cast
            ring
          rw [le_div_iff₀ hpos, hmiddle]

end Overflow

section Ceiling

variable {j : ℕ}

/-- Where the last place is a fraction, rounding loses the ceiling of a number that it takes
down to the integer below. -/
theorem ceil_round_fine (h : exponent x = -j) :
    ⌈round x⌉ = ⌈x⌉ ↔ x = ⌊x⌋ ∨ ⌊x⌋ + ulp x / 2 < x ∨
      x = ⌊x⌋ + ulp x / 2 ∧ Odd (⌊x⌋ * 2 ^ j) := by
  have hu := ulp_pos x
  have hgrid (k : ℤ) : (k : ℚ) = ((k * 2 ^ j : ℤ) : ℚ) * ulp x := by
    rw [ulp, h, zpow_neg, zpow_natCast]
    push_cast
    rw [mul_assoc, mul_inv_cancel₀ (by positivity), mul_one]
  by_cases hint : x = ⌊x⌋
  · have hquot : x / ulp x = ((⌊x⌋ * 2 ^ j : ℤ) : ℚ) := by
      rw [div_eq_iff hu.ne', ← hgrid, ← hint]
    have hround : round x = x := by
      rw [round, hquot, roundEven_intCast, ← hgrid, ← hint]
    rw [hround]
    exact iff_of_true rfl (Or.inl hint)
  · have hceil : ⌈x⌉ = ⌊x⌋ + 1 := by
      have hle : (⌊x⌋ : ℚ) ≤ x := Int.floor_le x
      have hlt : x < ⌊x⌋ + 1 := Int.lt_floor_add_one x
      rw [Int.ceil_eq_iff]
      push_cast
      exact ⟨by linarith [lt_of_le_of_ne hle (Ne.symm hint)], hlt.le⟩
    have hupper : round x ≤ ((⌊x⌋ + 1 : ℤ) : ℚ) := by
      rw [hgrid, round]
      refine mul_le_mul_of_nonneg_right ?_ hu.le
      have hround : roundEven (x / ulp x) ≤ (⌊x⌋ + 1) * 2 ^ j := by
        apply roundEven_le
        rw [div_le_iff₀ hu, ← hgrid]
        push_cast
        exact (Int.lt_floor_add_one x).le
      exact_mod_cast hround
    have habove : (⌊x⌋ : ℚ) < round x ↔ (⌊x⌋ * 2 ^ j : ℤ) < roundEven (x / ulp x) := by
      rw [round, hgrid ⌊x⌋, mul_lt_mul_iff_of_pos_right hu, Int.cast_lt]
    have hhalf : (((⌊x⌋ * 2 ^ j : ℤ) : ℚ) + 1 / 2) * ulp x = ⌊x⌋ + ulp x / 2 := by
      rw [add_mul, ← hgrid]
      ring
    rw [hceil, Int.ceil_eq_iff, Int.cast_add, Int.cast_one, add_sub_cancel_right, habove,
      lt_roundEven_iff, lt_div_iff₀ hu, hhalf, div_eq_iff hu.ne', hhalf]
    push_cast at hupper
    simp only [hint, false_or, hupper, and_true]

/-- Where it is even, a ceiling is kept that is a multiple of it. -/
theorem ceil_round_coarse (h : exponent x = j + 1) :
    ⌈round x⌉ = ⌈x⌉ ↔ (2 ^ (j + 1) : ℤ) ∣ ⌈x⌉ := by
  have hu := ulp_pos x
  have hulp : ulp x = ((2 ^ (j + 1) : ℤ) : ℚ) := by
    rw [ulp, h]
    push_cast
    exact_mod_cast zpow_natCast (2 : ℚ) (j + 1)
  have hceil : ⌈round x⌉ = roundEven (x / ulp x) * 2 ^ (j + 1) := by
    rw [round, hulp, ← Int.cast_mul, Int.ceil_intCast]
  rw [hceil]
  constructor
  · intro heq
    rw [← heq]
    exact Dvd.intro_left _ rfl
  · rintro ⟨m, hm⟩
    have hx : x ≤ m * ulp x := by
      rw [hulp, ← Int.cast_mul, mul_comm, ← hm]
      exact Int.le_ceil x
    have hx' : m * ulp x < x + 1 := by
      rw [hulp, ← Int.cast_mul, mul_comm, ← hm]
      exact Int.ceil_lt_add_one x
    have htwo : 2 ≤ ulp x := by
      rw [hulp]
      have : (2 : ℤ) ^ 1 ≤ 2 ^ (j + 1) := pow_le_pow_right₀ one_le_two (by omega)
      exact_mod_cast this
    have hround : roundEven (x / ulp x) = m := by
      apply le_antisymm
      · exact roundEven_le ((div_le_iff₀ hu).mpr hx)
      · have hlow : m - 1 < roundEven (x / ulp x) := by
          rw [lt_roundEven_iff, lt_div_iff₀ hu]
          left
          push_cast
          linarith
        omega
    rw [hround, hm, mul_comm]

end Ceiling

end Binary64
