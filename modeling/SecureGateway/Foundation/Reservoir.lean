import Mathlib.Algebra.Order.Field.Basic
import Mathlib.Algebra.Order.Floor.Ring
import Mathlib.Tactic.Linarith
import Mathlib.Tactic.Ring

/-!
# Reservoirs

A level that fills at a constant rate up to a capacity, and is drawn from in equal portions.
Rounding a waiting time up to whole units, or a level down to whole portions, loses nothing
that an integer question can see.
-/
namespace Reservoir

variable {K : Type} [Field K] [LinearOrder K] {capacity rate x need d e : K}

/-- The level once it has filled for the time `d`. -/
def level (capacity rate x d : K) : K := min capacity (x + d * rate)

theorem level_zero (hx : x ≤ capacity) : level capacity rate x 0 = x := by
  rw [level, zero_mul, add_zero, min_eq_right hx]

variable [IsStrictOrderedRing K]

/-- Between two times the level rises by no more than the rate allows. -/
theorem level_le_add (capacity x : K) (hr : 0 ≤ rate) (hde : d ≤ e) :
    level capacity rate x e ≤ level capacity rate x d + (e - d) * rate := by
  have hrise : 0 ≤ (e - d) * rate := mul_nonneg (sub_nonneg.mpr hde) hr
  rw [level, level, ← min_add_add_right]
  apply min_le_min
  · linarith
  · apply le_of_eq
    ring

/-- Filling in two stretches is filling in one. -/
theorem level_level (hr : 0 ≤ rate) (he : 0 ≤ e) :
    level capacity rate (level capacity rate x d) e = level capacity rate x (d + e) := by
  have hrise : 0 ≤ e * rate := mul_nonneg he hr
  have hfull : min capacity (capacity + e * rate) = capacity := min_eq_left (by linarith)
  have hsum : x + d * rate + e * rate = x + (d + e) * rate := by ring
  rw [level, level, level, ← min_add_add_right, ← min_assoc, hfull, hsum]

/-- A need within the capacity is met exactly from its waiting time on. -/
theorem le_level_iff (hr : 0 < rate) (hn : need ≤ capacity) :
    need ≤ level capacity rate x d ↔ (need - x) / rate ≤ d := by
  rw [level, le_min_iff, and_iff_right hn, div_le_iff₀ hr]
  constructor
  · intro h
    linarith
  · intro h
    linarith

theorem level_eq_capacity (hr : 0 < rate) (hd : (capacity - x) / rate ≤ d) :
    level capacity rate x d = capacity :=
  le_antisymm (min_le_left _ _) ((le_level_iff hr le_rfl).mpr hd)

/-- One portion is taken if the level holds it. -/
def draw (need x : K) : K := if need ≤ x then x - need else x

/-- After `n` attempts another portion is there if the level held `n + 1` at the start. -/
theorem le_draw_iterate_iff (hneed : 0 < need) (n : ℕ) (x : K) :
    need ≤ (draw need)^[n] x ↔ (n + 1 : K) * need ≤ x := by
  induction n generalizing x with
  | zero => simp
  | succ n ih =>
    rw [Function.iterate_succ_apply, ih]
    push_cast
    by_cases hx : need ≤ x
    · rw [draw, if_pos hx]
      constructor
      · intro h
        linarith
      · intro h
        linarith
    · rw [draw, if_neg hx]
      have hn : (0 : K) ≤ n * need := by positivity
      constructor
      · intro h
        linarith
      · intro h
        linarith

section Rounding

variable [FloorRing K]

theorem ceil_le_iff (hr : 0 < rate) (hn : need ≤ capacity) (d : ℤ) :
    need ≤ level capacity rate x d ↔ ⌈(need - x) / rate⌉ ≤ d := by
  rw [le_level_iff hr hn, Int.ceil_le]

/-- Only whole portions of the rounded level count. -/
theorem le_draw_iterate_iff_floor {need : ℕ} (hneed : 0 < need) (n : ℕ) (x : K) :
    (need : K) ≤ (draw (need : K))^[n] x ↔ (n : ℤ) < ⌊x⌋ / need := by
  have hpos : (0 : K) < need := by exact_mod_cast hneed
  have hcast : ((n : K) + 1) * need = (((n + 1) * need : ℤ) : K) := by push_cast; ring
  rw [le_draw_iterate_iff hpos, hcast, ← Int.le_floor,
    ← Int.le_ediv_iff_mul_le (by exact_mod_cast hneed)]
  omega

/-- Rounding up twice, to parts and then to wholes, is rounding up once. -/
theorem ceil_ceil_div {k : ℕ} (hk : 0 < k) (x : K) : ⌈(⌈x⌉ : K) / k⌉ = ⌈x / k⌉ := by
  have hpos : (0 : K) < k := by exact_mod_cast hk
  refine eq_of_forall_ge_iff fun m => ?_
  have hcast : (m : K) * k = ((m * k : ℤ) : K) := by push_cast; ring
  rw [Int.ceil_le, Int.ceil_le, div_le_iff₀ hpos, div_le_iff₀ hpos, hcast, Int.cast_le,
    Int.ceil_le]

end Rounding

end Reservoir
