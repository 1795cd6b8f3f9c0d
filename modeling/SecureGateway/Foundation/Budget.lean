import Mathlib.Algebra.Order.Field.Rat
import Mathlib.Data.Int.Cast.Lemmas
import Mathlib.Tactic.Linarith
import Mathlib.Tactic.Ring

/-!
# Spending against a refilling budget

A machine takes timed steps, and each step spends some amount. An account gives every valid
state a non-negative balance that pays for each step and grows between steps at a bounded
rate; the spending of any window is then bounded by its opening balance and its length.
-/
namespace Budget

/-- A deterministic machine whose step at a time moves its state and spends an amount. -/
structure Machine (S : Type) where
  next : S → ℤ → S
  spend : S → ℤ → ℚ

variable {S : Type}

def Machine.run (m : Machine S) (s : S) (times : List ℤ) : S := times.foldl m.next s

def Machine.total (m : Machine S) : S → List ℤ → ℚ
  | _, [] => 0
  | s, t :: times => m.spend s t + m.total (m.next s t) times

/-- A balance that pays for the steps of `m` and grows by at most `rate` per time unit. -/
structure Account (m : Machine S) (rate : ℚ) where
  Valid : S → ℤ → Prop
  balance : S → ℤ → ℚ
  valid_next : ∀ {s t}, Valid s t → Valid (m.next s t) t
  valid_mono : ∀ {s t t'}, Valid s t → t ≤ t' → Valid s t'
  nonneg : ∀ {s t}, Valid s t → 0 ≤ balance s t
  pays : ∀ {s t}, Valid s t → m.spend s t + balance (m.next s t) t ≤ balance s t
  grows : ∀ {s t t'}, Valid s t → t ≤ t' → balance s t' ≤ balance s t + rate * (t' - t)

variable {m : Machine S} {rate : ℚ} (a : Account m rate)

theorem Account.valid_run {s : S} {times : List ℤ} {t : ℤ} (hv : a.Valid s t)
    (hs : (t :: times).Pairwise (· ≤ ·)) :
    a.Valid (m.run s times) (times.getLast?.getD t) := by
  induction times generalizing s t with
  | nil => exact hv
  | cons u times ih =>
    obtain ⟨htu, hs⟩ := List.pairwise_cons.mp hs
    have hvu := a.valid_mono hv (htu u List.mem_cons_self)
    simpa [Machine.run, List.getLast?_cons] using ih (a.valid_next hvu) hs

/-- Spending from the first to the last step of a window. -/
theorem Account.total_le {s : S} {t : ℤ} {times : List ℤ} (hv : a.Valid s t)
    (hs : (t :: times).Pairwise (· ≤ ·)) :
    m.total s (t :: times) ≤
      a.balance s t + rate * ((times.getLast?.getD t : ℤ) - t) := by
  induction times generalizing s t with
  | nil =>
    have hpay := a.pays hv
    have hnn := a.nonneg (a.valid_next hv)
    simp only [Machine.total, List.getLast?_nil, Option.getD_none, sub_self]
    linarith
  | cons u times ih =>
    obtain ⟨htu, hs⟩ := List.pairwise_cons.mp hs
    have htu := htu u List.mem_cons_self
    have hvn := a.valid_next hv
    have hrest := ih (a.valid_mono hvn htu) hs
    have hpay := a.pays hv
    have hgrow := a.grows hvn htu
    have hlast : ((u :: times).getLast?.getD t : ℤ) = times.getLast?.getD u := by
      simp [List.getLast?_cons]
    have hsplit : m.total s (t :: u :: times) = m.spend s t + m.total (m.next s t) (u :: times) :=
      rfl
    have hring : rate * (((times.getLast?.getD u : ℤ) : ℚ) - t) =
        rate * (((times.getLast?.getD u : ℤ) : ℚ) - u) + rate * ((u : ℚ) - t) := by ring
    rw [hsplit, hlast, hring]
    linarith

/-- The spending of the steps from `t₁` to `t₂`. -/
def Machine.spent (m : Machine S) (t₁ t₂ : ℤ) : S → List ℤ → ℚ
  | _, [] => 0
  | s, t :: times =>
    (if t₁ ≤ t ∧ t ≤ t₂ then m.spend s t else 0) + m.spent t₁ t₂ (m.next s t) times

theorem Machine.spent_concat (m : Machine S) (t₁ t₂ : ℤ) (s : S) (times : List ℤ) (t : ℤ) :
    m.spent t₁ t₂ s (times ++ [t]) = m.spent t₁ t₂ s times +
      if t₁ ≤ t ∧ t ≤ t₂ then m.spend (m.run s times) t else 0 := by
  induction times generalizing s with
  | nil => simp [Machine.spent, Machine.run]
  | cons u times ih =>
    rw [List.cons_append, Machine.spent, ih, Machine.spent, add_assoc]
    rfl

theorem Machine.spent_of_lt (m : Machine S) {t₁ t₂ : ℤ} {s : S} {times : List ℤ}
    (ht : ∀ u ∈ times, t₂ < u) : m.spent t₁ t₂ s times = 0 := by
  induction times generalizing s with
  | nil => rfl
  | cons u times ih =>
    have hu : ¬ (t₁ ≤ u ∧ u ≤ t₂) := by
      have := ht u List.mem_cons_self
      omega
    rw [Machine.spent, if_neg hu, ih fun v hv => ht v (List.mem_cons_of_mem _ hv), add_zero]

/-- Spending from a time within the window on. -/
theorem Account.spent_onward {s : S} {t t₁ t₂ : ℤ} {times : List ℤ} (hrate : 0 ≤ rate)
    (hv : a.Valid s t) (hs : (t :: times).Pairwise (· ≤ ·)) (ht₁ : t₁ ≤ t) (ht₂ : t ≤ t₂) :
    m.spent t₁ t₂ s times ≤ a.balance s t + rate * (t₂ - t) := by
  induction times generalizing s t with
  | nil =>
    have hspan : (t : ℚ) ≤ t₂ := by exact_mod_cast ht₂
    have hleft := mul_nonneg hrate (sub_nonneg.mpr hspan)
    have hnonneg := a.nonneg hv
    rw [Machine.spent]
    linarith
  | cons u times ih =>
    obtain ⟨htu, hs⟩ := List.pairwise_cons.mp hs
    have htu := htu u List.mem_cons_self
    have hgrow := a.grows hv htu
    rcases le_or_gt u t₂ with hu | hu
    · have hvu := a.valid_mono hv htu
      have hrest := ih (a.valid_next hvu) hs (ht₁.trans htu) hu
      have hpay := a.pays hvu
      rw [Machine.spent, if_pos ⟨ht₁.trans htu, hu⟩]
      linarith
    · have hspan : (t : ℚ) ≤ t₂ := by exact_mod_cast ht₂
      have hleft := mul_nonneg hrate (sub_nonneg.mpr hspan)
      have hnonneg := a.nonneg hv
      rw [Machine.spent_of_lt m]
      · linarith
      · intro v hv
        rcases List.mem_cons.mp hv with rfl | hv
        · exact hu
        · exact hu.trans_le ((List.pairwise_cons.mp hs).1 v hv)

/-- Spending within any window of a run, by the largest balance and the length of the window. -/
theorem Account.spent_le {s : S} {t t₁ t₂ : ℤ} {times : List ℤ} {most : ℚ} (hrate : 0 ≤ rate)
    (hmost : ∀ s t, a.Valid s t → a.balance s t ≤ most) (hv : a.Valid s t)
    (hs : (t :: times).Pairwise (· ≤ ·)) (hw : t₁ ≤ t₂) :
    m.spent t₁ t₂ s times ≤ most + rate * (t₂ - t₁) := by
  have hwindow : (t₁ : ℚ) ≤ t₂ := by exact_mod_cast hw
  have hnone : 0 ≤ most + rate * (t₂ - t₁) := by
    have := mul_nonneg hrate (sub_nonneg.mpr hwindow)
    have := a.nonneg hv
    have := hmost s t hv
    linarith
  induction times generalizing s t with
  | nil => exact hnone
  | cons u times ih =>
    obtain ⟨htu, hs⟩ := List.pairwise_cons.mp hs
    have hvu := a.valid_mono hv (htu u List.mem_cons_self)
    have hvn := a.valid_next hvu
    rw [Machine.spent]
    split
    · next hu =>
      have hrest := a.spent_onward hrate hvn hs hu.1 hu.2
      have hpay := a.pays hvu
      have hfull := hmost s u hvu
      have hstart : (t₁ : ℚ) ≤ u := by exact_mod_cast hu.1
      have hshorter := mul_le_mul_of_nonneg_left (sub_le_sub_left hstart (t₂ : ℚ)) hrate
      linarith
    · rw [zero_add]
      exact ih hvn hs

end Budget
