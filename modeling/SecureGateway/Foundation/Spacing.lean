import Mathlib.Data.List.Pairwise
import Mathlib.Tactic.Linarith
import Mathlib.Tactic.Ring

/-!
# Spaced events

Times of events, newest first, of which any `n + 1` in a row span at least `d`. In a stretch
of time there are at most `n` of them for every `d` begun.
-/
namespace Spacing

/-- Each event lies at least `d` after the `n`-th one before it. -/
def Spaced (n : ℕ) (d : ℤ) (log : List ℤ) : Prop :=
  ∀ i a b, log[i]? = some a → log[i + n]? = some b → b + d ≤ a

variable {n : ℕ} {d lo hi t : ℤ} {log older : List ℤ}

theorem spaced_nil : Spaced n d [] := by
  intro i a b ha
  simp at ha

theorem spaced_cons (hn : 0 < n) (hnew : ∀ b, log[n - 1]? = some b → b + d ≤ t)
    (h : Spaced n d log) : Spaced n d (t :: log) := by
  intro i a b ha hb
  cases i with
  | zero =>
    have hta : t = a := by simpa using ha
    obtain ⟨m, rfl⟩ : ∃ m, n = m + 1 := ⟨n - 1, by omega⟩
    rw [← hta]
    apply hnew
    simpa using hb
  | succ i =>
    have hshift : i + 1 + n = i + n + 1 := by omega
    rw [hshift, List.getElem?_cons_succ] at hb
    exact h i a b (by simpa using ha) hb

/-- The newest events of a spaced log are spaced. -/
theorem Spaced.left (h : Spaced n d (log ++ older)) : Spaced n d log := by
  intro i a b ha hb
  have hia := (List.getElem?_eq_some_iff.mp ha).1
  have hib := (List.getElem?_eq_some_iff.mp hb).1
  refine h i a b ?_ ?_
  · rwa [List.getElem?_append_left hia]
  · rwa [List.getElem?_append_left hib]

/-- Every `n` events further back, the times fall by `d`. -/
theorem Spaced.falls (h : Spaced n d log) (k : ℕ) {a b : ℤ} (ha : log[0]? = some a)
    (hb : log[n * k]? = some b) : b + d * k ≤ a := by
  induction k generalizing b with
  | zero =>
    have hab : a = b := by
      rw [Nat.mul_zero, ha] at hb
      exact Option.some.inj hb
    simp [hab]
  | succ k ih =>
    have hlt : n * k < log.length := by
      have := (List.getElem?_eq_some_iff.mp hb).1
      rw [Nat.mul_succ] at this
      omega
    have hmid := ih (List.getElem?_eq_getElem hlt)
    have hstep := h (n * k) _ b (List.getElem?_eq_getElem hlt) hb
    push_cast
    linarith

/-- At most `n` events for every `d` begun. -/
theorem Spaced.length_le (h : Spaced n d log) (hd : 0 < d) (hlo : ∀ a ∈ log, lo ≤ a)
    (hhi : ∀ a ∈ log, a ≤ hi) (hspan : lo ≤ hi) :
    (log.length : ℤ) ≤ n * ((hi - lo) / d + 1) := by
  obtain ⟨k, hk⟩ : ∃ k : ℕ, (k : ℤ) = (hi - lo) / d + 1 := by
    have : 0 ≤ (hi - lo) / d := Int.ediv_nonneg (by omega) hd.le
    exact ⟨((hi - lo) / d + 1).toNat, by omega⟩
  rw [← hk]
  by_contra hmany
  have hlt : n * k < log.length := by
    have : (n : ℤ) * k < log.length := not_le.mp hmany
    exact_mod_cast this
  have hfalls := h.falls k (List.getElem?_eq_getElem (by omega)) (List.getElem?_eq_getElem hlt)
  have hnew := hhi _ (List.getElem_mem (show 0 < log.length by omega))
  have hold := hlo _ (List.getElem_mem hlt)
  have hbeyond : hi - lo < d * k := by
    rw [hk]
    have := Int.lt_mul_ediv_self_add (x := hi - lo) hd
    linarith
  omega

/-- Dividing two stretches is no more than dividing both together. -/
theorem ediv_add_ediv_le {x y : ℤ} (hd : 0 < d) : x / d + y / d ≤ (x + y) / d := by
  rw [Int.le_ediv_iff_mul_le hd, add_mul]
  have hx := Int.ediv_mul_le x hd.ne'
  have hy := Int.ediv_mul_le y hd.ne'
  omega

/-- Logs that cover stretches from `lo` to `hi`, one after the other. -/
def Consecutive : ℤ → ℤ → List (List ℤ) → Prop
  | lo, hi, [] => lo ≤ hi
  | lo, hi, log :: logs =>
    ∃ cut, lo ≤ cut ∧ (∀ a ∈ log, lo ≤ a ∧ a ≤ cut) ∧ Consecutive cut hi logs

theorem Consecutive.le {logs : List (List ℤ)} (h : Consecutive lo hi logs) : lo ≤ hi := by
  induction logs generalizing lo with
  | nil => exact h
  | cons log logs ih =>
    obtain ⟨cut, hle, -, hrest⟩ := h
    exact hle.trans (ih hrest)

theorem Consecutive.weaken {logs : List (List ℤ)} (h : Consecutive t hi logs) (hlt : lo ≤ t) :
    Consecutive lo hi logs := by
  cases logs with
  | nil => exact hlt.trans h
  | cons log logs =>
    obtain ⟨cut, hle, hlog, hrest⟩ := h
    exact ⟨cut, hlt.trans hle, fun a ha => ⟨hlt.trans (hlog a ha).1, (hlog a ha).2⟩, hrest⟩

/-- Every new log costs at most `n` events more. -/
theorem sum_length_le {logs : List (List ℤ)} (hd : 0 < d) (h : Consecutive lo hi logs)
    (hspaced : ∀ log ∈ logs, Spaced n d log) :
    ((logs.map List.length).sum : ℤ) ≤ n * ((hi - lo) / d + logs.length) := by
  induction logs generalizing lo with
  | nil =>
    have hspan : lo ≤ hi := h
    have hnonneg : 0 ≤ (hi - lo) / d := Int.ediv_nonneg (by omega) hd.le
    simpa using mul_nonneg (Int.natCast_nonneg n) hnonneg
  | cons log logs ih =>
    obtain ⟨cut, hle, hlog, hrest⟩ := h
    have hfirst := (hspaced log (by simp)).length_le hd (fun a ha => (hlog a ha).1)
      (fun a ha => (hlog a ha).2) hle
    have hlater := ih hrest fun log hl => hspaced log (by simp [hl])
    have hspans := ediv_add_ediv_le (x := cut - lo) (y := hi - cut) hd
    have hsum : cut - lo + (hi - cut) = hi - lo := by ring
    rw [hsum] at hspans
    have hscaled := mul_le_mul_of_nonneg_left hspans (Int.natCast_nonneg n)
    simp only [List.map_cons, List.sum_cons, List.length_cons]
    push_cast at hlater ⊢
    linarith

end Spacing
