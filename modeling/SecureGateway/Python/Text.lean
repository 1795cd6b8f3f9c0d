import Mathlib.Data.List.TakeWhile
import Mathlib.Data.String.Basic

/-!
# Python text methods

The `str` methods the gateway uses, by their documented behaviour on Unicode text.
-/
namespace Python

/-- `str.isspace` of one character. -/
def isSpace (c : Char) : Bool :=
  let n := c.toNat
  (0x09 ≤ n && n ≤ 0x0d) || (0x1c ≤ n && n ≤ 0x20) || n == 0x85 || n == 0xa0 || n == 0x1680 ||
    (0x2000 ≤ n && n ≤ 0x200a) || n == 0x2028 || n == 0x2029 || n == 0x202f || n == 0x205f ||
    n == 0x3000

/-- `str.strip()`. -/
def strip (s : String) : String :=
  String.ofList (((s.toList.dropWhile isSpace).reverse.dropWhile isSpace).reverse)

/-- A property that is decided for every character of a list. -/
theorem forall_mem_of_all {P : Char → Prop} [DecidablePred P] {l : List Char}
    (h : l.all (fun c => decide (P c)) = true) : ∀ c ∈ l, P c := by
  intro c hc
  exact of_decide_eq_true (List.all_eq_true.mp h c hc)

section Boundaries

variable {p : Char → Bool} {a b : List Char}

/-- `b` is empty or begins where `p` ends. -/
def StopsAt (p : Char → Bool) (b : List Char) : Prop := ∀ c, b.head? = some c → p c = false

theorem stopsAt_cons {c : Char} (h : p c = false) : StopsAt p (c :: b) := by
  intro d hd
  obtain rfl : c = d := Option.some.inj hd
  exact h

theorem stopsAt_append (hne : a ≠ []) (h : ∀ c ∈ a, p c = false) : StopsAt p (a ++ b) := by
  obtain ⟨c, rest, rfl⟩ := List.exists_cons_of_ne_nil hne
  exact stopsAt_cons (h c List.mem_cons_self)

theorem stopsAt_of_forall (h : ∀ c ∈ b, p c = false) : StopsAt p b := by
  intro c hc
  exact h c (List.mem_of_head? hc)

theorem takeWhile_boundary (ha : ∀ c ∈ a, p c = true) (hb : StopsAt p b) :
    (a ++ b).takeWhile p = a := by
  rw [List.takeWhile_append_of_pos ha]
  cases b with
  | nil => simp
  | cons c b => simp [hb c rfl]

theorem dropWhile_boundary (ha : ∀ c ∈ a, p c = true) (hb : StopsAt p b) :
    (a ++ b).dropWhile p = b := by
  rw [List.dropWhile_append_of_pos ha]
  cases b with
  | nil => rfl
  | cons c b => simp [hb c rfl]

theorem dropWhile_of_stopsAt (h : StopsAt p b) : b.dropWhile p = b :=
  dropWhile_boundary (a := []) (by simp) h

theorem stopsAt_dropWhile (p : Char → Bool) (l : List Char) : StopsAt p (l.dropWhile p) := by
  intro c hc
  have hstop := List.head?_dropWhile_not p l
  rw [hc] at hstop
  exact hstop

/-- A text has one front part of `p` that ends where `p` ends. -/
theorem boundary_unique {a' b' : List Char} (ha : ∀ c ∈ a, p c = true) (hb : StopsAt p b)
    (ha' : ∀ c ∈ a', p c = true) (hb' : StopsAt p b') (h : a ++ b = a' ++ b') :
    a = a' ∧ b = b' := by
  constructor
  · rw [← takeWhile_boundary ha hb, h, takeWhile_boundary ha' hb']
  · rw [← dropWhile_boundary ha hb, h, dropWhile_boundary ha' hb']

theorem strip_of_stopsAt (hfirst : StopsAt isSpace a) (hlast : StopsAt isSpace a.reverse) :
    strip (String.ofList a) = String.ofList a := by
  rw [strip, String.toList_ofList, dropWhile_of_stopsAt hfirst, dropWhile_of_stopsAt hlast,
    List.reverse_reverse]

theorem mem_of_mem_strip {s : String} {c : Char} (h : c ∈ (strip s).toList) : c ∈ s.toList := by
  rw [strip, String.toList_ofList, List.mem_reverse] at h
  have hinner := List.mem_reverse.mp ((List.dropWhile_sublist isSpace).subset h)
  exact (List.dropWhile_sublist isSpace).subset hinner

end Boundaries

end Python
