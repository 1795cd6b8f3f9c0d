import Mathlib.Data.List.Basic
import Mathlib.Data.List.Monad

/-!
# Backtracking patterns

A pattern lists the ways to read the front of a list, in the order in which a backtracking
matcher tries them.
-/

/-- The preferred way first: what is captured, and what is left. -/
abbrev Pattern (σ : Type) := StateT (List σ) List

namespace Pattern

variable {σ α β : Type}

/-- What the first way captures. -/
def capture (m : Pattern σ α) (l : List σ) : Option α := (m.run l).head?.map Prod.fst

/-- One member of a class. -/
def one (p : σ → Bool) : Pattern σ (List σ)
  | [] => []
  | c :: rest => if p c then [([c], rest)] else []

/-- Members of a class, as many as there are, then fewer. -/
def many (p : σ → Bool) : Pattern σ (List σ)
  | [] => [([], [])]
  | c :: rest =>
    if p c then (many p rest).map (fun way => (c :: way.1, way.2)) ++ [([], c :: rest)]
    else [([], c :: rest)]

/-- One pattern after the other. -/
instance : Append (Pattern σ (List σ)) where
  append m n := do
    let a ← m
    let b ← n
    pure (a ++ b)

def many1 (p : σ → Bool) : Pattern σ (List σ) := one p ++ many p

def opt (m : Pattern σ (List σ)) : Pattern σ (List σ) := m <|> pure []

/-- The end of the list, or the place in front of a last `final`. -/
def atEnd [DecidableEq σ] (final : σ) : Pattern σ Unit
  | rest => if rest = [] ∨ rest = [final] then [((), rest)] else []

section Ways

variable {m n : Pattern σ (List σ)} {p : σ → Bool} {a l rest : List σ} {L M : List σ → Prop}

theorem mem_bind {m : Pattern σ α} {k : α → Pattern σ β} {b : β} :
    (b, rest) ∈ (m >>= k).run l ↔
      ∃ a middle, (a, middle) ∈ m.run l ∧ (b, rest) ∈ (k a).run middle := by
  rw [StateT.run_bind]
  constructor
  · intro h
    obtain ⟨way, hway, hk⟩ := List.mem_flatMap.mp h
    exact ⟨way.1, way.2, hway, hk⟩
  · rintro ⟨a, middle, hm, hk⟩
    exact List.mem_flatMap.mpr ⟨(a, middle), hm, hk⟩

theorem mem_pure {a b : α} : (b, rest) ∈ (pure a : Pattern σ α).run l ↔ b = a ∧ rest = l := by
  rw [StateT.run_pure, List.pure_def, List.mem_singleton, Prod.mk.injEq]

theorem mem_atEnd [DecidableEq σ] {final : σ} {u : Unit} :
    (u, rest) ∈ (atEnd final).run l ↔ rest = l ∧ (l = [] ∨ l = [final]) := by
  change (u, rest) ∈ (if l = [] ∨ l = [final] then [((), l)] else []) ↔ _
  split
  · next h => simp [h]
  · next h => simp [h]

/-- The capture is settled where all ways capture the same. -/
theorem capture_eq_some_iff {m : Pattern σ α} {a : α}
    (h : ∀ a b rest rest', (a, rest) ∈ m.run l → (b, rest') ∈ m.run l → a = b) :
    m.capture l = some a ↔ ∃ rest, (a, rest) ∈ m.run l := by
  unfold capture
  constructor
  · intro hcapture
    obtain ⟨way, hway, rfl⟩ := Option.map_eq_some_iff.mp hcapture
    exact ⟨way.2, List.mem_of_head? hway⟩
  · rintro ⟨rest, hmem⟩
    cases hways : m.run l with
    | nil =>
      rw [hways] at hmem
      cases hmem
    | cons way ways =>
      have hfirst : (way.1, way.2) ∈ m.run l := by
        rw [hways]
        exact List.mem_cons_self
      rw [List.head?_cons, Option.map_some, h _ _ _ _ hfirst hmem]

/-- `m` captures the text it reads, and reads the texts of `L`. -/
def Reads (m : Pattern σ (List σ)) (L : List σ → Prop) : Prop :=
  ∀ l a rest, (a, rest) ∈ m.run l ↔ l = a ++ rest ∧ L a

theorem Reads.congr (hm : Reads m L) (h : ∀ a, L a ↔ M a) : Reads m M := by
  intro l a rest
  rw [hm, h]

theorem reads_one (p : σ → Bool) : Reads (one p) fun a => ∃ c, a = [c] ∧ p c = true := by
  intro l a rest
  cases l with
  | nil =>
    change (a, rest) ∈ [] ↔ _
    constructor
    · intro h
      cases h
    · rintro ⟨h, c, rfl, -⟩
      cases h
  | cons c l =>
    change (a, rest) ∈ (if p c then [([c], l)] else []) ↔ _
    split
    · next hc =>
      rw [List.mem_singleton, Prod.mk.injEq]
      constructor
      · rintro ⟨rfl, rfl⟩
        exact ⟨rfl, c, rfl, hc⟩
      · rintro ⟨h, d, rfl, -⟩
        obtain ⟨rfl, rfl⟩ := List.cons.inj h
        exact ⟨rfl, rfl⟩
    · next hc =>
      constructor
      · intro h
        cases h
      · rintro ⟨h, d, rfl, hd⟩
        obtain ⟨rfl, -⟩ := List.cons.inj h
        exact absurd hd hc

theorem reads_many (p : σ → Bool) : Reads (many p) fun a => ∀ c ∈ a, p c = true := by
  intro l
  induction l with
  | nil =>
    intro a rest
    change (a, rest) ∈ [([], [])] ↔ _
    rw [List.mem_singleton, Prod.mk.injEq]
    constructor
    · rintro ⟨rfl, rfl⟩
      exact ⟨rfl, by simp⟩
    · rintro ⟨h, -⟩
      exact List.append_eq_nil_iff.mp h.symm
  | cons c l ih =>
    intro a rest
    change (a, rest) ∈ (if p c then ((many p).run l).map (fun way => (c :: way.1, way.2)) ++
      [([], c :: l)] else [([], c :: l)]) ↔ _
    cases a with
    | nil =>
      split <;>
        simp only [List.mem_append, List.mem_map, List.mem_singleton, Prod.mk.injEq, reduceCtorEq,
          false_and, and_false, exists_false, false_or, true_and, List.nil_append,
          List.not_mem_nil, IsEmpty.forall_iff, implies_true, and_true, eq_comm]
    | cons d a =>
      have htaken := ih a rest
      split
      · next hc =>
        simp only [List.mem_append, List.mem_map, List.mem_singleton, Prod.mk.injEq,
          List.cons.injEq, reduceCtorEq, false_and, or_false, List.cons_append,
          List.forall_mem_cons]
        constructor
        · rintro ⟨way, hway, ⟨rfl, rfl⟩, rfl⟩
          have := (ih way.1 way.2).mp hway
          exact ⟨⟨rfl, this.1⟩, hc, this.2⟩
        · rintro ⟨⟨rfl, hl⟩, -, ha⟩
          exact ⟨(a, rest), htaken.mpr ⟨hl, ha⟩, ⟨rfl, rfl⟩, rfl⟩
      · next hc =>
        simp only [List.mem_singleton, Prod.mk.injEq, reduceCtorEq, false_and, false_iff]
        rintro ⟨h, hall⟩
        obtain ⟨rfl, -⟩ := List.cons.inj h
        exact hc (hall c List.mem_cons_self)

theorem Reads.append (hm : Reads m L) (hn : Reads n M) :
    Reads (m ++ n) fun a => ∃ x y, a = x ++ y ∧ L x ∧ M y := by
  intro l a rest
  change (a, rest) ∈ (do let x ← m; let y ← n; pure (x ++ y) : Pattern σ (List σ)).run l ↔ _
  simp only [mem_bind, mem_pure, hm _ _ _, hn _ _ _]
  constructor
  · rintro ⟨x, middle, ⟨rfl, hx⟩, y, _, ⟨rfl, hy⟩, rfl, rfl⟩
    exact ⟨(List.append_assoc x y _).symm, x, y, rfl, hx, hy⟩
  · rintro ⟨rfl, x, y, rfl, hx, hy⟩
    exact ⟨x, y ++ rest, ⟨List.append_assoc x y rest, hx⟩, y, rest, ⟨rfl, hy⟩, rfl, rfl⟩

theorem Reads.orElse (hm : Reads m L) (hn : Reads n M) :
    Reads (m <|> n) fun a => L a ∨ M a := by
  intro l a rest
  change (a, rest) ∈ m.run l ++ n.run l ↔ _
  rw [List.mem_append, hm, hn]
  tauto

theorem Reads.opt (hm : Reads m L) : Reads (opt m) fun a => L a ∨ a = [] := by
  apply hm.orElse
  intro l a rest
  rw [mem_pure]
  constructor
  · rintro ⟨rfl, rfl⟩
    exact ⟨rfl, rfl⟩
  · rintro ⟨rfl, rfl⟩
    exact ⟨rfl, rfl⟩

theorem reads_many1 (p : σ → Bool) :
    Reads (many1 p) fun a => a ≠ [] ∧ ∀ c ∈ a, p c = true := by
  apply ((reads_one p).append (reads_many p)).congr
  intro a
  constructor
  · rintro ⟨_, y, rfl, ⟨c, rfl, hc⟩, hy⟩
    exact ⟨by simp, List.forall_mem_cons.mpr ⟨hc, hy⟩⟩
  · rintro ⟨hne, hall⟩
    obtain ⟨c, y, rfl⟩ := List.exists_cons_of_ne_nil hne
    obtain ⟨hc, hy⟩ := List.forall_mem_cons.mp hall
    exact ⟨[c], y, rfl, ⟨c, rfl, hc⟩, hy⟩

end Ways

end Pattern
