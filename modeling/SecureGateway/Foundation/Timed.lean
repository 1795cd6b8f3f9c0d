import Mathlib.Data.List.Pairwise
import Mathlib.Data.Int.Notation
import Mathlib.Data.Int.Order.Basic

/-!
# Timed machines and their simulation

A machine answers timed operations one at a time. Two machines related by a simulation that
survives the passing of time give the same replies on every run at non-decreasing times.
-/
namespace Timed

structure Machine (S Op Reply : Type) where
  step : S → ℤ → Op → Reply × S

variable {S S' Op Reply : Type}

namespace Machine

def replies (m : Machine S Op Reply) : S → List (ℤ × Op) → List Reply
  | _, [] => []
  | s, (t, op) :: ops => (m.step s t op).1 :: m.replies (m.step s t op).2 ops

end Machine

/-- The operations come at non-decreasing times, none before `t`. -/
def Ordered (t : ℤ) (ops : List (ℤ × Op)) : Prop := (t :: ops.map Prod.fst).Pairwise (· ≤ ·)

theorem Ordered.cons {t u : ℤ} {op : Op} {ops : List (ℤ × Op)} (h : Ordered t ((u, op) :: ops)) :
    t ≤ u ∧ Ordered u ops := by
  obtain ⟨htu, hs⟩ := List.pairwise_cons.mp h
  exact ⟨htu u List.mem_cons_self, hs⟩

/-- A relation between the states of two machines, indexed by the time it was last used at. -/
structure Simulation (m : Machine S Op Reply) (m' : Machine S' Op Reply) where
  Rel : S → S' → ℤ → Prop
  mono : ∀ {s s' t u}, Rel s s' t → t ≤ u → Rel s s' u
  step : ∀ {s s' t} (op : Op), Rel s s' t →
    (m.step s t op).1 = (m'.step s' t op).1 ∧ Rel (m.step s t op).2 (m'.step s' t op).2 t

variable {m : Machine S Op Reply} {m' : Machine S' Op Reply} (R : Simulation m m')

theorem Simulation.replies_eq {s : S} {s' : S'} {t : ℤ} {ops : List (ℤ × Op)}
    (hr : R.Rel s s' t) (ho : Ordered t ops) : m.replies s ops = m'.replies s' ops := by
  induction ops generalizing s s' t with
  | nil => rfl
  | cons c ops ih =>
    obtain ⟨u, op⟩ := c
    obtain ⟨htu, ho⟩ := ho.cons
    obtain ⟨hreply, hr⟩ := R.step op (R.mono hr htu)
    simp only [Machine.replies, hreply, ih hr ho]

/-- A run whose calls are marked: those that are kept, and those that are there in addition. -/
abbrev Marked (Op : Type) := List ((ℤ × Op) × Bool)

namespace Marked

def all (calls : Marked Op) : List (ℤ × Op) := calls.map Prod.fst

def kept (calls : Marked Op) : List (ℤ × Op) := (calls.filter Prod.snd).map Prod.fst

end Marked

/-- The replies to the kept calls, where the additional ones are made as well. -/
def Machine.repliesKept (m : Machine S Op Reply) : S → Marked Op → List Reply
  | _, [] => []
  | s, ((t, op), true) :: calls => (m.step s t op).1 :: m.repliesKept (m.step s t op).2 calls
  | s, ((t, op), false) :: calls => m.repliesKept (m.step s t op).2 calls

/-- States that no later call can tell apart, up to what `mask` hides of a reply. The calls
in `Skips` lead to such a state. -/
structure Indistinct (m : Machine S Op Reply) (mask : Reply → Reply) (Skips : Op → Prop) where
  Rel : S → S → ℤ → Prop
  mono : ∀ {s s' t u}, Rel s s' t → t ≤ u → Rel s s' u
  step : ∀ {s s' t} (op : Op), Rel s s' t →
    mask (m.step s t op).1 = mask (m.step s' t op).1 ∧ Rel (m.step s t op).2 (m.step s' t op).2 t
  skip : ∀ {s s' t op}, Skips op → Rel s s' t → Rel (m.step s t op).2 s' t

/-- Additional calls that lead to indistinct states are invisible to the kept ones. -/
theorem Indistinct.repliesKept_eq {mask : Reply → Reply} {Skips : Op → Prop}
    (I : Indistinct m mask Skips) {s s' : S} {t : ℤ} {calls : Marked Op} (hr : I.Rel s s' t)
    (ho : Ordered t calls.all) (hskips : ∀ c ∈ calls, c.2 = false → Skips c.1.2) :
    (m.repliesKept s calls).map mask = (m.replies s' calls.kept).map mask := by
  induction calls generalizing s s' t with
  | nil => rfl
  | cons c calls ih =>
    obtain ⟨⟨u, op⟩, keep⟩ := c
    obtain ⟨htu, hlater⟩ := ho.cons
    have hrest : ∀ c ∈ calls, c.2 = false → Skips c.1.2 :=
      fun c hc => hskips c (List.mem_cons_of_mem _ hc)
    cases keep with
    | true =>
      obtain ⟨hreply, hr⟩ := I.step op (I.mono hr htu)
      exact congrArg₂ List.cons hreply (ih hr hlater hrest)
    | false =>
      exact ih (I.skip (hskips _ List.mem_cons_self rfl) (I.mono hr htu)) hlater hrest

end Timed
