import Mathlib.Data.List.Basic

/-!
# Machines with the same answers

A machine answers one input after the other. A relation between the states of two machines that
each step keeps, and under which the answers agree, makes all their answers agree.
-/
namespace Interleaving

structure Machine (Input Output : Type) where
  State : Type
  step : State → Input → Output × State

variable {Input Output : Type} {M N : Machine Input Output}

namespace Machine

def outputs (M : Machine Input Output) : M.State → List Input → List Output
  | _, [] => []
  | s, i :: is =>
    match M.step s i with
    | (output, s') => output :: M.outputs s' is

theorem outputs_cons (M : Machine Input Output) (s : M.State) (i : Input) (is : List Input) :
    M.outputs s (i :: is) = (M.step s i).1 :: M.outputs (M.step s i).2 is := rfl

/-- The state once the inputs have been answered. -/
def after (M : Machine Input Output) (s : M.State) (is : List Input) : M.State :=
  is.foldl (fun s i => (M.step s i).2) s

end Machine

/-- The relation `R` holds from step to step as long as the inputs are as assumed. -/
structure Simulates (M N : Machine Input Output) (R : M.State → N.State → Prop)
    (Assume : M.State → List Input → Prop) : Prop where
  output : ∀ {s t i is}, R s t → Assume s (i :: is) → (M.step s i).1 = (N.step t i).1
  related : ∀ {s t i is}, R s t → Assume s (i :: is) → R (M.step s i).2 (N.step t i).2
  assumed : ∀ {s t i is}, R s t → Assume s (i :: is) → Assume (M.step s i).2 is

section Runs

variable {R : M.State → N.State → Prop} {Assume : M.State → List Input → Prop} {s : M.State}
  {t : N.State} {is is' : List Input}

theorem Simulates.outputs_eq (h : Simulates M N R Assume) (hr : R s t) (ha : Assume s is) :
    M.outputs s is = N.outputs t is := by
  induction is generalizing s t with
  | nil => rfl
  | cons i is ih =>
    rw [Machine.outputs_cons, Machine.outputs_cons, h.output hr ha,
      ih (h.related hr ha) (h.assumed hr ha)]

theorem Simulates.after_related (h : Simulates M N R Assume) (hr : R s t)
    (ha : Assume s (is ++ is')) :
    R (M.after s is) (N.after t is) ∧ Assume (M.after s is) is' := by
  induction is generalizing s t with
  | nil => exact ⟨hr, ha⟩
  | cons i is ih => exact ih (h.related hr ha) (h.assumed hr ha)

end Runs

end Interleaving
