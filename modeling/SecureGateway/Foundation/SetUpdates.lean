import Mathlib.Data.Set.Insert
import Mathlib.Data.List.Count
import Mathlib.Data.List.Induction

/-!
# Updates of a set

Insertions and removals of single elements, each of which reports whether it has changed the
set. True reports of one element alternate, so they can be counted against its membership.
-/
namespace SetUpdates

inductive Kind where
  | insertion
  | removal
  deriving DecidableEq

/-- An update and its report. -/
structure Update (α : Type) where
  kind : Kind
  item : α
  changed : Bool
  deriving DecidableEq

variable {α : Type} {s : Set α} {u : Update α} {us : List (Update α)} {a : α}

def Update.apply (s : Set α) (u : Update α) : Set α :=
  match u.kind with
  | .insertion => insert u.item s
  | .removal => s \ {u.item}

/-- An insertion changes a set without the element, a removal one with it. -/
def Update.Truthful (s : Set α) (u : Update α) : Prop :=
  match u.kind with
  | .insertion => u.changed = true ↔ u.item ∉ s
  | .removal => u.changed = true ↔ u.item ∈ s

def applyAll (s : Set α) (us : List (Update α)) : Set α := us.foldl Update.apply s

@[simp] theorem applyAll_nil : applyAll s [] = s := rfl

@[simp] theorem applyAll_snoc : applyAll s (us ++ [u]) = u.apply (applyAll s us) := by
  simp [applyAll]

theorem mem_apply_self : u.item ∈ u.apply s ↔ u.kind = .insertion := by
  unfold Update.apply
  cases u.kind <;> simp

/-- An update concerns its own element only. -/
theorem mem_apply_of_ne (h : a ≠ u.item) : a ∈ u.apply s ↔ a ∈ s := by
  unfold Update.apply
  cases u.kind <;> simp [h]

/-- Every report is true of the set its update met. -/
inductive Reports (s : Set α) : List (Update α) → Prop
  | nil : Reports s []
  | snoc {us : List (Update α)} {u : Update α} (h : Reports s us)
      (hu : u.Truthful (applyAll s us)) : Reports s (us ++ [u])

theorem Reports.snoc_inv (h : Reports s (us ++ [u])) :
    Reports s us ∧ u.Truthful (applyAll s us) := by
  generalize he : us ++ [u] = vs at h
  cases h with
  | nil => simp at he
  | snoc h hu =>
    obtain ⟨rfl, hlast⟩ := List.append_inj' he rfl
    cases hlast
    exact ⟨h, hu⟩

/-- Without a removal, an element that was ever inserted is there. -/
theorem mem_applyAll_of_inserted (hremoved : ∀ u ∈ us, u.item = a → u.kind = .insertion)
    (hinserted : ∃ u ∈ us, u.item = a) : a ∈ applyAll s us := by
  induction us using List.reverseRecOn with
  | nil => simp at hinserted
  | append_singleton us u ih =>
    rw [applyAll_snoc]
    by_cases hu : u.item = a
    · subst hu
      exact mem_apply_self.mpr (hremoved u (by simp) rfl)
    · rw [mem_apply_of_ne (Ne.symm hu)]
      obtain ⟨v, hv, hva⟩ := hinserted
      refine ih (fun v hv => hremoved v (List.mem_append_left _ hv)) ⟨v, ?_, hva⟩
      rcases List.mem_append.mp hv with hv | hv
      · exact hv
      · cases List.mem_singleton.mp hv
        exact (hu hva).elim

open scoped Classical in
/-- The insertions reported as changes and the removals reported as changes balance the
membership of the element. -/
theorem Reports.balance [DecidableEq α] (h : Reports s us) (a : α) :
    us.count ⟨.insertion, a, true⟩ + (if a ∈ s then 1 else 0) =
      us.count ⟨.removal, a, true⟩ + if a ∈ applyAll s us then 1 else 0 := by
  induction h with
  | nil => rfl
  | @snoc us u _ hu ih =>
    rw [List.count_append, List.count_append, applyAll_snoc]
    by_cases ha : u.item = a
    · subst ha
      simp only [mem_apply_self]
      obtain ⟨kind, item, changed⟩ := u
      cases kind <;> cases changed <;> simp_all [Update.Truthful]
      omega
    · have hne : ∀ k, u ≠ ⟨k, a, true⟩ := by
        rintro k rfl
        exact ha rfl
      simp only [mem_apply_of_ne (Ne.symm ha), List.count_singleton, beq_iff_eq, hne, if_false,
        Nat.add_zero]
      exact ih

/-- Of the insertions of one absent element exactly one reports a change. -/
theorem Reports.inserted_once [DecidableEq α] (h : Reports s us) (habsent : a ∉ s)
    (hremoved : ∀ u ∈ us, u.item = a → u.kind = .insertion)
    (hinserted : ∃ u ∈ us, u.item = a) : us.count ⟨.insertion, a, true⟩ = 1 := by
  classical
  have hbalance := h.balance a
  have hmem : a ∈ applyAll s us := mem_applyAll_of_inserted hremoved hinserted
  have hnone : us.count ⟨.removal, a, true⟩ = 0 := by
    rw [List.count_eq_zero]
    intro hu
    cases hremoved _ hu rfl
  simpa [habsent, hmem, hnone] using hbalance

end SetUpdates
