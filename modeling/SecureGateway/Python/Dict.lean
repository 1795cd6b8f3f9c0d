import Mathlib.Data.List.Basic
import Mathlib.Data.List.Nodup

/-! Dictionaries with string keys and values, in insertion order. -/
namespace Python

abbrev Dict := List (String × String)

namespace Dict

/-- `d[k] = v`: an existing key keeps its place. -/
def set (d : Dict) (k v : String) : Dict :=
  if d.any (·.1 = k) then d.map fun e => if e.1 = k then (k, v) else e else d ++ [(k, v)]

/-- A dictionary built from pairs one after the other. -/
def ofPairs (pairs : List (String × String)) : Dict := pairs.foldl (fun d e => d.set e.1 e.2) []

/-- `d.update(e)`. -/
def update (d e : Dict) : Dict := e.foldl (fun d x => d.set x.1 x.2) d

variable {d e : Dict} {k v : String} {x : String × String}

def keys (d : Dict) : List String := d.map Prod.fst

theorem fresh_of_any (h : ¬ d.any (·.1 = k) = true) : ∀ y ∈ d, y.1 ≠ k := by
  intro y hy hyk
  exact h (List.any_eq_true.mpr ⟨y, hy, decide_eq_true hyk⟩)

theorem mem_set : x ∈ d.set k v ↔ x = (k, v) ∨ (x ∈ d ∧ x.1 ≠ k) := by
  unfold set
  split
  · next hany =>
    obtain ⟨y, hy, hyk⟩ := List.any_eq_true.mp hany
    have hyk : y.1 = k := of_decide_eq_true hyk
    rw [List.mem_map]
    constructor
    · rintro ⟨z, hz, rfl⟩
      by_cases hzk : z.1 = k
      · rw [if_pos hzk]
        exact Or.inl rfl
      · rw [if_neg hzk]
        exact Or.inr ⟨hz, hzk⟩
    · rintro (rfl | ⟨hx, hxk⟩)
      · exact ⟨y, hy, if_pos hyk⟩
      · exact ⟨x, hx, if_neg hxk⟩
  · next hany =>
    rw [List.mem_append, List.mem_singleton]
    constructor
    · rintro (hx | rfl)
      · exact Or.inr ⟨hx, fresh_of_any hany x hx⟩
      · exact Or.inl rfl
    · rintro (rfl | ⟨hx, -⟩)
      · exact Or.inr rfl
      · exact Or.inl hx

theorem mem_keys_set {n : String} : n ∈ (d.set k v).keys ↔ n = k ∨ n ∈ d.keys := by
  simp only [keys, List.mem_map]
  constructor
  · rintro ⟨x, hx, rfl⟩
    rcases mem_set.mp hx with rfl | ⟨hx, -⟩
    · exact Or.inl rfl
    · exact Or.inr ⟨x, hx, rfl⟩
  · rintro (rfl | ⟨x, hx, rfl⟩)
    · exact ⟨_, mem_set.mpr (Or.inl rfl), rfl⟩
    · by_cases hxk : x.1 = k
      · exact ⟨_, mem_set.mpr (Or.inl rfl), hxk.symm⟩
      · exact ⟨x, mem_set.mpr (Or.inr ⟨hx, hxk⟩), rfl⟩

theorem nodup_keys_set (h : d.keys.Nodup) : (d.set k v).keys.Nodup := by
  unfold set keys
  split
  · rw [List.map_map]
    have hsame : (Prod.fst ∘ fun e : String × String => if e.1 = k then (k, v) else e) =
        Prod.fst := by
      funext e
      by_cases hek : e.1 = k
      · simp [hek]
      · simp [hek]
    rw [hsame]
    exact h
  · next hany =>
    rw [List.map_append, List.nodup_append]
    refine ⟨h, by simp, ?_⟩
    intro a ha b hb
    obtain ⟨y, hy, rfl⟩ := List.mem_map.mp ha
    cases List.mem_singleton.mp hb
    exact fresh_of_any hany y hy

theorem update_cons (d : Dict) (x : String × String) (e : Dict) :
    d.update (x :: e) = (d.set x.1 x.2).update e := rfl

theorem mem_keys_update {n : String} : n ∈ (d.update e).keys ↔ n ∈ d.keys ∨ n ∈ e.keys := by
  induction e generalizing d with
  | nil => simp [update, keys]
  | cons x e ih =>
    rw [update_cons, ih, mem_keys_set]
    simp only [keys, List.map_cons, List.mem_cons]
    tauto

theorem nodup_keys_update (h : d.keys.Nodup) : (d.update e).keys.Nodup := by
  induction e generalizing d with
  | nil => exact h
  | cons x e ih => exact ih (nodup_keys_set h)

/-- Every entry comes from one of the two, one of the first only without a later namesake. -/
theorem mem_of_mem_update (h : x ∈ d.update e) : x ∈ e ∨ (x ∈ d ∧ x.1 ∉ e.keys) := by
  induction e generalizing d with
  | nil => exact Or.inr ⟨h, by simp [keys]⟩
  | cons y e ih =>
    rcases ih h with hx | ⟨hx, hkey⟩
    · exact Or.inl (List.mem_cons_of_mem _ hx)
    · rcases mem_set.mp hx with rfl | ⟨hx, hne⟩
      · exact Or.inl List.mem_cons_self
      · refine Or.inr ⟨hx, ?_⟩
        simp only [keys, List.map_cons, List.mem_cons, not_or]
        exact ⟨hne, hkey⟩

/-- An entry without a later namesake stays. -/
theorem mem_update_left (h : x ∈ d) (hkey : x.1 ∉ e.keys) : x ∈ d.update e := by
  induction e generalizing d with
  | nil => exact h
  | cons y e ih =>
    simp only [keys, List.map_cons, List.mem_cons, not_or] at hkey
    exact ih (mem_set.mpr (Or.inr ⟨h, hkey.1⟩)) hkey.2

/-- Among distinct keys every entry of the second is taken over. -/
theorem mem_update_right (he : e.keys.Nodup) (h : x ∈ e) : x ∈ d.update e := by
  induction e generalizing d with
  | nil => cases h
  | cons y e ih =>
    simp only [keys, List.map_cons, List.nodup_cons] at he
    rw [update_cons]
    rcases List.mem_cons.mp h with rfl | hx
    · exact mem_update_left (mem_set.mpr (Or.inl rfl)) he.1
    · exact ih he.2 hx

/-- Two entries of one key are the same entry. -/
theorem eq_of_key_eq (hd : d.keys.Nodup) {y : String × String} (hx : x ∈ d) (hy : y ∈ d)
    (hkey : x.1 = y.1) : x = y :=
  List.inj_on_of_nodup_map hd hx hy hkey

/-- At most one entry where all that qualify have one key. -/
theorem countP_le_one {P : String × String → Bool} (hd : d.keys.Nodup)
    (hkey : ∀ x ∈ d, P x = true → x.1 = k) : d.countP P ≤ 1 := by
  rw [List.countP_eq_length_filter]
  have hnodup : (d.filter P).Nodup := (List.Nodup.of_map _ hd).filter _
  rcases hlist : d.filter P with _ | ⟨x, _ | ⟨y, rest⟩⟩
  · simp
  · simp
  · have hx := List.mem_filter.mp (hlist ▸ List.mem_cons_self : x ∈ d.filter P)
    have hy := List.mem_filter.mp
      (hlist ▸ List.mem_cons_of_mem _ List.mem_cons_self : y ∈ d.filter P)
    have heq : x = y :=
      eq_of_key_eq hd hx.1 hy.1 ((hkey x hx.1 hx.2).trans (hkey y hy.1 hy.2).symm)
    rw [hlist, heq] at hnodup
    simp at hnodup

theorem filter_eq_singleton {P : String × String → Bool} (hd : d.keys.Nodup) (hx : x ∈ d)
    (hP : P x = true) (hkey : ∀ y ∈ d, P y = true → y.1 = x.1) : d.filter P = [x] := by
  have hle := countP_le_one hd hkey
  rw [List.countP_eq_length_filter] at hle
  have hmem : x ∈ d.filter P := List.mem_filter.mpr ⟨hx, hP⟩
  obtain ⟨y, hy⟩ := List.length_eq_one_iff.mp (Nat.le_antisymm hle (List.length_pos_of_mem hmem))
  rw [hy] at hmem ⊢
  rw [List.mem_singleton.mp hmem]

section OfPairs

variable {pairs : List (String × String)}

theorem nodup_keys_ofPairs (pairs : List (String × String)) : (ofPairs pairs).keys.Nodup :=
  nodup_keys_update (d := []) List.nodup_nil

theorem mem_of_mem_ofPairs (h : x ∈ ofPairs pairs) : x ∈ pairs := by
  rcases mem_of_mem_update (d := []) h with hx | ⟨hx, -⟩
  · exact hx
  · cases hx

theorem exists_mem_ofPairs (h : x ∈ pairs) : ∃ w, (x.1, w) ∈ ofPairs pairs := by
  have hkey : x.1 ∈ (update [] pairs).keys :=
    mem_keys_update.mpr (Or.inr (List.mem_map_of_mem h))
  obtain ⟨y, hy, hyx⟩ := List.mem_map.mp hkey
  exact ⟨y.2, by rw [← hyx]; exact hy⟩

/-- No pair is lost where namesakes agree. -/
theorem forall_mem_ofPairs_iff :
    (∀ x ∈ pairs, x ∈ ofPairs pairs) ↔ ∀ a ∈ pairs, ∀ b ∈ pairs, a.1 = b.1 → a.2 = b.2 := by
  constructor
  · intro h a ha b hb hkey
    rw [eq_of_key_eq (nodup_keys_ofPairs pairs) (h a ha) (h b hb) hkey]
  · intro h x hx
    obtain ⟨w, hw⟩ := exists_mem_ofPairs hx
    have hval : x.2 = w := h x hx _ (mem_of_mem_ofPairs hw) rfl
    rw [← hval] at hw
    exact hw

end OfPairs

end Dict

end Python
