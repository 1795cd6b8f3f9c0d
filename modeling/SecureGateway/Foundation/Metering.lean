import Mathlib.Data.Int.ConditionallyCompleteOrder
import Mathlib.Data.List.Induction
import Mathlib.Order.Bounds.Image
import SecureGateway.Foundation.Reservoir

/-!
# Metered admission

A gate admits an arrival when its level holds one portion. If the level fills like a reservoir,
it is the least headroom over all windows of what was admitted: the gate admits exactly the
arrivals that keep every window within the capacity and the refill, and no choice of arrivals
that keeps every window so admits more of them.
-/
namespace Metering

section Windows

variable (capacity rate need : ℚ)

/-- What the window from `u` to `t` may still take after the admissions of `log`. -/
def headroom (log : List ℤ) (t u : ℤ) : ℚ :=
  capacity + rate * (t - u) - need * (log.countP (u ≤ ·) : ℕ)

/-- `x` is the least headroom of the windows that end at `t`. -/
def Tracks (log : List ℤ) (t : ℤ) (x : ℚ) : Prop :=
  IsLeast (Set.image (headroom capacity rate need log t) (Set.Iic t)) x

/-- No window takes more than the capacity and what its span refills. -/
def Conforms (log : List ℤ) : Prop :=
  ∀ u v, u ≤ v →
    need * (log.countP fun w => u ≤ w ∧ w ≤ v : ℕ) ≤ capacity + rate * (v - u)

end Windows

variable {capacity rate need : ℚ} {log : List ℤ} {t t' : ℤ} {x y : ℚ}

theorem countP_since_eq_zero (hlog : ∀ w ∈ log, w ≤ t) (htt' : t < t') :
    log.countP (t' ≤ ·) = 0 := by
  rw [List.countP_eq_zero]
  intro w hw
  have := hlog w hw
  simp only [decide_eq_true_eq]
  omega

theorem tracks_empty (hr : 0 ≤ rate) (t : ℤ) : Tracks capacity rate need [] t capacity := by
  refine ⟨⟨t, Set.self_mem_Iic, by simp [headroom]⟩, ?_⟩
  rintro _ ⟨u, hu, rfl⟩
  have hspan : (u : ℚ) ≤ t := by exact_mod_cast hu
  have := mul_nonneg hr (sub_nonneg.mpr hspan)
  simp only [headroom, List.countP_nil, Nat.cast_zero, mul_zero, sub_zero]
  linarith

theorem Tracks.le_capacity (h : Tracks capacity rate need log t x) (hn : 0 ≤ need) :
    x ≤ capacity := by
  have hx := h.2 ⟨t, Set.self_mem_Iic, rfl⟩
  have hdrawn : 0 ≤ need * (log.countP (t ≤ ·) : ℕ) := by positivity
  simp only [headroom, sub_self, mul_zero, add_zero] at hx
  linarith

/-- Time passes: every window grows by what the rate refills, and an empty one opens. -/
theorem Tracks.fill (h : Tracks capacity rate need log t x) (hn : 0 ≤ need) (hr : 0 ≤ rate)
    (hlog : ∀ w ∈ log, w ≤ t) (htt' : t ≤ t') :
    Tracks capacity rate need log t' (Reservoir.level capacity rate x (t' - t)) := by
  have hspan : (t : ℚ) ≤ t' := by exact_mod_cast htt'
  have hrefill := mul_nonneg hr (sub_nonneg.mpr hspan)
  have hlater : ∀ u, headroom capacity rate need log t' u =
      headroom capacity rate need log t u + (t' - t) * rate := by
    intro u
    simp only [headroom]
    ring
  constructor
  · rcases min_choice capacity (x + (t' - t) * rate) with hfull | hrising
    · -- The bucket is full: the window that opens now is the tightest.
      rw [Reservoir.level, hfull]
      rcases htt'.lt_or_eq with hlt | rfl
      · refine ⟨t', Set.self_mem_Iic, ?_⟩
        simp [headroom, countP_since_eq_zero hlog hlt]
      · have hx := h.le_capacity hn
        have hcap : capacity = x := by
          have := min_eq_left_iff.mp hfull
          linarith
        rw [hcap]
        exact hcap ▸ h.1
    · rw [Reservoir.level, hrising]
      obtain ⟨u, hu, hx⟩ := h.1
      exact ⟨u, le_trans hu htt', by rw [hlater, hx]⟩
  · rintro _ ⟨u, hu, rfl⟩
    rcases le_or_gt u t with hut | hut
    · rw [hlater]
      have := h.2 ⟨u, hut, rfl⟩
      exact (min_le_right _ _).trans (by linarith)
    · have hu' : (u : ℚ) ≤ t' := by exact_mod_cast hu
      have hgap := mul_nonneg hr (sub_nonneg.mpr hu')
      refine (min_le_left _ _).trans ?_
      simp only [headroom, countP_since_eq_zero hlog hut, Nat.cast_zero, mul_zero, sub_zero]
      linarith

/-- An admission takes one portion from every window that ends now. -/
theorem Tracks.draw (h : Tracks capacity rate need log t x) :
    Tracks capacity rate need (log ++ [t]) t (x - need) := by
  have hdrawn : ∀ u ≤ t, headroom capacity rate need (log ++ [t]) t u =
      headroom capacity rate need log t u - need := by
    intro u hu
    simp only [headroom, List.countP_append, List.countP_singleton, decide_eq_true hu, if_true,
      Nat.cast_add, Nat.cast_one]
    ring
  constructor
  · obtain ⟨u, hu, hx⟩ := h.1
    exact ⟨u, hu, by rw [hdrawn u hu, hx]⟩
  · rintro _ ⟨u, hu, rfl⟩
    rw [hdrawn u hu]
    linarith [h.2 ⟨u, hu, rfl⟩]

/-- A level holds an amount when every window does. -/
theorem Tracks.le_iff (h : Tracks capacity rate need log t x) :
    y ≤ x ↔ ∀ u ≤ t, y + need * (log.countP (u ≤ ·) : ℕ) ≤ capacity + rate * (t - u) := by
  rw [le_isGLB_iff h.isGLB, mem_lowerBounds, Set.forall_mem_image]
  constructor
  · intro hy u hu
    have := hy hu
    simp only [headroom] at this
    linarith
  · intro hy u hu
    have := hy u hu
    simp only [headroom]
    linarith

theorem Conforms.sublist {chosen : List ℤ} (h : Conforms capacity rate need log)
    (hn : 0 ≤ need) (hs : chosen.Sublist log) : Conforms capacity rate need chosen := by
  intro u v huv
  have hcount : ((chosen.countP fun w => u ≤ w ∧ w ≤ v : ℕ) : ℚ) ≤
      (log.countP fun w => u ≤ w ∧ w ≤ v : ℕ) := by
    exact_mod_cast hs.countP_le
  exact (mul_le_mul_of_nonneg_left hcount hn).trans (h u v huv)

theorem conforms_nil (hc : 0 ≤ capacity) (hr : 0 ≤ rate) : Conforms capacity rate need [] := by
  intro u v huv
  have hspan : (u : ℚ) ≤ v := by exact_mod_cast huv
  have := mul_nonneg hr (sub_nonneg.mpr hspan)
  simp only [List.countP_nil, Nat.cast_zero, mul_zero]
  linarith

theorem countP_window_of_le {u v : ℤ} (hlog : ∀ w ∈ log, w ≤ v) :
    (log.countP fun w => u ≤ w ∧ w ≤ v) = log.countP (u ≤ ·) := by
  apply List.countP_congr
  intro w hw
  simp [hlog w hw]

/-- A later admission has to fit the windows that end with it. -/
theorem conforms_concat_iff (hc : 0 ≤ capacity) (hr : 0 ≤ rate) (hn : 0 ≤ need)
    (hlog : ∀ w ∈ log, w ≤ t) :
    Conforms capacity rate need (log ++ [t]) ↔
      Conforms capacity rate need log ∧
        ∀ u ≤ t, need + need * (log.countP (u ≤ ·) : ℕ) ≤ capacity + rate * (t - u) := by
  have hall : ∀ w ∈ log ++ [t], w ≤ t := by simpa [or_imp, forall_and] using hlog
  have hdrawn : ∀ u ≤ t, (((log ++ [t]).countP (u ≤ ·) : ℕ) : ℚ) =
      (log.countP (u ≤ ·) : ℕ) + 1 := by
    intro u hu
    simp [List.countP_append, hu]
  constructor
  · intro h
    refine ⟨h.sublist hn (List.sublist_append_left log [t]), ?_⟩
    intro u hu
    have hwindow := h u t hu
    rw [countP_window_of_le hall, hdrawn u hu] at hwindow
    linarith
  · rintro ⟨h, hnew⟩ u v huv
    have hspan : (u : ℚ) ≤ v := by exact_mod_cast huv
    rcases lt_or_ge v t with hvt | htv
    · have hwindow := h u v huv
      simpa [List.countP_append, not_le.mpr hvt] using hwindow
    · rw [countP_window_of_le fun w hw => (hall w hw).trans htv]
      rcases le_or_gt u t with hut | htu
      · have hrefill : rate * t ≤ rate * v :=
          mul_le_mul_of_nonneg_left (by exact_mod_cast htv) hr
        have hfit := hnew u hut
        rw [hdrawn u hut]
        linarith
      · have hrefill := mul_nonneg hr (sub_nonneg.mpr hspan)
        rw [countP_since_eq_zero hall htu, Nat.cast_zero, mul_zero]
        linarith

/-- A gate moves its state on every arrival and admits some of them. -/
structure Gate (S : Type) where
  next : S → ℤ → S
  admits : S → ℤ → Bool

variable {S : Type} {g : Gate S} {horizon : ℤ} {s : S} {times : List ℤ}

def Gate.run (g : Gate S) (s : S) (times : List ℤ) : S := times.foldl g.next s

/-- The arrivals a gate admits. -/
def Gate.admitted (g : Gate S) : S → List ℤ → List ℤ
  | _, [] => []
  | s, t :: times =>
    if g.admits s t then t :: g.admitted (g.next s t) times else g.admitted (g.next s t) times

theorem Gate.run_concat (g : Gate S) (s : S) (times : List ℤ) (t : ℤ) :
    g.run s (times ++ [t]) = g.next (g.run s times) t := by
  simp [Gate.run]

theorem Gate.admitted_concat (g : Gate S) (s : S) (times : List ℤ) (t : ℤ) :
    g.admitted s (times ++ [t]) =
      g.admitted s times ++ if g.admits (g.run s times) t then [t] else [] := by
  induction times generalizing s with
  | nil => rfl
  | cons u times ih =>
    rw [List.cons_append, Gate.admitted, Gate.admitted, ih]
    have hrun : g.run s (u :: times) = g.run (g.next s u) times := rfl
    rw [hrun]
    split
    · rw [List.cons_append]
    · rfl

theorem Gate.admitted_sublist (g : Gate S) (s : S) (times : List ℤ) :
    (g.admitted s times).Sublist times := by
  induction times generalizing s with
  | nil => exact List.Sublist.slnil
  | cons t times ih =>
    rw [Gate.admitted]
    split
    · exact (ih _).cons_cons t
    · exact (ih _).cons t

/-- A gate whose level, up to a horizon, fills like a reservoir and pays for what it admits. -/
structure Meter (g : Gate S) (capacity rate need : ℚ) (horizon : ℤ) where
  Valid : S → ℤ → Prop
  level : S → ℤ → ℚ
  valid_next : ∀ {s t}, Valid s t → Valid (g.next s t) t
  valid_mono : ∀ {s t t'}, Valid s t → t ≤ t' → Valid s t'
  admits_iff : ∀ {s t}, Valid s t → t ≤ horizon → (g.admits s t = true ↔ need ≤ level s t)
  drains : ∀ {s t}, Valid s t → t ≤ horizon →
    level (g.next s t) t = Reservoir.draw need (level s t)
  fills : ∀ {s t t'}, Valid s t → t ≤ t' → t' ≤ horizon →
    level s t' = Reservoir.level capacity rate (level s t) (t' - t)

section Runs

variable (m : Meter g capacity rate need horizon) {t₀ : ℤ}

/-- What is known of a run from a full level, seen at a time after its last arrival. -/
structure Tracked (m : Meter g capacity rate need horizon) (s : S) (times : List ℤ) (t : ℤ) :
    Prop where
  valid : m.Valid (g.run s times) t
  tracks : Tracks capacity rate need (g.admitted s times) t (m.level (g.run s times) t)

theorem Meter.level_start (hr : 0 ≤ rate) (hv : m.Valid s t₀) (hfull : m.level s t₀ = capacity)
    (ht : t₀ ≤ t) (hh : t ≤ horizon) : m.level s t = capacity := by
  have hspan : (t₀ : ℚ) ≤ t := by exact_mod_cast ht
  have hrefill := mul_nonneg (sub_nonneg.mpr hspan) hr
  rw [m.fills hv ht hh, hfull, Reservoir.level, min_eq_left]
  linarith

theorem admitted_le (hs : ∀ w ∈ times, w ≤ t) : ∀ w ∈ g.admitted s times, w ≤ t :=
  fun w hw => hs w ((g.admitted_sublist s times).subset hw)

/-- The level at an arrival, and after it, in terms of what was admitted. -/
theorem Meter.tracks_next (hv : m.Valid s t) (hh : t ≤ horizon)
    (h : Tracks capacity rate need log t (m.level s t)) :
    Tracks capacity rate need (log ++ if g.admits s t then [t] else []) t
      (m.level (g.next s t) t) := by
  rw [m.drains hv hh, Reservoir.draw]
  by_cases ha : g.admits s t = true
  · rw [if_pos ha, if_pos ((m.admits_iff hv hh).mp ha)]
    exact h.draw
  · rw [if_neg ha, if_neg (mt (m.admits_iff hv hh).mpr ha), List.append_nil]
    exact h

theorem forall_le_of_sorted {t₀ : ℤ} (h : (t₀ :: (times ++ [t])).Pairwise (· ≤ ·)) :
    ∀ w ∈ times, w ≤ t := by
  intro w hw
  rw [← List.cons_append] at h
  exact (List.pairwise_append.mp h).2.2 w (List.mem_cons_of_mem _ hw) t (by simp)

/-- Arrivals in order, taken apart at the last one. -/
theorem sorted_concat {t₀ u : ℤ} (h : (t₀ :: (times ++ [u] ++ [t])).Pairwise (· ≤ ·)) :
    (t₀ :: (times ++ [u])).Pairwise (· ≤ ·) ∧ u ≤ t ∧ ∀ w ∈ times ++ [u], w ≤ u := by
  have hbefore := h.sublist ((List.sublist_append_left (times ++ [u]) [t]).cons_cons t₀)
  refine ⟨hbefore, forall_le_of_sorted h u (by simp), ?_⟩
  intro w hw
  rcases List.mem_append.mp hw with hw | hw
  · exact forall_le_of_sorted hbefore w hw
  · exact (List.mem_singleton.mp hw).le

/-- Along a run the level is the least headroom of what was admitted. -/
theorem Meter.tracked_run (hr : 0 ≤ rate) (hn : 0 ≤ need) (hv : m.Valid s t₀)
    (hfull : m.level s t₀ = capacity) (hsorted : (t₀ :: (times ++ [t])).Pairwise (· ≤ ·))
    (hh : t ≤ horizon) : Tracked m s times t := by
  induction times using List.reverseRecOn generalizing t with
  | nil =>
    have ht : t₀ ≤ t := by simpa using hsorted
    refine ⟨m.valid_mono hv ht, ?_⟩
    change Tracks capacity rate need [] t (m.level s t)
    rw [m.level_start hr hv hfull ht hh]
    exact tracks_empty hr t
  | append_singleton times u ih =>
    obtain ⟨hbefore, hut, hle⟩ := sorted_concat hsorted
    obtain ⟨hvu, hu⟩ := ih hbefore (hut.trans hh)
    have hnext := m.tracks_next hvu (hut.trans hh) hu
    have hvn := m.valid_next hvu
    rw [← Gate.admitted_concat] at hnext
    rw [← Gate.run_concat] at hnext hvn
    refine ⟨m.valid_mono hvn hut, ?_⟩
    rw [m.fills hvn hut hh]
    exact hnext.fill hn hr (admitted_le hle) hut

/-- An arrival is admitted if and only if it fits every window that ends with it. -/
theorem Meter.admits_run_iff (hr : 0 ≤ rate) (hn : 0 ≤ need) (hv : m.Valid s t₀)
    (hfull : m.level s t₀ = capacity) (hsorted : (t₀ :: (times ++ [t])).Pairwise (· ≤ ·))
    (hh : t ≤ horizon) :
    g.admits (g.run s times) t = true ↔
      ∀ u ≤ t, need + need * ((g.admitted s times).countP (u ≤ ·) : ℕ) ≤
        capacity + rate * (t - u) := by
  obtain ⟨hvt, ht⟩ := m.tracked_run hr hn hv hfull hsorted hh
  rw [m.admits_iff hvt hh, ht.le_iff]

theorem Meter.conforms_admitted (hc : 0 ≤ capacity) (hr : 0 ≤ rate) (hn : 0 ≤ need)
    (hv : m.Valid s t₀) (hfull : m.level s t₀ = capacity)
    (hsorted : (t₀ :: times).Pairwise (· ≤ ·)) (hh : ∀ t ∈ times, t ≤ horizon) :
    Conforms capacity rate need (g.admitted s times) := by
  induction times using List.reverseRecOn with
  | nil => exact conforms_nil hc hr
  | append_singleton times t ih =>
    have hbefore := hsorted.sublist ((List.sublist_append_left times [t]).cons_cons t₀)
    have hconforms := ih hbefore fun u hu => hh u (by simp [hu])
    rw [Gate.admitted_concat]
    split
    · rename_i ha
      rw [conforms_concat_iff hc hr hn (admitted_le (forall_le_of_sorted hsorted))]
      exact ⟨hconforms,
        (m.admits_run_iff hr hn hv hfull hsorted (hh t (by simp))).mp ha⟩
    · rwa [List.append_nil]

/-- An arrival is admitted if and only if the admitted ones still conform with it. -/
theorem Meter.admits_run_iff_conforms (hc : 0 ≤ capacity) (hr : 0 ≤ rate) (hn : 0 ≤ need)
    (hv : m.Valid s t₀) (hfull : m.level s t₀ = capacity)
    (hsorted : (t₀ :: (times ++ [t])).Pairwise (· ≤ ·)) (hh : t ≤ horizon) :
    g.admits (g.run s times) t = true ↔
      Conforms capacity rate need (g.admitted s times ++ [t]) := by
  have hle := forall_le_of_sorted hsorted
  have hbefore := hsorted.sublist ((List.sublist_append_left times [t]).cons_cons t₀)
  have hlog := m.conforms_admitted hc hr hn hv hfull hbefore fun u hu => (hle u hu).trans hh
  rw [conforms_concat_iff hc hr hn (admitted_le hle), m.admits_run_iff hr hn hv hfull hsorted hh]
  exact ⟨fun h => ⟨hlog, h⟩, fun h => h.2⟩

/-- Nothing of a stream that conforms is turned away. -/
theorem Meter.admitted_eq (hc : 0 ≤ capacity) (hr : 0 ≤ rate) (hn : 0 ≤ need)
    (hv : m.Valid s t₀) (hfull : m.level s t₀ = capacity)
    (hsorted : (t₀ :: times).Pairwise (· ≤ ·)) (hh : ∀ t ∈ times, t ≤ horizon)
    (hconforms : Conforms capacity rate need times) : g.admitted s times = times := by
  induction times using List.reverseRecOn with
  | nil => rfl
  | append_singleton times t ih =>
    have hbefore := hsorted.sublist ((List.sublist_append_left times [t]).cons_cons t₀)
    have hall := ih hbefore (fun u hu => hh u (by simp [hu]))
      (hconforms.sublist hn (List.sublist_append_left times [t]))
    have ha : g.admits (g.run s times) t = true := by
      rw [m.admits_run_iff_conforms hc hr hn hv hfull hsorted (hh t (by simp)), hall]
      exact hconforms
    rw [Gate.admitted_concat, hall, if_pos ha]

/-- A lead in what was admitted, counting what is left, survives the refill. -/
theorem level_lead {c a : ℕ} {d : ℚ} (hn : 0 ≤ need) (hca : c ≤ a)
    (h : y + need * c ≤ x + need * a) :
    Reservoir.level capacity rate y d + need * c ≤
      Reservoir.level capacity rate x d + need * a := by
  have hcount : need * (c : ℚ) ≤ need * a := mul_le_mul_of_nonneg_left (by exact_mod_cast hca) hn
  rcases min_choice capacity (x + d * rate) with hx | hx
  · have hy : Reservoir.level capacity rate y d ≤ capacity := min_le_left _ _
    rw [Reservoir.level, Reservoir.level, hx]
    rw [Reservoir.level] at hy
    linarith
  · have hy : Reservoir.level capacity rate y d ≤ y + d * rate := min_le_right _ _
    rw [Reservoir.level, Reservoir.level, hx]
    rw [Reservoir.level] at hy
    linarith

/-- What a conforming choice has admitted and could still admit, against the gate. -/
def Leads (m : Meter g capacity rate need horizon) (s : S) (times chosen : List ℤ) (t : ℤ) :
    Prop :=
  ∃ y, Tracks capacity rate need chosen t y ∧ chosen.length ≤ (g.admitted s times).length ∧
    y + need * chosen.length ≤
      m.level (g.run s times) t + need * (g.admitted s times).length

/-- The gate trades its level for admissions at par. -/
theorem Meter.level_next (hv : m.Valid s t) (hh : t ≤ horizon) :
    m.level (g.next s t) t + need * ((if g.admits s t then [t] else []).length : ℕ) =
      m.level s t := by
  rw [m.drains hv hh, Reservoir.draw]
  by_cases ha : g.admits s t = true
  · rw [if_pos ha, if_pos ((m.admits_iff hv hh).mp ha)]
    simp
  · rw [if_neg ha, if_neg (mt (m.admits_iff hv hh).mpr ha)]
    simp

/-- The lead survives an arrival that the choice skips. -/
theorem Leads.skip {chosen : List ℤ} (h : Leads m s times chosen t)
    (hv : m.Valid (g.run s times) t) (hh : t ≤ horizon) :
    Leads m s (times ++ [t]) chosen t := by
  obtain ⟨y, hy, hlength, hlead⟩ := h
  have hpar := m.level_next hv hh
  rw [Leads, Gate.admitted_concat, Gate.run_concat, List.length_append]
  refine ⟨y, hy, by omega, ?_⟩
  push_cast at hpar ⊢
  linarith

/-- It survives one that the choice takes: where the gate lacks a portion it is ahead. -/
theorem Leads.take {chosen : List ℤ} (h : Leads m s times chosen t) (hc : 0 ≤ capacity)
    (hr : 0 ≤ rate) (hn : 0 ≤ need) (hle : ∀ w ∈ chosen, w ≤ t)
    (hconforms : Conforms capacity rate need (chosen ++ [t]))
    (hv : m.Valid (g.run s times) t) (hh : t ≤ horizon) :
    Leads m s (times ++ [t]) (chosen ++ [t]) t := by
  obtain ⟨y, hy, hlength, hlead⟩ := h
  have hportion : need ≤ y :=
    hy.le_iff.mpr ((conforms_concat_iff hc hr hn hle).mp hconforms).2
  have hpar := m.level_next hv hh
  rw [Leads, Gate.admitted_concat, Gate.run_concat, List.length_append, List.length_append]
  refine ⟨y - need, hy.draw, ?_, ?_⟩
  · by_cases ha : g.admits (g.run s times) t = true
    · rw [if_pos ha]
      exact Nat.add_le_add_right hlength 1
    · have hlevel : m.level (g.run s times) t < need :=
        not_le.mp (mt (m.admits_iff hv hh).mpr ha)
      have hahead : need * (chosen.length : ℚ) < need * (g.admitted s times).length := by linarith
      have hlt : (chosen.length : ℚ) < (g.admitted s times).length :=
        lt_of_mul_lt_mul_left hahead hn
      have hlt : chosen.length < (g.admitted s times).length := by exact_mod_cast hlt
      rw [List.length_singleton]
      omega
  · push_cast at hpar ⊢
    rw [List.length_singleton]
    push_cast
    linarith

theorem Meter.leads_run (hc : 0 ≤ capacity) (hr : 0 ≤ rate) (hn : 0 ≤ need) (hv : m.Valid s t₀)
    (hfull : m.level s t₀ = capacity) (hsorted : (t₀ :: (times ++ [t])).Pairwise (· ≤ ·))
    (hh : t ≤ horizon) {chosen : List ℤ} (hs : chosen.Sublist times)
    (hconforms : Conforms capacity rate need chosen) : Leads m s times chosen t := by
  induction times using List.reverseRecOn generalizing t chosen with
  | nil =>
    have ht : t₀ ≤ t := by simpa using hsorted
    rw [List.sublist_nil.mp hs]
    refine ⟨capacity, tracks_empty hr t, le_rfl, ?_⟩
    change capacity + need * ((0 : ℕ) : ℚ) ≤ m.level s t + need * ((0 : ℕ) : ℚ)
    rw [m.level_start hr hv hfull ht hh]
  | append_singleton times u ih =>
    obtain ⟨hbefore, hut, hle⟩ := sorted_concat hsorted
    have hu := hut.trans hh
    have hvu := (m.tracked_run hr hn hv hfull hbefore hu).valid
    -- The lead right after the arrival; the refill up to `t` keeps it.
    have hnow : Leads m s (times ++ [u]) chosen u := by
      obtain ⟨c, e, rfl, hct, hes⟩ := List.sublist_append_iff.mp hs
      have hlead := ih hbefore hu hct (hconforms.sublist hn (List.sublist_append_left c e))
      rcases List.sublist_singleton.mp hes with rfl | rfl
      · rw [List.append_nil]
        exact hlead.skip m hvu hu
      · have hcle : ∀ w ∈ c, w ≤ u := fun w hw => hle w (hs.subset (by simp [hw]))
        exact hlead.take m hc hr hn hcle hconforms hvu hu
    obtain ⟨y, hy, hlength, hlead⟩ := hnow
    have hvn := m.valid_next hvu
    rw [← Gate.run_concat] at hvn
    have hcle : ∀ w ∈ chosen, w ≤ u := fun w hw => hle w (hs.subset hw)
    refine ⟨_, hy.fill hn hr hcle hut, hlength, ?_⟩
    rw [m.fills hvn hut hh]
    exact level_lead hn hlength hlead

/-- No conforming choice among the arrivals serves more of them than the gate. -/
theorem Meter.length_le_admitted (hc : 0 ≤ capacity) (hr : 0 ≤ rate) (hn : 0 ≤ need)
    (hv : m.Valid s t₀) (hfull : m.level s t₀ = capacity)
    (hsorted : (t₀ :: times).Pairwise (· ≤ ·)) (hh : ∀ t ∈ times, t ≤ horizon)
    {chosen : List ℤ} (hs : chosen.Sublist times) (hconforms : Conforms capacity rate need chosen) :
    chosen.length ≤ (g.admitted s times).length := by
  rcases times.eq_nil_or_concat with rfl | ⟨before, t, rfl⟩
  · rw [List.sublist_nil.mp hs]
    exact le_rfl
  · rw [List.concat_eq_append] at *
    -- Compare both right after the last arrival.
    have hlast : (t₀ :: (before ++ [t] ++ [t])).Pairwise (· ≤ ·) := by
      rw [← List.cons_append]
      refine List.pairwise_append.mpr ⟨hsorted, List.pairwise_singleton _ _, ?_⟩
      intro w hw v hv
      rw [List.mem_singleton.mp hv]
      rcases List.mem_cons.mp hw with rfl | hw
      · exact (List.pairwise_cons.mp hsorted).1 t (by simp)
      · rcases List.mem_append.mp hw with hw | hw
        · exact forall_le_of_sorted hsorted w hw
        · exact (List.mem_singleton.mp hw).le
    obtain ⟨-, -, hlength, -⟩ :=
      m.leads_run hc hr hn hv hfull hlast (hh t (by simp)) hs hconforms
    exact hlength

end Runs

end Metering
