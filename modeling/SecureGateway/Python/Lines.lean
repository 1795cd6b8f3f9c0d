import Mathlib.Data.List.Basic
import Mathlib.Data.String.Basic

/-! Lines of a text file, as `read_text` and `str.splitlines` see them. -/
namespace Python

/-- Universal newlines: a carriage return, with or without a newline behind it, is a newline. -/
def newlines : List Char → List Char
  | [] => []
  | c :: rest =>
    if c = '\r' then
      if rest.head? = some '\n' then newlines rest else '\n' :: newlines rest
    else c :: newlines rest

/-- Where `str.splitlines` ends a line. -/
def isLineBoundary (c : Char) : Bool :=
  let n := c.toNat
  (0x0a ≤ n && n ≤ 0x0d) || (0x1c ≤ n && n ≤ 0x1e) || n == 0x85 || n == 0x2028 || n == 0x2029

def prepend (c : Char) : List (List Char) → List (List Char)
  | [] => [[c]]
  | line :: lines => (c :: line) :: lines

/-- `str.splitlines()`. -/
def splitlines : List Char → List (List Char)
  | [] => []
  | c :: rest =>
    -- Of a carriage return and a newline, the newline ends the line.
    if c = '\r' ∧ rest.head? = some '\n' then splitlines rest
    else if isLineBoundary c then [] :: splitlines rest
    else prepend c (splitlines rest)

/-- `path.read_text().splitlines()` of a file with this text. -/
def readLines (text : String) : List String :=
  (splitlines (newlines text.toList)).map String.ofList

/-- Nothing, or whole lines. -/
def WholeLines (text : String) : Prop := text = "" ∨ ∃ t, text = t ++ "\n"

/-- Nothing, or the end of a line and what follows it. -/
def AfterLine (text : String) : Prop := text = "" ∨ ∃ t, text = "\n" ++ t

section Characters

variable {a b l line : List Char} {c : Char}

theorem newlines_cons (c : Char) (l : List Char) :
    newlines (c :: l) =
      if c = '\r' then
        if l.head? = some '\n' then newlines l else '\n' :: newlines l
      else c :: newlines l := rfl

theorem newlines_append (h : a.getLast? ≠ some '\r') :
    newlines (a ++ b) = newlines a ++ newlines b := by
  induction a with
  | nil => rfl
  | cons c a ih =>
    cases a with
    | nil =>
      have hc : c ≠ '\r' := fun hc => h (by rw [hc]; rfl)
      simp [newlines, hc]
    | cons d a =>
      have hlast : (d :: a).getLast? ≠ some '\r' := by rwa [List.getLast?_cons_cons] at h
      have hhead : (d :: a ++ b).head? = (d :: a).head? := rfl
      rw [List.cons_append, newlines_cons, newlines_cons, ih hlast, hhead]
      split_ifs <;> rfl

theorem newlines_ends (a : List Char) : ∃ t, newlines (a ++ ['\n']) = t ++ ['\n'] := by
  induction a with
  | nil => exact ⟨[], rfl⟩
  | cons c a ih =>
    obtain ⟨t, ht⟩ := ih
    rw [List.cons_append, newlines_cons, ht]
    split_ifs
    · exact ⟨t, rfl⟩
    · exact ⟨'\n' :: t, rfl⟩
    · exact ⟨c :: t, rfl⟩

theorem newlines_of_boundaryless (h : ∀ c ∈ l, isLineBoundary c = false) : newlines l = l := by
  induction l with
  | nil => rfl
  | cons c l ih =>
    obtain ⟨hc, hl⟩ := List.forall_mem_cons.mp h
    have hne : c ≠ '\r' := by
      rintro rfl
      revert hc
      decide
    rw [newlines_cons, if_neg hne, ih hl]

theorem prepend_ne_nil (c : Char) (lines : List (List Char)) : prepend c lines ≠ [] := by
  cases lines <;> simp [prepend]

theorem prepend_append {lines more : List (List Char)} (h : lines ≠ []) :
    prepend c (lines ++ more) = prepend c lines ++ more := by
  cases lines with
  | nil => exact absurd rfl h
  | cons line lines => rfl

theorem splitlines_ne_nil (h : l ≠ []) : splitlines l ≠ [] := by
  induction l with
  | nil => exact absurd rfl h
  | cons c l ih =>
    rw [splitlines]
    split_ifs with hcr
    · apply ih
      rintro rfl
      simp at hcr
    · simp
    · exact prepend_ne_nil c _

/-- A line ends at a newline whatever follows. -/
theorem splitlines_append (a b : List Char) :
    splitlines (a ++ '\n' :: b) = splitlines (a ++ ['\n']) ++ splitlines b := by
  induction a with
  | nil => rfl
  | cons c a ih =>
    have hhead : (a ++ '\n' :: b).head? = (a ++ ['\n']).head? := by cases a <;> rfl
    rw [List.cons_append, List.cons_append, splitlines, splitlines, hhead, ih]
    split_ifs
    · rfl
    · rfl
    · exact prepend_append (splitlines_ne_nil (by simp))

theorem splitlines_of_boundaryless (h : ∀ c ∈ l, isLineBoundary c = false) (hne : l ≠ []) :
    splitlines l = [l] := by
  induction l with
  | nil => exact absurd rfl hne
  | cons c l ih =>
    obtain ⟨hc, hl⟩ := List.forall_mem_cons.mp h
    have hcr : ¬ (c = '\r' ∧ l.head? = some '\n') := by
      rintro ⟨rfl, -⟩
      revert hc
      decide
    rw [splitlines, if_neg hcr, hc, if_neg (by decide)]
    cases l with
    | nil => rfl
    | cons d l => rw [ih hl (by simp), prepend]

theorem splitlines_line (h : ∀ c ∈ l, isLineBoundary c = false) (hne : l ≠ []) :
    splitlines (l ++ '\n' :: b) = l :: splitlines b := by
  induction l with
  | nil => exact absurd rfl hne
  | cons c l ih =>
    obtain ⟨hc, hl⟩ := List.forall_mem_cons.mp h
    have hcr : ¬ (c = '\r' ∧ (l ++ '\n' :: b).head? = some '\n') := by
      rintro ⟨rfl, -⟩
      revert hc
      decide
    rw [List.cons_append, splitlines, if_neg hcr, hc, if_neg (by decide)]
    cases l with
    | nil => rfl
    | cons d l => rw [ih hl (by simp), prepend]

theorem boundaryless_of_mem_splitlines (h : line ∈ splitlines l) :
    ∀ c ∈ line, isLineBoundary c = false := by
  induction l generalizing line with
  | nil => cases h
  | cons c l ih =>
    rw [splitlines] at h
    split_ifs at h with hcr hc
    · exact ih h
    · rcases List.mem_cons.mp h with rfl | h
      · simp
      · exact ih h
    · have hc : isLineBoundary c = false := Bool.eq_false_iff.mpr hc
      cases hlines : splitlines l with
      | nil =>
        rw [hlines] at h
        obtain rfl : line = [c] := List.mem_singleton.mp h
        intro d hd
        obtain rfl : d = c := List.mem_singleton.mp hd
        exact hc
      | cons first lines =>
        rw [hlines] at h ih
        rcases List.mem_cons.mp h with rfl | h
        · exact List.forall_mem_cons.mpr ⟨hc, ih List.mem_cons_self⟩
        · exact ih (List.mem_cons_of_mem _ h)

end Characters

section Files

variable {before line after rest : String}

theorem toList_newline : ("\n" : String).toList = ['\n'] := rfl

theorem boundaryless_of_mem_readLines {text : String} (h : line ∈ readLines text) :
    ∀ c ∈ line.toList, isLineBoundary c = false := by
  obtain ⟨l, hl, rfl⟩ := List.mem_map.mp h
  rw [String.toList_ofList]
  exact boundaryless_of_mem_splitlines hl

theorem readLines_append (h : WholeLines before) :
    readLines (before ++ rest) = readLines before ++ readLines rest := by
  rcases h with rfl | ⟨t, rfl⟩
  · rw [String.empty_append]
    rfl
  · obtain ⟨u, hu⟩ := newlines_ends t.toList
    have hlast : (t.toList ++ ['\n']).getLast? ≠ some '\r' := by simp
    have hsplit := splitlines_append u (newlines rest.toList)
    simp only [readLines, String.toList_append, toList_newline]
    rw [newlines_append hlast, hu, List.append_assoc, List.singleton_append, hsplit,
      List.map_append]

theorem readLines_newline (text : String) : readLines ("\n" ++ text) = "" :: readLines text := by
  simp only [readLines, String.toList_append, toList_newline, List.singleton_append]
  rfl

/-- A line without a boundary inside stays a line. -/
theorem readLines_line (hline : ∀ c ∈ line.toList, isLineBoundary c = false)
    (hne : line.toList ≠ []) (text : String) :
    readLines (line ++ ("\n" ++ text)) = line :: readLines text := by
  have hlast : line.toList.getLast? ≠ some '\r' := by
    intro hlast
    have hcr := hline '\r' (List.mem_of_getLast? hlast)
    revert hcr
    decide
  simp only [readLines, String.toList_append, toList_newline, List.singleton_append]
  rw [newlines_append hlast, newlines_of_boundaryless hline]
  change (splitlines (line.toList ++ '\n' :: newlines text.toList)).map _ = _
  rw [splitlines_line hline hne, List.map_cons, String.ofList_toList]

theorem readLines_last (hline : ∀ c ∈ line.toList, isLineBoundary c = false)
    (hne : line.toList ≠ []) : readLines line = [line] := by
  rw [readLines, newlines_of_boundaryless hline, splitlines_of_boundaryless hline hne,
    List.map_singleton, String.ofList_toList]

/-- Behind a line of its own come lines of what follows. -/
theorem exists_readLines (hline : ∀ c ∈ line.toList, isLineBoundary c = false)
    (hne : line.toList ≠ []) (h : AfterLine after) :
    ∃ later, readLines (line ++ after) = line :: later ∧ ∀ raw ∈ later, raw ∈ readLines after := by
  rcases h with rfl | ⟨text, rfl⟩
  · rw [String.append_empty]
    exact ⟨[], readLines_last hline hne, by simp⟩
  · refine ⟨readLines text, readLines_line hline hne text, ?_⟩
    intro raw hraw
    rw [readLines_newline]
    exact List.mem_cons_of_mem _ hraw

end Files

end Python
