import SecureGateway.Python.Text

/-!
# The interpreter's Unicode tables

Case mapping and NFKC normalisation come from tables of the interpreter. The model takes them
as parameters and relies on their documented behaviour on ASCII text only.
-/
namespace Python

def isAscii (s : String) : Bool := s.toList.all fun c => c.toNat < 128

structure Unicode where
  /-- `str.upper`. -/
  upper : String → String
  /-- `str.lower`. -/
  lower : String → String
  /-- `str.casefold`. -/
  casefold : String → String
  /-- `unicodedata.normalize("NFKC", ·)`. -/
  nfkc : String → String
  upper_ascii : ∀ s, isAscii s = true → upper s = s.toUpper
  lower_ascii : ∀ s, isAscii s = true → lower s = s.toLower
  casefold_ascii : ∀ s, isAscii s = true → casefold s = s.toLower
  nfkc_ascii : ∀ s, isAscii s = true → nfkc s = s

/-- Tables that know ASCII letters only. -/
def Unicode.ascii : Unicode where
  upper := String.toUpper
  lower := String.toLower
  casefold := String.toLower
  nfkc := id
  upper_ascii _ _ := rfl
  lower_ascii _ _ := rfl
  casefold_ascii _ _ := rfl
  nfkc_ascii _ _ := rfl

/-- `unicodedata.normalize("NFKC", s).strip().casefold()`, common to every name of the gateway. -/
def Unicode.canonical (u : Unicode) (s : String) : String := u.casefold (strip (u.nfkc s))

/-- A character that none of the three steps changes or drops. -/
def isPlain (c : Char) : Bool := c.toNat < 128 && !isSpace c && !c.isUpper

section Plain

variable {s : String}

/-- A property of ASCII characters, shown for each of them. -/
theorem forall_ascii {P : Char → Prop} (h : ∀ n < 128, P (Char.ofNat n)) {c : Char}
    (hc : c.toNat < 128) : P c := by
  rw [← Char.ofNat_toNat c]
  exact h c.toNat hc

theorem isAscii_of_plain (h : s.toList.all isPlain = true) : isAscii s = true := by
  rw [isAscii, List.all_eq_true]
  intro c hc
  have hplain := List.all_eq_true.mp h c hc
  simp only [isPlain, Bool.and_eq_true] at hplain
  exact hplain.1.1

theorem strip_of_plain (h : s.toList.all isPlain = true) : strip s = s := by
  have hspace : ∀ c ∈ s.toList, isSpace c = false := by
    intro c hc
    have hplain := List.all_eq_true.mp h c hc
    simp only [isPlain, Bool.and_eq_true, Bool.not_eq_true'] at hplain
    exact hplain.1.2
  have hstrip := strip_of_stopsAt (stopsAt_of_forall hspace)
    (stopsAt_of_forall fun c hc => hspace c (List.mem_reverse.mp hc))
  rwa [String.ofList_toList] at hstrip

theorem toLower_of_plain (h : s.toList.all isPlain = true) : s.toLower = s := by
  rw [← String.toList_inj]
  change (s.map Char.toLower).toList = s.toList
  rw [String.toList_map]
  refine (List.map_congr_left fun c hc => ?_).trans (List.map_id _)
  have hplain := List.all_eq_true.mp h c hc
  have hascii : c.toNat < 128 := by
    simp only [isPlain, Bool.and_eq_true, decide_eq_true_eq] at hplain
    exact hplain.1.1
  exact forall_ascii (P := fun c => isPlain c = true → c.toLower = id c) (by decide) hascii hplain

end Plain

theorem Unicode.canonical_of_ascii (u : Unicode) {s : String} (ha : isAscii s = true)
    (hs : strip s = s) (hl : s.toLower = s) : u.canonical s = s := by
  rw [canonical, u.nfkc_ascii s ha, hs, u.casefold_ascii s ha, hl]

theorem Unicode.canonical_of_plain (u : Unicode) {s : String}
    (h : s.toList.all isPlain = true) : u.canonical s = s :=
  u.canonical_of_ascii (isAscii_of_plain h) (strip_of_plain h) (toLower_of_plain h)

end Python
