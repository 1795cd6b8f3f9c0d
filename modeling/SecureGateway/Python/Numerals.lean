import SecureGateway.Python.Numbers
import SecureGateway.Python.Unicode

/-!
# Decimal numerals

The texts of decimal numbers with what they denote, and that `float` reads each of them.
-/
namespace Python

/-- The interpreter's table of decimal digits. -/
structure DigitTable where
  decimal : Char → Option ℕ
  ascii : ∀ c, c.toNat < 128 → decimal c = asciiDecimal c
  notSpace : ∀ c, isSpace c = true → decimal c = none

/-- A table with ASCII digits only. -/
def DigitTable.asciiOnly : DigitTable where
  decimal := asciiDecimal
  ascii _ _ := rfl
  notSpace c hspace := by
    rw [asciiDecimal, if_neg]
    intro hdigit
    simp only [Char.isDigit, Bool.and_eq_true, decide_eq_true_eq, UInt32.le_iff_toNat_le] at hdigit
    have hlo : 48 ≤ c.toNat := hdigit.1
    have hhi : c.toNat ≤ 57 := hdigit.2
    simp only [isSpace, Bool.or_eq_true, Bool.and_eq_true, decide_eq_true_eq, beq_iff_eq] at hspace
    omega

inductive Sign where
  | none
  | plus
  | minus
  deriving DecidableEq, Repr

def Sign.text : Sign → List Char
  | none => []
  | plus => ['+']
  | minus => ['-']

structure Exponent (digit : Char → Bool) where
  mark : Char
  sign : Sign
  digits : List Char
  mark_e : mark = 'e' ∨ mark = 'E'
  digits_ne : digits ≠ []
  digits_all : ∀ c ∈ digits, digit c = true

/-- Digits with an optional point among them, an optional sign and an optional exponent. -/
structure Numeral (digit : Char → Bool) where
  sign : Sign
  whole : List Char
  fraction : Option (List Char)
  exponent : Option (Exponent digit)
  whole_all : ∀ c ∈ whole, digit c = true
  fraction_all : ∀ f ∈ fraction, ∀ c ∈ f, digit c = true
  digits_ne : whole ≠ [] ∨ fraction.getD [] ≠ []

section Texts

variable {digit more : Char → Bool}

namespace Exponent

variable (e : Exponent digit)

def text : List Char := e.mark :: (e.sign.text ++ e.digits)

def mono (h : ∀ c, digit c = true → more c = true) : Exponent more :=
  { e with digits_all := fun c hc => h c (e.digits_all c hc) }

def value (decimal : Char → Option ℕ) : ℤ :=
  match e.sign with
  | .minus => -(digitsValue decimal e.digits : ℤ)
  | _ => digitsValue decimal e.digits

end Exponent

/-- A fraction with its point. -/
def pointed : Option (List Char) → List Char
  | none => []
  | some f => '.' :: f

/-- An exponent with its mark. -/
def marked : Option (Exponent digit) → List Char
  | none => []
  | some e => e.text

namespace Numeral

variable (n : Numeral digit)

def fractionText : List Char := pointed n.fraction

def exponentText : List Char := marked n.exponent

def unsignedText : List Char := n.whole ++ (n.fractionText ++ n.exponentText)

def text : List Char := n.sign.text ++ n.unsignedText

/-- The same numeral where more characters count as digits. -/
def mono (h : ∀ c, digit c = true → more c = true) : Numeral more where
  sign := n.sign
  whole := n.whole
  fraction := n.fraction
  exponent := n.exponent.map fun e => e.mono h
  whole_all c hc := h c (n.whole_all c hc)
  fraction_all f hf c hc := h c (n.fraction_all f hf c hc)
  digits_ne := n.digits_ne

def scale (decimal : Char → Option ℕ) : ℤ :=
  match n.exponent with
  | none => 0
  | some e => e.value decimal

/-- What the unsigned numeral denotes. -/
def magnitude (decimal : Char → Option ℕ) : ℚ :=
  let fraction := n.fraction.getD []
  (digitsValue decimal (n.whole ++ fraction) : ℚ) * 10 ^ (n.scale decimal - (fraction.length : ℤ))

/-- The double nearest to the number. -/
def double (decimal : Char → Option ℕ) : Binary64 :=
  match n.sign with
  | .minus => (Binary64.ofRat (n.magnitude decimal)).neg
  | _ => Binary64.ofRat (n.magnitude decimal)

theorem text_mono (h : ∀ c, digit c = true → more c = true) : (n.mono h).text = n.text := by
  simp only [text, unsignedText, exponentText, mono]
  cases n.exponent <;> rfl

/-- A character of a numeral is a digit, a sign, the point or the mark of the exponent. -/
theorem mem_text {c : Char} (hc : c ∈ n.text) :
    digit c = true ∨ c ∈ ['+', '-', '.', 'e', 'E'] := by
  have hsign : ∀ s : Sign, c ∈ s.text → c ∈ ['+', '-', '.', 'e', 'E'] := by
    intro s hs
    cases s with
    | none => cases hs
    | plus => simp [List.mem_singleton.mp hs]
    | minus => simp [List.mem_singleton.mp hs]
  rcases List.mem_append.mp hc with hc | hc
  · exact Or.inr (hsign _ hc)
  rcases List.mem_append.mp hc with hc | hc
  · exact Or.inl (n.whole_all c hc)
  rcases List.mem_append.mp hc with hc | hc
  · unfold fractionText at hc
    cases hf : n.fraction with
    | none =>
      rw [hf] at hc
      cases hc
    | some f =>
      rw [hf] at hc
      rcases List.mem_cons.mp hc with rfl | hc
      · exact Or.inr (by decide)
      · exact Or.inl (n.fraction_all f hf c hc)
  · unfold exponentText at hc
    cases he : n.exponent with
    | none =>
      rw [he] at hc
      cases hc
    | some e =>
      rw [he] at hc
      rcases List.mem_cons.mp hc with rfl | hc
      · refine Or.inr ?_
        rcases e.mark_e with h | h <;> rw [h] <;> decide
      · rcases List.mem_append.mp hc with hc | hc
        · exact Or.inr (hsign _ hc)
        · exact Or.inl (e.digits_all c hc)

theorem isSpace_of_mem_text (h : ∀ c, digit c = true → isSpace c = false) {c : Char}
    (hc : c ∈ n.text) : isSpace c = false := by
  rcases n.mem_text hc with hdigit | hspecial
  · exact h c hdigit
  · have hall : ∀ d ∈ ['+', '-', '.', 'e', 'E'], isSpace d = false :=
      forall_mem_of_all (by decide)
    exact hall c hspecial

theorem exists_unsignedText :
    ∃ c rest, n.unsignedText = c :: rest ∧ (digit c = true ∨ c = '.') := by
  unfold unsignedText
  cases hw : n.whole with
  | cons c rest =>
    refine ⟨c, _, rfl, Or.inl (n.whole_all c ?_)⟩
    rw [hw]
    exact List.mem_cons_self
  | nil =>
    have hne := n.digits_ne
    unfold fractionText
    cases hf : n.fraction with
    | none => simp [hw, hf] at hne
    | some f => exact ⟨'.', f ++ n.exponentText, rfl, Or.inr rfl⟩

theorem text_ne_nil : n.text ≠ [] := by
  obtain ⟨c, rest, hcons, -⟩ := n.exists_unsignedText
  rw [text, hcons]
  simp

end Numeral

end Texts

theorem toNat_lt_of_isDigit {c : Char} (h : c.isDigit = true) : c.toNat < 128 := by
  simp only [Char.isDigit, Bool.and_eq_true, decide_eq_true_eq, UInt32.le_iff_toNat_le] at h
  have : c.toNat ≤ 57 := h.2
  omega

namespace DigitTable

variable (table : DigitTable) {c : Char}

/-- What the table says is a digit. -/
def isDigit (c : Char) : Bool := isDecimal table.decimal c

theorem isDigit_ascii (hc : c.toNat < 128) : table.isDigit c = c.isDigit := by
  rw [isDigit, isDecimal, table.ascii c hc, asciiDecimal]
  split
  · next h => rw [h, Option.isSome_some]
  · next h => rw [Bool.eq_false_iff.mpr h, Option.isSome_none]

theorem isDigit_of_isDigit (h : c.isDigit = true) : table.isDigit c = true := by
  rw [table.isDigit_ascii (toNat_lt_of_isDigit h), h]

theorem not_isSpace (h : table.isDigit c = true) : isSpace c = false := by
  cases hspace : isSpace c with
  | false => rfl
  | true =>
    rw [isDigit, isDecimal, table.notSpace c hspace] at h
    cases h

/-- Neither the signs, the point and the marks of a numeral nor the underscore are digits. -/
theorem isDigit_special (h : c ∈ ['+', '-', '.', 'e', 'E', '_']) : table.isDigit c = false := by
  have hall : ∀ d ∈ ['+', '-', '.', 'e', 'E', '_'], d.toNat < 128 ∧ d.isDigit = false :=
    forall_mem_of_all (by decide)
  rw [table.isDigit_ascii (hall c h).1, (hall c h).2]

/-- No digit and no point begins a word. -/
theorem toLower_ne (h : table.isDigit c = true ∨ c = '.') : c.toLower ≠ 'i' ∧ c.toLower ≠ 'n' := by
  by_cases hascii : c.toNat < 128
  · rw [table.isDigit_ascii hascii] at h
    exact forall_ascii
      (P := fun c => (c.isDigit = true ∨ c = '.') → c.toLower ≠ 'i' ∧ c.toLower ≠ 'n')
      (by decide) hascii h
  · have hsame : c.toLower = c := by
      unfold Char.toLower
      rw [dif_neg]
      rintro ⟨-, hle⟩
      have : c.toNat ≤ 'Z'.toNat := hle
      have hZ : 'Z'.toNat = 90 := rfl
      omega
    rw [hsame]
    constructor <;> rintro rfl <;> exact hascii (by decide)

end DigitTable

section Reading

variable {table : DigitTable} {cs ds : List Char} {previous : Char}

theorem stripNumber_of_forall (h : ∀ c ∈ cs, isSpace c = false) : stripNumber cs = cs := by
  have hnumber : ∀ c ∈ cs, isNumberSpace c = false := by
    intro c hc
    rw [isNumberSpace, h c hc, Bool.false_and]
  have hreverse : ∀ c ∈ cs.reverse, isNumberSpace c = false := by
    intro c hc
    exact hnumber c (List.mem_reverse.mp hc)
  rw [stripNumber, dropWhile_of_stopsAt (stopsAt_of_forall hnumber),
    dropWhile_of_stopsAt (stopsAt_of_forall hreverse), List.reverse_reverse]

theorem dropUnderscores_of_forall (decimal : Char → Option ℕ) (hprevious : previous ≠ '_')
    (h : ∀ c ∈ cs, c ≠ '_') : dropUnderscores decimal previous cs = some cs := by
  induction cs generalizing previous with
  | nil => rw [dropUnderscores, if_neg hprevious]
  | cons c cs ih =>
    obtain ⟨hc, hcs⟩ := List.forall_mem_cons.mp h
    have hkeep : ¬ (previous = '_' ∧ isDecimal decimal c = false) := fun h => hprevious h.1
    rw [dropUnderscores, if_neg hc, if_neg hkeep, ih hc hcs, Option.map_some]

theorem unsignedDigits_of_forall (hne : ds ≠ []) (h : ∀ c ∈ ds, table.isDigit c = true) :
    unsignedDigits table.decimal ds = some (digitsValue table.decimal ds : ℤ) := by
  have hall : ds.all (isDecimal table.decimal) = true := List.all_eq_true.mpr h
  rw [unsignedDigits, if_pos ⟨hne, hall⟩]

namespace Numeral

variable (n : Numeral table.isDigit)

theorem exponentValue_text :
    Python.exponentValue table.decimal n.exponentText = some (n.scale table.decimal) := by
  unfold exponentText scale
  cases n.exponent with
  | none => rfl
  | some e =>
    have hdigits := unsignedDigits_of_forall e.digits_ne e.digits_all
    dsimp only [marked, Exponent.text, Exponent.value]
    cases e.sign with
    | plus =>
      change exponentValue table.decimal (e.mark :: '+' :: e.digits) = _
      rw [exponentValue, if_pos e.mark_e, hdigits]
    | minus =>
      change exponentValue table.decimal (e.mark :: '-' :: e.digits) = _
      rw [exponentValue, if_pos e.mark_e, hdigits, Option.map_some]
    | none =>
      have hhead : ∀ c rest, e.digits = c :: rest → c ∉ ['+', '-', '.', 'e', 'E', '_'] := by
        intro c rest hcons hc
        have hdigit := e.digits_all c (by rw [hcons]; exact List.mem_cons_self)
        rw [table.isDigit_special hc] at hdigit
        cases hdigit
      change exponentValue table.decimal (e.mark :: e.digits) = _
      rw [exponentValue, if_pos e.mark_e, hdigits]
      · intro rest h
        exact hhead _ _ h (by decide)
      · intro rest h
        exact hhead _ _ h (by decide)

theorem stopsAt_exponentText : StopsAt table.isDigit n.exponentText := by
  unfold exponentText
  cases n.exponent with
  | none =>
    intro c hc
    cases hc
  | some e =>
    apply stopsAt_cons
    apply table.isDigit_special
    rcases e.mark_e with h | h <;> rw [h] <;> decide

theorem fractionAndExponent_text :
    fractionAndExponent table.decimal (n.fractionText ++ n.exponentText) =
      (n.fraction.getD [], n.exponentText) := by
  have hstop := n.stopsAt_exponentText
  unfold fractionText
  cases hf : n.fraction with
  | some f =>
    have hall := n.fraction_all f hf
    change (List.takeWhile table.isDigit (f ++ n.exponentText),
      List.dropWhile table.isDigit (f ++ n.exponentText)) = _
    rw [takeWhile_boundary hall hstop, dropWhile_boundary hall hstop,
      Option.getD_some]
  | none =>
    rw [pointed, List.nil_append, Option.getD_none, fractionAndExponent]
    intro rest hpoint
    unfold exponentText at hpoint
    cases he : n.exponent with
    | none =>
      rw [he] at hpoint
      cases hpoint
    | some e =>
      rw [he] at hpoint
      have hmark : e.mark = '.' := (List.cons.inj hpoint).1
      rcases e.mark_e with h | h <;> rw [h] at hmark <;> revert hmark <;> decide

theorem stopsAt_afterWhole : StopsAt table.isDigit (n.fractionText ++ n.exponentText) := by
  unfold fractionText
  cases n.fraction with
  | none => exact n.stopsAt_exponentText
  | some f => exact stopsAt_cons (table.isDigit_special (by decide))

theorem decimalValue_text :
    decimalValue table.decimal n.unsignedText = some (n.magnitude table.decimal) := by
  have hwhole : n.unsignedText.takeWhile (isDecimal table.decimal) = n.whole :=
    takeWhile_boundary n.whole_all n.stopsAt_afterWhole
  have hafter : n.unsignedText.dropWhile (isDecimal table.decimal) =
      n.fractionText ++ n.exponentText :=
    dropWhile_boundary n.whole_all n.stopsAt_afterWhole
  have hdigits : ¬ (n.whole = [] ∧ n.fraction.getD [] = []) := by
    rintro ⟨hw, hf⟩
    rcases n.digits_ne with h | h
    · exact h hw
    · exact h hf
  rw [decimalValue, hwhole, hafter, n.fractionAndExponent_text]
  dsimp only
  rw [if_neg hdigits, n.exponentValue_text, Option.map_some, magnitude]

theorem unsignedFloat_text :
    unsignedFloat table.decimal n.unsignedText = some (.ofRat (n.magnitude table.decimal)) := by
  obtain ⟨c, rest, hcons, hc⟩ := n.exists_unsignedText
  obtain ⟨hi, hn⟩ := table.toLower_ne hc
  have hword : ∀ d more, (c.toLower ≠ d) →
      String.ofList (n.unsignedText.map Char.toLower) ≠ String.ofList (d :: more) := by
    intro d more hd heq
    rw [hcons, List.map_cons, String.ofList_inj] at heq
    exact hd (List.cons.inj heq).1
  rw [unsignedFloat, if_neg, if_neg, n.decimalValue_text, Option.map_some]
  · exact hword 'n' _ hn
  · rintro (h | h)
    · exact hword 'i' _ hi h
    · exact hword 'i' _ hi h

/-- `float` reads every numeral as the double nearest to it. -/
theorem float_text :
    float table.decimal (String.ofList n.text) = some (n.double table.decimal) := by
  have hstrip : stripNumber n.text = n.text := by
    apply stripNumber_of_forall
    intro c hc
    exact n.isSpace_of_mem_text (fun _ => table.not_isSpace) hc
  have hdrop : dropUnderscores table.decimal '\x00' n.text = some n.text := by
    apply dropUnderscores_of_forall _ (by decide)
    rintro _ hc rfl
    rcases n.mem_text hc with hdigit | hspecial
    · rw [table.isDigit_special (by decide)] at hdigit
      cases hdigit
    · revert hspecial
      decide
  rw [float, String.toList_ofList, hstrip, hdrop, Option.bind_some, double, text]
  cases n.sign with
  | plus => exact n.unsignedFloat_text
  | minus =>
    change (unsignedFloat table.decimal n.unsignedText).map Binary64.neg = _
    rw [n.unsignedFloat_text, Option.map_some]
  | none =>
    obtain ⟨c, rest, hcons, hc⟩ := n.exists_unsignedText
    have hsign : ∀ d, d = '+' ∨ d = '-' → n.unsignedText.head? ≠ some d := by
      intro d hd hhead
      rw [hcons] at hhead
      obtain rfl : c = d := Option.some.inj hhead
      rcases hc with hdigit | rfl
      · rw [table.isDigit_special (by rcases hd with rfl | rfl <;> decide)] at hdigit
        cases hdigit
      · revert hd
        decide
    rw [Sign.text, List.nil_append]
    split
    · next h => exact absurd (by rw [h]; rfl) (hsign '+' (Or.inl rfl))
    · next h => exact absurd (by rw [h]; rfl) (hsign '-' (Or.inr rfl))
    · exact n.unsignedFloat_text

end Numeral

theorem digitsValue_congr {d d' : Char → Option ℕ} (h : ∀ c ∈ cs, d c = d' c) :
    digitsValue d cs = digitsValue d' cs := by
  apply List.foldl_ext
  intro n c hc
  rw [h c hc]

/-- An ASCII numeral denotes the same in every table. -/
theorem Numeral.double_mono (n : Numeral Char.isDigit) :
    (n.mono fun _ => table.isDigit_of_isDigit).double table.decimal = n.double asciiDecimal := by
  have hagree : ∀ cs : List Char, (∀ c ∈ cs, c.isDigit = true) →
      digitsValue table.decimal cs = digitsValue asciiDecimal cs := by
    intro cs hcs
    exact digitsValue_congr fun c hc => table.ascii c (toNat_lt_of_isDigit (hcs c hc))
  have hdigits : ∀ c ∈ n.whole ++ n.fraction.getD [], c.isDigit = true := by
    intro c hc
    rcases List.mem_append.mp hc with hc | hc
    · exact n.whole_all c hc
    · cases hf : n.fraction with
      | none =>
        rw [hf] at hc
        cases hc
      | some f =>
        rw [hf] at hc
        exact n.fraction_all f hf c hc
  have hscale : (n.mono fun _ => table.isDigit_of_isDigit).scale table.decimal =
      n.scale asciiDecimal := by
    simp only [scale, mono]
    cases n.exponent with
    | none => rfl
    | some e =>
      simp only [Option.map_some, Exponent.value, Exponent.mono]
      rw [hagree _ e.digits_all]
  have hmagnitude : (n.mono fun _ => table.isDigit_of_isDigit).magnitude table.decimal =
      n.magnitude asciiDecimal := by
    rw [magnitude, magnitude, hscale]
    simp only [mono]
    rw [hagree _ hdigits]
  rw [double, double, hmagnitude]
  rfl

end Reading

end Python
