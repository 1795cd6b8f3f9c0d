import Mathlib.Data.Nat.Digits.Defs
import Mathlib.Tactic.Common

/-!
# Flat JSON objects as text

Objects whose values are strings and numbers, in compact form: what `json.dumps` writes with
`separators=(",", ":")` and `ensure_ascii=False`, and a reader for such texts. The reader gets
back what was written, and what is written is a single line.
-/
namespace JsonText

def isNumberChar (c : Char) : Bool := c.isDigit || c ∈ ['-', '+', '.', 'e', 'E']

/-- A number as it is written. -/
structure Number where
  text : List Char
  text_ne : text ≠ []
  isNumber : text.all isNumberChar = true
  deriving DecidableEq

inductive Scalar where
  | string (s : List Char)
  | number (n : Number)
  deriving DecidableEq

structure Member where
  key : List Char
  value : Scalar
  deriving DecidableEq

section Integers

/-- An integer as `json.dumps` writes it. -/
def intText (i : ℤ) : List Char :=
  if i < 0 then '-' :: Nat.toDigits 10 i.natAbs else Nat.toDigits 10 i.natAbs

theorem intText_ne (i : ℤ) : intText i ≠ [] := by
  unfold intText
  split
  · exact List.cons_ne_nil _ _
  · exact Nat.toDigits_ne_nil

theorem intText_isNumber (i : ℤ) : (intText i).all isNumberChar = true := by
  have hdigits : ∀ c ∈ Nat.toDigits 10 i.natAbs, isNumberChar c = true := by
    intro c hc
    rw [isNumberChar, Nat.isDigit_of_mem_toDigits (by omega) le_rfl hc, Bool.true_or]
  have hminus : isNumberChar '-' = true := by decide
  rw [List.all_eq_true]
  unfold intText
  split
  · intro c hc
    rcases List.mem_cons.mp hc with rfl | hc
    · exact hminus
    · exact hdigits c hc
  · exact hdigits

def Number.ofInt (i : ℤ) : Number := ⟨intText i, intText_ne i, intText_isNumber i⟩

theorem toDigits_ne_minus (n : ℕ) (rest : List Char) : Nat.toDigits 10 n ≠ '-' :: rest := by
  intro h
  have hdigit : ('-' : Char).isDigit = true :=
    Nat.isDigit_of_mem_toDigits (b := 10) (n := n) (by omega) le_rfl (by rw [h]; simp)
  have hnot : ('-' : Char).isDigit = false := by decide
  rw [hnot] at hdigit
  cases hdigit

theorem toDigits_inj {m n : ℕ} (h : Nat.toDigits 10 m = Nat.toDigits 10 n) : m = n := by
  have hm := Nat.ofDigitChars_ten_toDigits (n := m)
  rw [h, Nat.ofDigitChars_ten_toDigits] at hm
  exact hm.symm

theorem ofInt_inj {i j : ℤ} (h : Number.ofInt i = Number.ofInt j) : i = j := by
  have htext : intText i = intText j := congrArg Number.text h
  unfold intText at htext
  split at htext
  · split at htext
    · have := toDigits_inj (List.cons.inj htext).2
      omega
    · exact (toDigits_ne_minus _ _ htext.symm).elim
  · split at htext
    · exact (toDigits_ne_minus _ _ htext).elim
    · have := toDigits_inj htext
      omega

end Integers

section Writing

/-- `json.encoder.ESCAPE_DCT`, and `\uXXXX` for the other control characters. -/
def escapeChar (c : Char) : List Char :=
  if c = '"' then ['\\', '"']
  else if c = '\\' then ['\\', '\\']
  else if c = '\n' then ['\\', 'n']
  else if c = '\r' then ['\\', 'r']
  else if c = '\t' then ['\\', 't']
  else if c = '\x08' then ['\\', 'b']
  else if c = '\x0c' then ['\\', 'f']
  else if c.toNat < 0x20 then
    ['\\', 'u', '0', '0', Nat.digitChar (c.toNat / 16), Nat.digitChar (c.toNat % 16)]
  else [c]

def writeString (s : List Char) : List Char := '"' :: (s.flatMap escapeChar ++ ['"'])

def Scalar.write : Scalar → List Char
  | .string s => writeString s
  | .number n => n.text

def Member.write (m : Member) : List Char := writeString m.key ++ ':' :: m.value.write

def writeMembers : List Member → List Char
  | [] => []
  | [m] => m.write
  | m :: ms => m.write ++ ',' :: writeMembers ms

def dumps (members : List Member) : List Char := '{' :: (writeMembers members ++ ['}'])

end Writing

section Reading

def hexValue (c : Char) : Option ℕ := (List.range 16).find? fun d => Nat.digitChar d = c

/-- A code point that is no surrogate. -/
def unicodeEscape (a b c d : Char) : Option Char := do
  let code := ((← hexValue a) * 16 + (← hexValue b)) * 256 + (← hexValue c) * 16 + (← hexValue d)
  if code.isValidChar then some (Char.ofNat code) else none

def shortEscape (c : Char) : Option Char :=
  [('"', '"'), ('\\', '\\'), ('/', '/'), ('b', '\x08'), ('f', '\x0c'), ('n', '\n'), ('r', '\r'),
    ('t', '\t')].lookup c

/-- The characters up to the closing quote, and what follows it. -/
def readString : List Char → Option (List Char × List Char)
  | [] => none
  | c :: rest =>
    if c = '"' then some ([], rest)
    else if c = '\\' then
      match rest with
      | [] => none
      | e :: rest =>
        if e = 'u' then
          match rest with
          | a :: b :: c :: d :: rest =>
            (unicodeEscape a b c d).bind fun x => (readString rest).map (Prod.map (x :: ·) id)
          | _ => none
        else (shortEscape e).bind fun x => (readString rest).map (Prod.map (x :: ·) id)
    else if c.toNat < 0x20 then none
    else (readString rest).map (Prod.map (c :: ·) id)

def readNumber (text : List Char) : Option (Scalar × List Char) :=
  let digits := text.takeWhile isNumberChar
  if h : digits ≠ [] then
    some (.number ⟨digits, h, List.all_takeWhile⟩, text.dropWhile isNumberChar)
  else none

def readScalar : List Char → Option (Scalar × List Char)
  | '"' :: rest => (readString rest).map (Prod.map .string id)
  | text => readNumber text

def readMember : List Char → Option (Member × List Char)
  | '"' :: rest => do
    let (key, rest) ← readString rest
    match rest with
    | ':' :: rest =>
      let (value, rest) ← readScalar rest
      return (⟨key, value⟩, rest)
    | _ => none
  | _ => none

/-- The members up to the closing brace; at most `fuel` of them. -/
def readMembers : ℕ → List Char → Option (List Member × List Char)
  | 0, _ => none
  | fuel + 1, text => do
    let (m, rest) ← readMember text
    match rest with
    | '}' :: rest => return ([m], rest)
    | ',' :: rest =>
      let (ms, rest) ← readMembers fuel rest
      return (m :: ms, rest)
    | _ => none

def loads : List Char → Option (List Member)
  | '{' :: rest =>
    if rest = ['}'] then some []
    else do
      let (ms, rest) ← readMembers rest.length rest
      if rest = [] then return ms else none
  | _ => none

/-- The value under a name; `dict` keeps one for each. -/
def lookup (ms : List Member) (key : List Char) : Option Scalar :=
  (ms.find? fun m => m.key = key).map Member.value

end Reading

section RoundTrip

variable {c : Char} {s tail : List Char} {m : Member} {ms : List Member}

theorem hexValue_digitChar {d : ℕ} (h : d < 16) : hexValue (Nat.digitChar d) = some d := by
  revert d
  decide

theorem unicodeEscape_control (h : c.toNat < 0x20) :
    unicodeEscape '0' '0' (Nat.digitChar (c.toNat / 16)) (Nat.digitChar (c.toNat % 16)) =
      some c := by
  have hzero : hexValue '0' = some 0 := by decide
  have hcode : 16 * (c.toNat / 16) + c.toNat % 16 = c.toNat := Nat.div_add_mod _ _
  have hcode' : c.toNat / 16 * 16 + c.toNat % 16 = c.toNat := by omega
  have hvalid : c.toNat.isValidChar := c.valid
  simp [unicodeEscape, hzero, hexValue_digitChar (show c.toNat / 16 < 16 by omega),
    hexValue_digitChar (show c.toNat % 16 < 16 by omega), hcode', hvalid]

theorem readString_quote (rest : List Char) : readString ('"' :: rest) = some ([], rest) := by
  rw [readString.eq_def]
  exact if_pos rfl

theorem readString_plain (hq : c ≠ '"') (hb : c ≠ '\\') (hc : ¬ c.toNat < 0x20)
    (rest : List Char) :
    readString (c :: rest) = (readString rest).map (Prod.map (c :: ·) id) := by
  rw [readString.eq_def]
  simp only [if_neg hq, if_neg hb, if_neg hc]

theorem readString_short {e x : Char} (he : e ≠ 'u') (hx : shortEscape e = some x)
    (rest : List Char) :
    readString ('\\' :: e :: rest) = (readString rest).map (Prod.map (x :: ·) id) := by
  have hslash : ¬ ('\\' : Char) = '"' := by decide
  rw [readString.eq_def]
  simp only [if_neg hslash, if_true, if_neg he, hx, Option.bind_some]

theorem readString_unicode {a b d e x : Char} (hx : unicodeEscape a b d e = some x)
    (rest : List Char) :
    readString ('\\' :: 'u' :: a :: b :: d :: e :: rest) =
      (readString rest).map (Prod.map (x :: ·) id) := by
  have hslash : ¬ ('\\' : Char) = '"' := by decide
  rw [readString.eq_def]
  simp only [if_neg hslash, if_true, hx, Option.bind_some]

/-- One written character is read back, whatever follows it. -/
theorem readString_escapeChar (c : Char) (rest : List Char) :
    readString (escapeChar c ++ rest) = (readString rest).map (Prod.map (c :: ·) id) := by
  unfold escapeChar
  split_ifs with hquote hslash hn hr ht hb hf hcontrol
  · subst hquote
    exact readString_short (by decide) (by decide) rest
  · subst hslash
    exact readString_short (by decide) (by decide) rest
  · subst hn
    exact readString_short (by decide) (by decide) rest
  · subst hr
    exact readString_short (by decide) (by decide) rest
  · subst ht
    exact readString_short (by decide) (by decide) rest
  · subst hb
    exact readString_short (by decide) (by decide) rest
  · subst hf
    exact readString_short (by decide) (by decide) rest
  · exact readString_unicode (unicodeEscape_control hcontrol) rest
  · exact readString_plain hquote hslash hcontrol rest

theorem readString_write (s tail : List Char) :
    readString (s.flatMap escapeChar ++ '"' :: tail) = some (s, tail) := by
  induction s with
  | nil => exact readString_quote tail
  | cons c s ih =>
    rw [List.flatMap_cons, List.append_assoc, readString_escapeChar, ih]
    rfl

/-- What may follow a value: something that is no part of a number. -/
def Delimited (tail : List Char) : Prop := ∀ c, tail.head? = some c → isNumberChar c = false

theorem readNumber_write (n : Number) (h : Delimited tail) :
    readNumber (n.text ++ tail) = some (.number n, tail) := by
  have hall : ∀ c ∈ n.text, isNumberChar c = true := List.all_eq_true.mp n.isNumber
  have htake : (n.text ++ tail).takeWhile isNumberChar = n.text := by
    rw [List.takeWhile_append_of_pos hall]
    cases tail with
    | nil => simp
    | cons c tail => simp [h c rfl]
  have hdrop : (n.text ++ tail).dropWhile isNumberChar = tail := by
    rw [List.dropWhile_append_of_pos hall]
    cases tail with
    | nil => rfl
    | cons c tail => simp [h c rfl]
  simp only [readNumber, htake, hdrop, ne_eq, n.text_ne, not_false_eq_true, dif_pos]

/-- A number does not open with a quote. -/
theorem Number.text_cons (n : Number) : ∃ c rest, n.text = c :: rest ∧ c ≠ '"' := by
  obtain ⟨c, rest, hn⟩ := List.exists_cons_of_ne_nil n.text_ne
  refine ⟨c, rest, hn, ?_⟩
  rintro rfl
  have hall := n.isNumber
  rw [hn, List.all_cons] at hall
  have hquote : isNumberChar '"' = false := by decide
  rw [hquote] at hall
  cases hall

theorem readScalar_write (v : Scalar) (h : Delimited tail) :
    readScalar (v.write ++ tail) = some (v, tail) := by
  cases v with
  | string s =>
    rw [Scalar.write, writeString, List.cons_append, List.append_assoc, readScalar]
    rw [List.singleton_append, readString_write]
    rfl
  | number n =>
    obtain ⟨c, rest, hn, hc⟩ := n.text_cons
    have hread : readScalar (n.text ++ tail) = readNumber (n.text ++ tail) := by
      rw [hn, List.cons_append]
      exact readScalar.eq_2 _ fun rest' he => hc (List.cons.inj he).1
    rw [Scalar.write, hread, readNumber_write n h]

theorem readMember_write (m : Member) (h : Delimited tail) :
    readMember (m.write ++ tail) = some (m, tail) := by
  rw [Member.write, writeString, List.append_assoc, List.cons_append, List.append_assoc,
    List.singleton_append, readMember, readString_write]
  simp only [Option.bind_eq_bind, Option.bind_some, List.cons_append, readScalar_write m.value h]
  rfl

theorem delimited_cons (hc : isNumberChar c = false) : Delimited (c :: tail) := by
  intro x hx
  cases hx
  exact hc

theorem writeMembers_cons_cons (m m' : Member) (ms : List Member) :
    writeMembers (m :: m' :: ms) = m.write ++ ',' :: writeMembers (m' :: ms) := by
  rw [writeMembers]
  simp

theorem readMembers_write (hne : ms ≠ []) {fuel : ℕ} (hfuel : ms.length ≤ fuel)
    (tail : List Char) :
    readMembers fuel (writeMembers ms ++ '}' :: tail) = some (ms, tail) := by
  induction ms generalizing fuel with
  | nil => exact (hne rfl).elim
  | cons m ms ih =>
    obtain ⟨fuel, rfl⟩ : ∃ k, fuel = k + 1 := ⟨fuel - 1, by simp at hfuel; omega⟩
    cases ms with
    | nil =>
      rw [writeMembers, readMembers, readMember_write m (delimited_cons (by decide))]
      rfl
    | cons m' ms =>
      have hlength : (m' :: ms).length ≤ fuel := by simpa using hfuel
      have hrest := ih (by simp) hlength
      rw [writeMembers_cons_cons, List.append_assoc, List.cons_append, readMembers,
        readMember_write m (delimited_cons (by decide))]
      simp only [Option.bind_eq_bind, Option.bind_some, hrest]
      rfl

theorem length_le_writeMembers (ms : List Member) : ms.length ≤ (writeMembers ms).length := by
  induction ms with
  | nil => simp
  | cons m ms ih =>
    cases ms with
    | nil => simp [writeMembers, Member.write, writeString]
    | cons m' ms =>
      simp only [writeMembers_cons_cons, List.length_append, List.length_cons] at ih ⊢
      omega

theorem writeMembers_quote (m : Member) (ms : List Member) :
    ∃ rest, writeMembers (m :: ms) = '"' :: rest := by
  cases ms with
  | nil => exact ⟨_, rfl⟩
  | cons m' ms =>
    rw [writeMembers_cons_cons]
    exact ⟨_, rfl⟩

/-- The reader gets back what was written. -/
theorem loads_dumps (ms : List Member) : loads (dumps ms) = some ms := by
  cases hms : ms with
  | nil => rfl
  | cons m rest =>
    obtain ⟨text, htext⟩ := writeMembers_quote m rest
    have hfuel : (m :: rest).length ≤ (writeMembers (m :: rest) ++ ['}']).length := by
      have := length_le_writeMembers (m :: rest)
      rw [List.length_append]
      omega
    have hread := readMembers_write (List.cons_ne_nil m rest) hfuel []
    have hmore : ¬ '"' :: (text ++ ['}']) = ['}'] := by simp
    rw [dumps]
    rw [htext, List.cons_append] at hread ⊢
    rw [loads, if_neg hmore, hread]
    rfl

end RoundTrip

section Lines

/-- Not a control character. -/
def Printable (c : Char) : Prop := 0x20 ≤ c.toNat

instance (c : Char) : Decidable (Printable c) := inferInstanceAs (Decidable (_ ≤ _))

theorem printable_of_all {l : List Char} (h : l.all (fun c => decide (Printable c)) = true) :
    ∀ x ∈ l, Printable x := fun x hx => of_decide_eq_true (List.all_eq_true.mp h x hx)

theorem printable_escapeChar (c : Char) : ∀ x ∈ escapeChar c, Printable x := by
  unfold escapeChar
  split_ifs with h1 h2 h3 h4 h5 h6 h7 hcontrol
  · exact printable_of_all (by decide)
  · exact printable_of_all (by decide)
  · exact printable_of_all (by decide)
  · exact printable_of_all (by decide)
  · exact printable_of_all (by decide)
  · exact printable_of_all (by decide)
  · exact printable_of_all (by decide)
  · have hdigit : ∀ d < 16, Printable (Nat.digitChar d) := by decide
    have hhigh := hdigit (c.toNat / 16) (by omega)
    have hlow := hdigit (c.toNat % 16) (by omega)
    have hmarks : Printable '\\' ∧ Printable 'u' ∧ Printable '0' := by decide
    simp only [List.forall_mem_cons]
    exact ⟨hmarks.1, hmarks.2.1, hmarks.2.2, hmarks.2.2, hhigh, hlow, by simp⟩
  · intro x hx
    rw [List.mem_singleton.mp hx]
    exact not_lt.mp hcontrol

theorem printable_writeString (s : List Char) : ∀ x ∈ writeString s, Printable x := by
  have hquote : Printable '"' := by decide
  intro x hx
  rcases List.mem_cons.mp hx with rfl | hx
  · exact hquote
  · rcases List.mem_append.mp hx with hx | hx
    · obtain ⟨c, -, hx⟩ := List.mem_flatMap.mp hx
      exact printable_escapeChar c x hx
    · rw [List.mem_singleton.mp hx]
      exact hquote

theorem printable_of_isNumberChar {c : Char} (h : isNumberChar c = true) : Printable c := by
  rcases Bool.or_eq_true_iff.mp h with hd | hm
  · obtain ⟨hlow, -⟩ := Bool.and_eq_true_iff.mp hd
    have hnat : 48 ≤ c.toNat := UInt32.le_iff_toNat_le.mp (of_decide_eq_true hlow)
    unfold Printable
    omega
  · exact printable_of_all (by decide) c (of_decide_eq_true hm)

theorem printable_scalar (v : Scalar) : ∀ x ∈ v.write, Printable x := by
  cases v with
  | string s => exact printable_writeString s
  | number n => exact fun x hx => printable_of_isNumberChar (List.all_eq_true.mp n.isNumber x hx)

theorem printable_member (m : Member) : ∀ x ∈ m.write, Printable x := by
  have hcolon : Printable ':' := by decide
  intro x hx
  rcases List.mem_append.mp hx with hx | hx
  · exact printable_writeString m.key x hx
  · rcases List.mem_cons.mp hx with rfl | hx
    · exact hcolon
    · exact printable_scalar m.value x hx

theorem printable_writeMembers (ms : List Member) : ∀ x ∈ writeMembers ms, Printable x := by
  have hcomma : Printable ',' := by decide
  induction ms with
  | nil => simp [writeMembers]
  | cons m ms ih =>
    cases ms with
    | nil => exact printable_member m
    | cons m' ms =>
      intro x hx
      rw [writeMembers_cons_cons] at hx
      rcases List.mem_append.mp hx with hx | hx
      · exact printable_member m x hx
      · rcases List.mem_cons.mp hx with rfl | hx
        · exact hcomma
        · exact ih x hx

/-- Nothing that is written is a control character: an object takes one line. -/
theorem printable_dumps (ms : List Member) : ∀ c ∈ dumps ms, Printable c := by
  have hbraces : Printable '{' ∧ Printable '}' := by decide
  intro x hx
  rcases List.mem_cons.mp hx with rfl | hx
  · exact hbraces.1
  · rcases List.mem_append.mp hx with hx | hx
    · exact printable_writeMembers ms x hx
    · rw [List.mem_singleton.mp hx]
      exact hbraces.2

end Lines

section Streams

/-- Objects written one to a line. -/
def writeLines (objects : List (List Member)) : List Char :=
  objects.flatMap fun ms => dumps ms ++ ['\n']

def readLines (text : List Char) : Option (List (List Member)) :=
  ((text.splitOn '\n').dropLast).mapM loads

theorem newline_notMem_dumps (ms : List Member) : '\n' ∉ dumps ms := by
  intro h
  have hprintable := printable_dumps ms '\n' h
  have hcontrol : ¬ Printable '\n' := by decide
  exact hcontrol hprintable

/-- Every line is one object, whatever stands in it. -/
theorem splitOn_writeLines (objects : List (List Member)) :
    (writeLines objects).splitOn '\n' = objects.map dumps ++ [[]] := by
  induction objects with
  | nil => exact List.splitOn_nil _
  | cons ms objects ih =>
    rw [writeLines, List.flatMap_cons, List.append_assoc, List.singleton_append,
      List.splitOn_append_cons_self_of_not_mem (newline_notMem_dumps ms)]
    exact congrArg (List.cons (dumps ms)) ih

theorem readLines_writeLines (objects : List (List Member)) :
    readLines (writeLines objects) = some objects := by
  rw [readLines, splitOn_writeLines, List.dropLast_concat]
  induction objects with
  | nil => rfl
  | cons ms objects ih =>
    rw [List.map_cons, List.mapM_cons, loads_dumps, ih]
    rfl

theorem writeLines_inj {objects objects' : List (List Member)}
    (h : writeLines objects = writeLines objects') : objects = objects' := by
  have hread := readLines_writeLines objects
  rw [h, readLines_writeLines] at hread
  exact (Option.some.inj hread).symm

end Streams

end JsonText
