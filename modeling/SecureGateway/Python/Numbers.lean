import SecureGateway.Foundation.Binary64
import SecureGateway.Python.Text

/-!
# Python numbers

`int` and `float` of the built-in values, by their documented behaviour. The interpreter's
tables say which characters are decimal digits.
-/
namespace Python

/-- The digits after the first one; a single underscore may stand in front of each. -/
def digitsFrom (decimal : Char → Option ℕ) (value : ℕ) : List Char → Option ℕ
  | [] => some value
  | '_' :: c :: rest => (decimal c).bind fun d => digitsFrom decimal (10 * value + d) rest
  | c :: rest => (decimal c).bind fun d => digitsFrom decimal (10 * value + d) rest

def digits (decimal : Char → Option ℕ) : List Char → Option ℕ
  | [] => none
  | c :: rest =>
    -- `sys.get_int_max_str_digits()`.
    if (rest.filter (· ≠ '_')).length ≥ 4300 then none
    else (decimal c).bind fun d => digitsFrom decimal d rest

/-- What is skipped around a number: white space, but not the four separators. -/
def isNumberSpace (c : Char) : Bool := isSpace c && !(0x1c ≤ c.toNat && c.toNat ≤ 0x1f)

def stripNumber (cs : List Char) : List Char :=
  ((cs.dropWhile isNumberSpace).reverse.dropWhile isNumberSpace).reverse

/-- `int(text)`, where it does not raise `ValueError`. -/
def int (decimal : Char → Option ℕ) (text : String) : Option ℤ :=
  match stripNumber text.toList with
  | '+' :: rest => (digits decimal rest).map fun n => (n : ℤ)
  | '-' :: rest => (digits decimal rest).map fun n => -(n : ℤ)
  | rest => (digits decimal rest).map fun n => (n : ℤ)

/-- The digits that every table knows. -/
def asciiDecimal (c : Char) : Option ℕ := if c.isDigit then some (c.toNat - '0'.toNat) else none

section Floats

variable (decimal : Char → Option ℕ)

def isDecimal (c : Char) : Bool := (decimal c).isSome

/-- A text without its underscores, each of which stands between two digits. -/
def dropUnderscores (previous : Char) : List Char → Option (List Char)
  | [] => if previous = '_' then none else some []
  | c :: rest =>
    if c = '_' then
      if isDecimal decimal previous then dropUnderscores '_' rest else none
    else if previous = '_' ∧ isDecimal decimal c = false then none
    else (dropUnderscores c rest).map (c :: ·)

def digitsValue (cs : List Char) : ℕ := cs.foldl (fun n c => 10 * n + (decimal c).getD 0) 0

def unsignedDigits (cs : List Char) : Option ℤ :=
  if cs ≠ [] ∧ cs.all (isDecimal decimal) = true then some (digitsValue decimal cs) else none

def exponentValue : List Char → Option ℤ
  | [] => some 0
  | c :: rest =>
    if c = 'e' ∨ c = 'E' then
      match rest with
      | '+' :: ds => unsignedDigits decimal ds
      | '-' :: ds => (unsignedDigits decimal ds).map fun n => -n
      | ds => unsignedDigits decimal ds
    else none

/-- What stands behind the digits in front of the point: the fraction, and the exponent. -/
def fractionAndExponent : List Char → List Char × List Char
  | '.' :: rest => (rest.takeWhile (isDecimal decimal), rest.dropWhile (isDecimal decimal))
  | rest => ([], rest)

/-- Digits with an optional point among them, then an optional exponent. -/
def decimalValue (cs : List Char) : Option ℚ :=
  let whole := cs.takeWhile (isDecimal decimal)
  let (fraction, exponent) := fractionAndExponent decimal (cs.dropWhile (isDecimal decimal))
  if whole = [] ∧ fraction = [] then none
  else (exponentValue decimal exponent).map fun e =>
    (digitsValue decimal (whole ++ fraction) : ℚ) * 10 ^ (e - (fraction.length : ℤ))

def unsignedFloat (cs : List Char) : Option Binary64 :=
  let word := String.ofList (cs.map Char.toLower)
  if word = "inf" ∨ word = "infinity" then some (.infinity false)
  else if word = "nan" then some .nan
  else (decimalValue decimal cs).map Binary64.ofRat

/-- `float(text)`, where it does not raise `ValueError`. -/
def float (text : String) : Option Binary64 :=
  (dropUnderscores decimal '\x00' (stripNumber text.toList)).bind fun
    | '+' :: rest => unsignedFloat decimal rest
    | '-' :: rest => (unsignedFloat decimal rest).map Binary64.neg
    | rest => unsignedFloat decimal rest

end Floats

/-- What a conversion raises. -/
inductive ConversionError where
  | typeError
  | valueError
  | overflowError
  deriving DecidableEq, Repr

/-- The built-in values that a reply of redis-py holds. -/
inductive Scalar where
  | int (n : ℤ)
  | str (s : String)
  | bytes (b : List UInt8)
  | none
  deriving DecidableEq, Repr

/-- Bytes as `int` and `float` read them: no byte beyond ASCII is a digit or a space. -/
def bytesText (b : List UInt8) : String :=
  String.ofList (b.map fun byte => if byte < 128 then Char.ofNat byte.toNat else '?')

def parsed {α : Type} : Option α → Except ConversionError α
  | some a => .ok a
  | none => .error .valueError

namespace Scalar

/-- `int(value)`. -/
def toInt (decimal : Char → Option ℕ) : Scalar → Except ConversionError ℤ
  | .int n => .ok n
  | .str s => parsed (Python.int decimal s)
  | .bytes b => parsed (Python.int asciiDecimal (bytesText b))
  | .none => .error .typeError

/-- `float(value)`. -/
def toFloat (decimal : Char → Option ℕ) : Scalar → Except ConversionError Binary64
  | .int n =>
    if 2 ^ 1024 ≤ |Binary64.round n| then .error .overflowError
    else .ok (.finite (Binary64.round n))
  | .str s => parsed (Python.float decimal s)
  | .bytes b => parsed (Python.float asciiDecimal (bytesText b))
  | .none => .error .typeError

end Scalar

/-- `a / b` of two integers, which does not divide by zero here. -/
def trueDiv (a b : ℤ) : Except ConversionError ℚ :=
  let quotient := Binary64.round ((a : ℚ) / b)
  if 2 ^ 1024 ≤ |quotient| then .error .overflowError else .ok quotient

end Python
