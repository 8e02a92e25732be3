import Formula.Decimal.Binary64

/-!
# Reading numbers

## Main definitions

* `natOfDigits`: the number that a row of digits stands for.
* `readDigits`: the value of the digits at the head of a text, their number, and the rest.
* `readInt?`: a whole text as a 64-bit integer.
* `readFloat?`: a whole text as a floating-point number.
-/

namespace Formula.Decimal

/-- The value of a decimal digit. -/
def digitValue (c : Char) : Nat :=
  c.toNat - 48

/-- The number that a row of digits stands for. -/
def natOfDigits (ds : List Char) : Nat :=
  ds.foldl (fun n c => 10 * n + digitValue c) 0

/-- Reads the digits at the head of a text: `value` extended by them, `count` increased by their
number, and the rest. -/
def readDigits (value count : Nat) : List Char → Nat × Nat × List Char
  | [] => (value, count, [])
  | c :: cs =>
    if c.isDigit then readDigits (10 * value + digitValue c) (count + 1) cs
    else (value, count, c :: cs)

/-- A sign at the head of a text, and the rest. -/
def readSign : List Char → Bool × List Char
  | '-' :: cs => (true, cs)
  | '+' :: cs => (false, cs)
  | cs => (false, cs)

/-- Integers of 64 bits lie below this in magnitude, and negative ones may reach it. -/
def intBound : Nat := 0x8000000000000000

/-- Reads a text of an optional sign and digits; a value that does not fit has no reading. -/
def readInt? (cs : List Char) : Option Int64 :=
  let (negative, ds) := readSign cs
  match readDigits 0 0 ds with
  | (value, count, []) =>
    if count = 0 then none
    else if negative then
      if value ≤ intBound then some (Int64.ofInt (-value)) else none
    else if value < intBound then some (Int64.ofNat value) else none
  | _ => none

/-- Reads an exponent that takes up all of a text: none at all, or a mark, a sign and digits. -/
def readExponent? : List Char → Option Int
  | [] => some 0
  | c :: cs =>
    if c = 'e' ∨ c = 'E' then
      let (negative, ds) := readSign cs
      match readDigits 0 0 ds with
      | (value, count, []) => if count = 0 then none else some (if negative then -value else value)
      | _ => none
    else none

/-- Reads digits with an optional point and an optional exponent; one side of the point may be
empty, but not both. -/
def readUnsigned? (negative : Bool) (cs : List Char) : Option Float :=
  let (whole, wholeCount, rest) := readDigits 0 0 cs
  let (digits, places, tail) := match rest with
    | '.' :: more => readDigits whole 0 more
    | _ => (whole, 0, rest)
  if wholeCount + places = 0 then none
  else (readExponent? tail).map fun exponent => floatOfDecimal negative digits (exponent - places)

/-- The number with the given sign that a word stands for, if it is one of the words for infinity
and not-a-number, in any case. -/
def readSpecial? (negative : Bool) (cs : List Char) : Option Float :=
  let word := String.ofList (cs.map Char.toLower)
  if word = "inf" ∨ word = "infinity" then
    some (Float.ofBits (if negative then 0xFFF0000000000000 else 0x7FF0000000000000))
  else if word = "nan" then some (Float.ofBits 0x7FF8000000000000)
  else none

/-- Reads a whole text as a floating-point number. -/
def readFloat? (cs : List Char) : Option Float :=
  let (negative, body) := readSign cs
  (readUnsigned? negative body).or (readSpecial? negative body)

end Formula.Decimal
