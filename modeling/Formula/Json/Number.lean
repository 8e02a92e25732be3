import Formula.Decimal.Reading
import Formula.Json.Text

/-!
# Numbers in JSON

A number has digits, then perhaps a point with digits, then perhaps an exponent; a zero at its
start stands alone. Without point and exponent it is an integer if it fits 64 bits with or without
a sign; zero with a sign is no integer. Any other number is the nearest floating-point number, a tie
going to the even one. But of more than 768 digits before the point the further ones count as a trace
above the first, even if they are zeros, so that what looks like a tie there is none.

## Main definitions

* `decimalNumber`: the floating-point number of the parts of a number.
* `readNumber`: the number at the head of a text.

## Main results

* `length_readDigits`: how much of a text its digits take up.
-/

namespace Formula.Json

open Decimal (readDigits intBound)

theorem length_readDigits (value count : Nat) (cs : List Char) :
    (readDigits value count cs).2.1 + (readDigits value count cs).2.2.length =
      count + cs.length := by
  induction cs generalizing value count with
  | nil => rfl
  | cons c cs ih =>
    simp only [readDigits]
    split
    · rw [ih]
      simp only [List.length_cons]
      omega
    · rfl

/-- What is wrong where a digit should stand. -/
def noDigit (cs : List Char) : Flaw :=
  ⟨if cs.isEmpty then .truncated else .malformed, .malformed⟩

/-- Reads digits, of which there is at least one: `start` extended by them, their number, and the
rest. -/
def readSomeDigits (start : Nat) (cs : List Char) : Except Flaw (Nat × Nat × Rest cs) :=
  match h : readDigits start 0 cs with
  | (value, count, rest) =>
    if hc : count = 0 then .error (noDigit cs)
    else .ok (value, count, ⟨rest, by
      have hl := length_readDigits start 0 cs
      rw [h] at hl
      simp only at hl
      omega⟩)

/-- Reads the digits before a point. -/
def readWhole (cs : List Char) : Except Flaw (Nat × Rest cs) :=
  match cs with
  | '0' :: rest =>
    if rest.head?.any Char.isDigit then .error (.always .malformed)
    else .ok (0, ⟨rest, by simp only [List.length_cons]; omega⟩)
  | cs => (readSomeDigits 0 cs).map fun (value, _, rest) => (value, rest)

/-- What is left of `cs` after something, perhaps nothing, was read. -/
abbrev Tail (cs : List Char) := { rest : List Char // rest.length ≤ cs.length }

/-- What is left if nothing was read. -/
def Tail.all (cs : List Char) : Tail cs :=
  ⟨cs, Nat.le_refl _⟩

/-- What is left behind a character. -/
def Tail.behind (c : Char) (cs : List Char) : Tail (c :: cs) :=
  ⟨cs, Nat.le_succ _⟩

/-- Reads a point and digits, if there is a point: `whole` extended by the digits, and their
number. -/
def readFraction (whole : Nat) (cs : List Char) : Except Flaw (Option (Nat × Nat) × Tail cs) :=
  match cs with
  | '.' :: rest =>
    match readSomeDigits whole rest with
    | .error flaw => .error flaw
    | .ok (value, count, more) =>
      .ok (some (value, count), ⟨more.1, by have := more.2; simp only [List.length_cons]; omega⟩)
  | cs => .ok (none, .all cs)

/-- A sign at the head of a text. -/
def readExponentSign (cs : List Char) : Bool × Tail cs :=
  match cs with
  | '-' :: rest => (true, .behind '-' rest)
  | '+' :: rest => (false, .behind '+' rest)
  | cs => (false, .all cs)

/-- Reads an exponent, if there is one. -/
def readExponent (cs : List Char) : Except Flaw (Option Int × Tail cs) :=
  match cs with
  | [] => .ok (none, .all [])
  | c :: rest =>
    if c = 'e' ∨ c = 'E' then
      let (negative, digits) := readExponentSign rest
      match readSomeDigits 0 digits.1 with
      | .error flaw => .error flaw
      | .ok (value, _, more) =>
        .ok (some (if negative then -value else value), ⟨more.1, by
          have := more.2
          have := digits.2
          simp only [List.length_cons]
          omega⟩)
    else .ok (none, .all (c :: rest))

/-- The floating-point number nearest to a decimal, unless it is infinite. -/
def finiteNumber (negative : Bool) (digits : Nat) (exponent : Int) : Except ReadError JsonNumber :=
  let x := Decimal.floatOfDecimal negative digits exponent
  if Decimal.isFinite x then .ok (.float x) else .error .malformed

/-- How many digits before the point count exactly. -/
def maxWholeDigits : Nat := 768

/-- The floating-point number of a sign, digits, and perhaps a fraction and an exponent. Of too many
digits before the point the further ones, zeros as well, only count as a trace above the first. -/
def decimalNumber (negative : Bool) (whole : Nat) (fraction : Option (Nat × Nat))
    (exponent : Int) : Except ReadError JsonNumber :=
  let further := Decimal.digitCount whole - maxWholeDigits
  if 0 < further then
    finiteNumber negative (whole / Nat.pow 10 further * 10 + 1) (exponent + further - 1)
  else
    let (digits, places) := fraction.getD (whole, 0)
    finiteNumber negative digits (exponent - places)

/-- The number of a sign, digits, and perhaps a fraction and an exponent. -/
def numberOf (negative : Bool) (whole : Nat) (fraction : Option (Nat × Nat))
    (exponent : Option Int) : Except ReadError JsonNumber :=
  match fraction, exponent with
  | none, none =>
    if negative then
      if whole = 0 ∨ intBound < whole then finiteNumber true whole 0 else .ok (.integer (-whole))
    else if whole < 2 * intBound then .ok (.integer whole)
    else finiteNumber false whole 0
  | fraction, exponent => decimalNumber negative whole fraction (exponent.getD 0)

/-- Reads what follows the sign of a number. -/
def readUnsigned (negative : Bool) (cs : List Char) :
    Except Flaw (Except ReadError JsonNumber × Rest cs) := do
  let (whole, rest) ← readWhole cs
  let (fraction, more) ← readFraction whole rest.1
  let (exponent, tail) ← readExponent more.1
  return (numberOf negative whole fraction exponent, ⟨tail.1, by
    have := rest.2
    have := more.2
    have := tail.2
    omega⟩)

/-- Reads a number: what it stands for, and what is left when it has the right form. -/
def readNumber (cs : List Char) : Except Flaw (Except ReadError JsonNumber × Rest cs) :=
  match cs with
  | '-' :: rest =>
    (readUnsigned true rest).map fun (value, more) =>
      (value, more.within (by simp only [List.length_cons]; omega))
  | cs => readUnsigned false cs

end Formula.Json
