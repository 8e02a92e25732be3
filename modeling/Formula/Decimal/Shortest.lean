import Formula.Decimal.Binary64

/-!
# The shortest decimal that reads back

Of the decimals that round to a given binary number, this module finds one with the fewest digits,
and among those the one nearest to the number. Two may be equally near; which of them is taken
depends on the kind of output.

## Main definitions

* `Digits`: a decimal `coefficient · 10 ^ exponent` without trailing zeros.
* `Tie`: which of two equally near decimals is taken.
* `shortest`: the digits of a positive number `mantissa · 2 ^ exponent`.
-/

namespace Formula.Decimal

/-- The decimal `coefficient · 10 ^ exponent`. -/
structure Digits where
  coefficient : Nat
  exponent : Int
deriving Repr, DecidableEq

namespace Digits

/-- Moves the trailing zeros of a coefficient to the exponent; `fuel` bounds their number. -/
def stripZeros : Nat → Digits → Digits
  | 0, d => d
  | fuel + 1, d =>
    if d.coefficient % 10 = 0 then stripZeros fuel ⟨d.coefficient / 10, d.exponent + 1⟩ else d

/-- The digits of the coefficient. -/
def text (d : Digits) : List Char :=
  Nat.toDigits 10 d.coefficient

/-- The exponent of the first digit: the one written in scientific notation. -/
def magnitude (d : Digits) : Int :=
  d.exponent + digitCount d.coefficient - 1

end Digits

/-- The greatest `k` with `10 ^ k ≤ num / den`. -/
def decadeOf (num den : Nat) : Int :=
  if den ≤ num then (digitCount (num / den) : Int) - 1
  else
    let t := digitCount (den / num) - 1
    if den ≤ num * Nat.pow 10 t then -t else -(t + 1)

/-- The numbers that round to a binary number, with a common denominator: they lie between `low`
and `high`, the ends included iff `closed`, and `mid` is the number itself. -/
structure Rounded where
  low : Nat
  mid : Nat
  high : Nat
  den : Nat
  closed : Bool

/-- What rounds to `mantissa · 2 ^ exponent`. Below a power of two the neighbours are half as far
apart, except at the least exponent of the format. -/
def Rounded.of (mantissa : Nat) (exponent : Int) : Rounded :=
  let (p, r) := powerRatio 2 (exponent - 2)
  let below := if mantissa = hiddenBit ∧ exponent ≠ -1074 then 1 else 2
  { low := (4 * mantissa - below) * p
    mid := 4 * mantissa * p
    high := (4 * mantissa + 2) * p
    den := r
    closed := mantissa % 2 = 0 }

/-- Whether `c` units of `unit / den` round to the number. -/
def Rounded.admits (x : Rounded) (scale unit c : Nat) : Bool :=
  let point := c * unit
  if x.closed then x.low * scale ≤ point && point ≤ x.high * scale
  else x.low * scale < point && point < x.high * scale

/-- Which of two equally near neighbours on a grid is taken. -/
inductive Tie where
  /-- The one with an even last digit. -/
  | toEven
  /-- The greater one. -/
  | upward
deriving Repr, DecidableEq, Inhabited

/-- Whether a number beyond `down` by `rest / unit` goes up to `down + 1`, being nearer to it, or as
near and the tie resolved so. -/
def Tie.goesUp (tie : Tie) (down rest unit : Nat) : Bool :=
  unit < 2 * rest || 2 * rest == unit && (tie == .upward || down % 2 == 1)

/-- Halfway between two neighbours the even one is taken. -/
theorem Tie.toEven_mod_two {down rest unit : Nat} (h : 2 * rest = unit) :
    (if toEven.goesUp down rest unit then down + 1 else down) % 2 = 0 := by
  rcases Nat.mod_two_eq_zero_or_one down with hd | hd
  · simp [goesUp, h, hd]
  · simp only [goesUp, h, hd, beq_self_eq_true, Bool.or_true, Bool.and_true, if_true]
    omega

/-- The nearer of the two neighbours of the number on the grid of multiples of `10 ^ place`, among
those that round to the number. -/
def Rounded.onGrid? (x : Rounded) (tie : Tie) (place : Int) : Option Digits :=
  let (p, scale) := powerRatio 10 place
  let unit := x.den * p
  let down := x.mid * scale / unit
  let rest := x.mid * scale % unit
  let up := down + 1
  match x.admits scale unit down, x.admits scale unit up with
  | true, true => some ⟨if tie.goesUp down rest unit then up else down, place⟩
  | true, false => some ⟨down, place⟩
  | false, true => some ⟨up, place⟩
  | false, false => none

/-- The first grid, from `count` digits on, that has a point which rounds to the number. -/
def Rounded.firstHit (x : Rounded) (tie : Tie) (decade : Int) : Nat → Nat → Digits
  | 0, _ => ⟨0, 0⟩
  | fuel + 1, count =>
    match x.onGrid? tie (decade - count + 1) with
    | some d => d
    | none => x.firstHit tie decade fuel (count + 1)

/-- The fewest digits that read back as `mantissa · 2 ^ exponent`, nearest to it among those.
Seventeen digits always suffice. -/
def shortest (tie : Tie) (mantissa : Nat) (exponent : Int) : Digits :=
  let x := Rounded.of mantissa exponent
  (x.firstHit tie (decadeOf x.mid x.den) 17 1).stripZeros 18

end Formula.Decimal
