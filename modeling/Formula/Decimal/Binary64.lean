import Formula.Decimal.Rounding

/-!
# Binary floating-point numbers as exact numbers

A finite number of the format binary64 is a natural number of at most 53 bits times a power of
two. This module takes a number apart into those, and finds the number of the format nearest to
a fraction.

## Main definitions

* `Parts`, `parts`: what a number is made of.
* `bitsOfRatio`: the bits of the positive number nearest to a fraction.
* `floatOfDecimal`: the number nearest to `digits · 10 ^ exponent`.
-/

namespace Formula.Decimal

/-- What a number of the format binary64 is: not a number, an infinity, or
`mantissa · 2 ^ exponent` with a sign. -/
inductive Parts where
  | nan
  | infinite (negative : Bool)
  | finite (negative : Bool) (mantissa : Nat) (exponent : Int)
deriving Repr, DecidableEq

/-- The weight of the sign in the bits of a number. -/
def signBit : Nat := 0x8000000000000000

/-- The weight of the first bit of a mantissa, which the bits of a number leave out. -/
def hiddenBit : Nat := 0x10000000000000

/-- The bits of the positive infinity. -/
def infinityBits : Nat := 0x7FF0000000000000

/-- The parts of the number with the given bits. -/
def partsOfBits (bits : Nat) : Parts :=
  let negative := decide (signBit ≤ bits)
  let biased : Nat := bits / hiddenBit % 2048
  let fraction := bits % hiddenBit
  if biased = 2047 then
    if fraction = 0 then .infinite negative else .nan
  else if biased = 0 then .finite negative fraction (-1074)
  else .finite negative (fraction + hiddenBit) ((biased : Int) - 1075)

/-- The parts of a number. -/
def parts (x : Float) : Parts :=
  partsOfBits x.toBits.toNat

/-- Whether the sign of the number is negative, also for zero. -/
def isNegative (x : Float) : Bool :=
  decide (signBit ≤ x.toBits.toNat)

/-- Whether the number is neither infinite nor not a number. -/
def isFinite (x : Float) : Bool :=
  match parts x with
  | .finite .. => true
  | _ => false

/-- `base ^ exponent` as numerator and denominator. -/
def powerRatio (base : Nat) (exponent : Int) : Nat × Nat :=
  match exponent with
  | .ofNat n => (base.pow n, 1)
  | .negSucc n => (1, base.pow (n + 1))

/-- The exponent of the binade of `num / den`: a power `q` for which the quotient, counted in
units of `2 ^ q`, has 53 bits, but never below the least one of the format. -/
def binadeOf (num den : Nat) : Int :=
  let guess : Int := (Nat.log2 num : Int) - Nat.log2 den - 53
  let (p, r) := powerRatio 2 (guess + 53)
  let q := if num * r < den * p then guess else guess + 1
  max q (-1074)

/-- The bits of the number of the format nearest to `num / den`, a half going to the even
neighbour; a quotient beyond the greatest finite number gives infinity. -/
def bitsOfRatio (num den : Nat) : Nat :=
  if num = 0 then 0
  else
    let q := binadeOf num den
    let (p, r) := powerRatio 2 q
    let mantissa := roundDiv (num * r) (den * p)
    min ((q + 1074).toNat * hiddenBit + mantissa) infinityBits

/-- The bits of the number nearest to `digits · 10 ^ exponent`. Exponents far outside the range
of the format are cut off before any power is computed. -/
def bitsOfDecimal (digits : Nat) (exponent : Int) : Nat :=
  if digits = 0 then 0
  else
    let magnitude := exponent + digitCount digits
    if 400 < magnitude then infinityBits
    else if magnitude < -400 then 0
    else
      let (p, r) := powerRatio 10 exponent
      bitsOfRatio (digits * p) r

/-- The number with the given sign nearest to `digits · 10 ^ exponent`. -/
def floatOfDecimal (negative : Bool) (digits : Nat) (exponent : Int) : Float :=
  let bits := bitsOfDecimal digits exponent
  Float.ofBits (UInt64.ofNat (if negative then bits + signBit else bits))

end Formula.Decimal
