import Formula.Decimal.Shortest

/-!
# Writing a fixed number of places

The exact value of a number rounded to a given number of places after the point, a half going to
the even neighbour, in positional or in scientific notation. The sign is left to the caller.

## Main definitions

* `fixed`: positional notation.
* `fixedScientific`: one digit, the places, and the exponent with a sign and two digits or more.
-/

namespace Formula.Decimal

/-- A number of units of `10 ^ -places` in positional notation. -/
def withPlaces (units places : Nat) : List Char :=
  let ds := Nat.toDigits 10 units
  let padded := List.replicate (places + 1 - ds.length) '0' ++ ds
  let point := padded.length - places
  if places = 0 then padded else padded.take point ++ '.' :: padded.drop point

/-- The magnitude of a number in positional notation with the given number of places. -/
def fixed (places : Nat) (x : Float) : List Char :=
  match parts x with
  | .nan => "NaN".toList
  | .infinite _ => "inf".toList
  | .finite _ mantissa exponent =>
    let (p, r) := powerRatio 2 exponent
    withPlaces (roundDiv (mantissa * p * Nat.pow 10 places) r) places

/-- The units and the exponent of the first digit of `num / den` rounded to `places` digits after
the first one. -/
def roundScientific (num den places : Nat) : Nat × Int :=
  let decade := decadeOf num den
  let (p, r) := powerRatio 10 (decade - places)
  let units := roundDiv (num * r) (den * p)
  if units = Nat.pow 10 (places + 1) then (Nat.pow 10 places, decade + 1) else (units, decade)

/-- The text of an exponent: its sign, and at least two digits. -/
def signedExponent (exponent : Int) : List Char :=
  let ds := Nat.toDigits 10 exponent.natAbs
  (if exponent < 0 then '-' else '+') :: (List.replicate (2 - ds.length) '0' ++ ds)

/-- The magnitude of a number in scientific notation with the given number of places. -/
def fixedScientific (places : Nat) (x : Float) : List Char :=
  match parts x with
  | .nan => "NaN".toList
  | .infinite _ => "inf".toList
  | .finite _ mantissa exponent =>
    let (p, r) := powerRatio 2 exponent
    let (units, decade) :=
      if mantissa = 0 then (0, 0) else roundScientific (mantissa * p) r places
    withPlaces units places ++ 'e' :: signedExponent decade

end Formula.Decimal
