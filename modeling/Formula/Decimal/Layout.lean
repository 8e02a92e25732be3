import Formula.Decimal.Shortest

/-!
# Writing shortest decimals

How the shortest digits of a number are laid out: positionally, or with an exponent when the
number is very large or very small. Every kind of output has one `Layout`.

## Main definitions

* `Layout`: the decisions of one kind of output.
* `Layout.write`: the text of a number.
-/

namespace Formula.Decimal

/-- The decisions about the text of a number. -/
structure Layout where
  /-- Which of two shortest decimals is written if they are equally near. -/
  tie : Tie
  /-- The least exponent written positionally; `none` is no bound. -/
  lowest : Option Int
  /-- The greatest exponent written positionally; `none` is no bound. -/
  highest : Option Int
  /-- Whether a whole number written positionally ends in a point and a zero. -/
  marksWhole : Bool
  /-- Whether a positive exponent has a sign. -/
  signsExponent : Bool
  /-- The least number of digits of an exponent. -/
  exponentWidth : Nat
  /-- The texts of not-a-number, infinity and negative infinity. -/
  special : String × String × String

namespace Layout

/-- Whether a number whose first digit has the given exponent is written positionally. -/
def isPositional (l : Layout) (magnitude : Int) : Bool :=
  l.lowest.all (· ≤ magnitude) && l.highest.all (magnitude ≤ ·)

/-- The digits `ds`, the first of which has exponent `magnitude`, in positional notation. -/
def positional (l : Layout) (ds : List Char) (magnitude : Int) : List Char :=
  match magnitude with
  | .negSucc n => ['0', '.'] ++ List.replicate n '0' ++ ds
  | .ofNat n =>
    let whole := ds.take (n + 1) ++ List.replicate (n + 1 - ds.length) '0'
    match ds.drop (n + 1) with
    | [] => if l.marksWhole then whole ++ ['.', '0'] else whole
    | fraction => whole ++ '.' :: fraction

/-- The digits of an exponent, its sign included. -/
def exponentText (l : Layout) (magnitude : Int) : List Char :=
  let ds := Nat.toDigits 10 magnitude.natAbs
  let sign := if magnitude < 0 then ['-'] else if l.signsExponent then ['+'] else []
  sign ++ List.replicate (l.exponentWidth - ds.length) '0' ++ ds

/-- The digits `ds`, the first of which has exponent `magnitude`, with an exponent. -/
def scientific (l : Layout) (ds : List Char) (magnitude : Int) : List Char :=
  let mantissa := match ds with
    | [] => []
    | [d] => [d]
    | d :: fraction => d :: '.' :: fraction
  mantissa ++ 'e' :: l.exponentText magnitude

/-- The text of a positive decimal. -/
def writeDigits (l : Layout) (d : Digits) : List Char :=
  if l.isPositional d.magnitude then l.positional d.text d.magnitude
  else l.scientific d.text d.magnitude

/-- The text of a number. -/
def write (l : Layout) (x : Float) : String :=
  match parts x with
  | .nan => l.special.1
  | .infinite negative => if negative then l.special.2.2 else l.special.2.1
  | .finite negative mantissa exponent =>
    let body :=
      if mantissa = 0 then l.positional ['0'] 0
      else l.writeDigits (shortest l.tie mantissa exponent)
    String.ofList (if negative then '-' :: body else body)

/-- Every digit in its place, without an exponent. -/
def plain : Layout where
  tie := .upward
  lowest := none
  highest := none
  marksWhole := false
  signsExponent := false
  exponentWidth := 1
  special := ("NaN", "inf", "-inf")

end Layout

end Formula.Decimal
