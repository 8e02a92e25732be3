/-!
# Sets of characters as ranges

Unicode properties are given by the ranges of code points that have them.

## Main definitions

* `Ranges`: a list of inclusive ranges of code points.
* `Ranges.covers`: membership of a code point.

## Main results

* `Ranges.covers_iff`: a code point is covered iff it lies in one of the ranges.
-/

namespace Formula.Text

/-- A set of code points as a list of inclusive ranges. -/
abbrev Ranges := List (Nat × Nat)

/-- Whether one of the ranges holds the code point. -/
def Ranges.covers (ranges : Ranges) (n : Nat) : Bool :=
  ranges.any fun (first, last) => first ≤ n && n ≤ last

theorem Ranges.covers_iff {ranges : Ranges} {n : Nat} :
    ranges.covers n = true ↔ ∃ r ∈ ranges, r.1 ≤ n ∧ n ≤ r.2 := by
  simp [Ranges.covers]

end Formula.Text
