/-!
# Rounding a quotient

## Main definitions

* `roundDiv`: the nearest natural number to a quotient, a half going to the even neighbour.
* `digitCount`: how many decimal digits a number has.

## Main results

* `roundDiv_le`, `le_roundDiv`: the result lies within half a unit of the quotient.
-/

namespace Formula.Decimal

/-- The natural number nearest to `num / den`; of two nearest ones the even one. -/
def roundDiv (num den : Nat) : Nat :=
  let low := num / den
  let twice := 2 * (num % den)
  if twice < den then low
  else if den < twice then low + 1
  else low + low % 2

theorem roundDiv_le {num den : Nat} (h : 0 < den) :
    2 * den * roundDiv num den ≤ 2 * num + den := by
  have hdm := Nat.div_add_mod num den
  have hlt := Nat.mod_lt num h
  have hpar := Nat.mod_two_eq_zero_or_one (num / den)
  simp only [roundDiv]
  split
  · grind
  · split
    · grind
    · rcases hpar with hp | hp <;> simp only [hp] <;> grind

theorem le_roundDiv {num den : Nat} (h : 0 < den) :
    2 * num ≤ 2 * den * roundDiv num den + den := by
  have hdm := Nat.div_add_mod num den
  have hlt := Nat.mod_lt num h
  have hpar := Nat.mod_two_eq_zero_or_one (num / den)
  simp only [roundDiv]
  split
  · grind
  · split
    · grind
    · rcases hpar with hp | hp <;> simp only [hp] <;> grind

/-- The number of decimal digits of `n`; zero has one. -/
def digitCount (n : Nat) : Nat :=
  (Nat.toDigits 10 n).length

end Formula.Decimal
