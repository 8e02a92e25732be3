import Formula.Decimal.Shortest
import Formula.Proofs.Decimal.Rounding

/-!
# The shortest decimal reads back

The search for the shortest decimal looks at finer and finer grids. Seventeen digits are enough to
tell two numbers of the format apart, so one of the grids has a point in the interval around the
number, and the decimal that is found lies there.

## Main definitions

* `Digits.value`: the fraction that a decimal stands for

## Main results

* `Rounded.admits_iff`: the search admits the decimals that round to the number
* `Rounded.isSome_onGrid?`: a grid as fine as the interval has a hit
* `shortest_roundsTo`: the shortest decimal rounds to the number
-/

namespace Formula.Decimal

/-- The fraction that a decimal stands for. -/
def Digits.value (d : Digits) : ℚ :=
  d.coefficient * 10 ^ d.exponent

/-- Moving zeros to the exponent changes nothing. -/
theorem Digits.value_stripZeros (fuel : Nat) (d : Digits) : (d.stripZeros fuel).value = d.value := by
  induction fuel generalizing d with
  | zero => rfl
  | succ fuel ih =>
    rw [stripZeros]
    split
    · rename_i hzero
      rw [ih]
      have hten : (d.coefficient : ℚ) = (d.coefficient / 10 : ℕ) * 10 := by
        exact_mod_cast (Nat.div_mul_cancel (Nat.dvd_of_mod_eq_zero hzero)).symm
      rw [value, value, hten, zpow_add_one₀ (by norm_num)]
      ring
    · rfl

/-- The decade of a quotient is not above it. -/
theorem zpow_decadeOf_le {num den : Nat} {v : ℚ} (hnum : 0 < num) (hden : 0 < den)
    (hv : (num : ℚ) = v * den) : (10 : ℚ) ^ decadeOf num den ≤ v := by
  have hpos : (0 : ℚ) < den := by exact_mod_cast hden
  have heq : v = num / den := (eq_div_iff hpos.ne').mpr hv.symm
  rw [heq, le_div_iff₀ hpos]
  unfold decadeOf
  split
  · rename_i hle
    have hone := one_le_digitCount (num / den)
    have hpow := pow_digitCount_le (Nat.div_pos hle hden)
    rw [show (digitCount (num / den) : ℤ) - 1 = ((digitCount (num / den) - 1 : ℕ) : ℤ) by omega,
      zpow_natCast]
    exact_mod_cast (Nat.le_div_iff_mul_le hden).mp hpow
  · have hnumpos : (0 : ℚ) < num := by exact_mod_cast hnum
    simp only [Nat.pow_eq]
    split
    · rename_i hle
      rw [zpow_neg, zpow_natCast, inv_mul_le_iff₀ (by positivity), mul_comm]
      exact_mod_cast hle
    · have hone := one_le_digitCount (den / num)
      have hlt := lt_pow_digitCount (den / num)
      rw [zpow_neg, show ((digitCount (den / num) - 1 : ℕ) : ℤ) + 1 = digitCount (den / num) by omega,
        zpow_natCast, inv_mul_le_iff₀ (by positivity), mul_comm]
      exact_mod_cast ((Nat.div_lt_iff_lt_mul hnum).mp hlt).le.trans_eq (Nat.mul_comm ..)

/-! ## The interval around a number -/

/-- What lies between the two ends rounds to the number. -/
theorem RoundsTo.of_between {m : Nat} {e : Int} {v : ℚ}
    (hlow : (m - gapBelow m e / 4 : ℚ) * 2 ^ e < v) (hhigh : v < (m + 1 / 2) * 2 ^ e) :
    RoundsTo m e v :=
  ⟨hlow.le, hhigh.le, fun _ => ⟨hlow, hhigh⟩⟩

namespace Rounded

variable {m : Nat} {e : Int}

theorem den_pos (m : Nat) (e : Int) : 0 < (Rounded.of m e).den :=
  (powerRatio_pos Nat.two_pos (e - 2)).2

/-- A multiple of a quarter of a unit, over the common denominator. -/
theorem quarters_mul (k : Nat) (e : Int) :
    ((k * (powerRatio 2 (e - 2)).1 : ℕ) : ℚ) = k / 4 * 2 ^ e * (powerRatio 2 (e - 2)).2 := by
  rw [Nat.cast_mul, powerRatio_fst Nat.two_pos, zpow_sub₀ (by norm_num)]
  norm_num
  ring

theorem low_eq (hm : 0 < m) (e : Int) : ((Rounded.of m e).low : ℚ) =
    (m - gapBelow m e / 4) * 2 ^ e * (Rounded.of m e).den := by
  have hle : gapBelow m e ≤ 4 * m := (gapBelow_le m e).trans (by omega)
  have hlow := quarters_mul (4 * m - gapBelow m e) e
  rw [Nat.cast_sub hle] at hlow
  refine hlow.trans ?_
  change _ = (m - gapBelow m e / 4 : ℚ) * 2 ^ e * (powerRatio 2 (e - 2)).2
  push_cast
  ring

theorem mid_eq (m : Nat) (e : Int) :
    ((Rounded.of m e).mid : ℚ) = m * 2 ^ e * (Rounded.of m e).den := by
  refine (quarters_mul (4 * m) e).trans ?_
  change _ = (m : ℚ) * 2 ^ e * (powerRatio 2 (e - 2)).2
  push_cast
  ring

theorem high_eq (m : Nat) (e : Int) :
    ((Rounded.of m e).high : ℚ) = (m + 1 / 2) * 2 ^ e * (Rounded.of m e).den := by
  refine (quarters_mul (4 * m + 2) e).trans ?_
  change _ = (m + 1 / 2 : ℚ) * 2 ^ e * (powerRatio 2 (e - 2)).2
  push_cast
  ring

theorem scale_pos (m : Nat) (e place : Int) :
    (0 : ℚ) < (Rounded.of m e).den * (powerRatio 10 place).2 := by
  exact_mod_cast Nat.mul_pos (den_pos m e) (powerRatio_pos (by decide) place).2

/-- A point of a grid, over the denominator that it is compared under. -/
theorem point_eq (m : Nat) (e place : Int) (c : Nat) :
    ((c * ((Rounded.of m e).den * (powerRatio 10 place).1) : ℕ) : ℚ) =
      c * 10 ^ place * ((Rounded.of m e).den * (powerRatio 10 place).2) := by
  push_cast
  rw [powerRatio_fst (by decide)]
  push_cast
  ring

/-- **The search admits the decimals that round to the number.** -/
theorem admits_iff (hm : 0 < m) (e place : Int) (c : Nat) :
    (Rounded.of m e).admits (powerRatio 10 place).2
        ((Rounded.of m e).den * (powerRatio 10 place).1) c = true ↔
      RoundsTo m e (c * 10 ^ place) := by
  have hscale := scale_pos m e place
  have hpoint := point_eq m e place c
  have hlow : (((Rounded.of m e).low * (powerRatio 10 place).2 : ℕ) : ℚ) =
      (m - gapBelow m e / 4) * 2 ^ e * ((Rounded.of m e).den * (powerRatio 10 place).2) := by
    rw [Nat.cast_mul, low_eq hm, mul_assoc]
  have hhigh : (((Rounded.of m e).high * (powerRatio 10 place).2 : ℕ) : ℚ) =
      (m + 1 / 2) * 2 ^ e * ((Rounded.of m e).den * (powerRatio 10 place).2) := by
    rw [Nat.cast_mul, high_eq, mul_assoc]
  have hclosed : (Rounded.of m e).closed = decide (m % 2 = 0) := rfl
  unfold admits
  simp only [hclosed, decide_eq_true_eq]
  split
  · rename_i heven
    simp only [Bool.and_eq_true, decide_eq_true_eq]
    rw [← Nat.cast_le (α := ℚ), ← Nat.cast_le (α := ℚ), hpoint, hlow, hhigh,
      mul_le_mul_iff_left₀ hscale, mul_le_mul_iff_left₀ hscale]
    exact ⟨fun h => ⟨h.1, h.2, fun hodd => by omega⟩, fun h => ⟨h.low, h.high⟩⟩
  · rename_i hodd
    simp only [Bool.and_eq_true, decide_eq_true_eq]
    rw [← Nat.cast_lt (α := ℚ), ← Nat.cast_lt (α := ℚ), hpoint, hlow, hhigh,
      mul_lt_mul_iff_left₀ hscale, mul_lt_mul_iff_left₀ hscale]
    exact ⟨fun h => .of_between h.1 h.2, fun h => h.odd (by omega)⟩

/-- A hit rounds to the number. -/
theorem roundsTo_of_onGrid? (hm : 0 < m) {tie : Tie} {place : Int} {d : Digits}
    (h : (Rounded.of m e).onGrid? tie place = some d) : RoundsTo m e d.value := by
  unfold onGrid? at h
  simp only at h
  split at h
  · rename_i hdown hup
    cases h
    simp only [Digits.value]
    split
    · exact (admits_iff hm e place _).mp hup
    · exact (admits_iff hm e place _).mp hdown
  · rename_i hdown _
    cases h
    exact (admits_iff hm e place _).mp hdown
  · rename_i _ hup
    cases h
    exact (admits_iff hm e place _).mp hup
  · cases h

/-- The two neighbours of the number on a grid. -/
theorem neighbours (m : Nat) (e place : Int) {down : Nat}
    (hdown : (Rounded.of m e).mid * (powerRatio 10 place).2 /
      ((Rounded.of m e).den * (powerRatio 10 place).1) = down) :
    (down : ℚ) * 10 ^ place ≤ m * 2 ^ e ∧ (m : ℚ) * 2 ^ e < (down + 1 : ℕ) * 10 ^ place := by
  have hunit : 0 < (Rounded.of m e).den * (powerRatio 10 place).1 :=
    Nat.mul_pos (den_pos m e) (powerRatio_pos (by decide) place).1
  have hscale := scale_pos m e place
  have hmid : (((Rounded.of m e).mid * (powerRatio 10 place).2 : ℕ) : ℚ) =
      m * 2 ^ e * ((Rounded.of m e).den * (powerRatio 10 place).2) := by
    rw [Nat.cast_mul, mid_eq, mul_assoc]
  constructor
  · refine le_of_mul_le_mul_right ?_ hscale
    rw [← point_eq, ← hmid, Nat.cast_le]
    exact (Nat.le_div_iff_mul_le hunit).mp hdown.ge
  · refine lt_of_mul_lt_mul_right ?_ hscale.le
    rw [← point_eq, ← hmid, Nat.cast_lt]
    exact (Nat.div_lt_iff_lt_mul hunit).mp (hdown ▸ Nat.lt_succ_self _)

/-- **A grid that is finer than the interval has a hit.** -/
theorem isSome_onGrid? (hm : 0 < m) (tie : Tie) {place : Int}
    (hfine : (10 : ℚ) ^ place < (gapBelow m e / 4 + 1 / 2) * 2 ^ e) :
    ((Rounded.of m e).onGrid? tie place).isSome := by
  have hgap : (1 : ℚ) ≤ gapBelow m e := by exact_mod_cast one_le_gapBelow m e
  have hpos : (0 : ℚ) < 2 ^ e := by positivity
  unfold onGrid?
  simp only
  split
  · rfl
  · rfl
  · rfl
  rename_i hdown hup
  -- were both neighbours outside, the interval would lie between them
  exfalso
  obtain ⟨hbelow, habove⟩ := neighbours m e place rfl
  generalize (Rounded.of m e).mid * (powerRatio 10 place).2 /
    ((Rounded.of m e).den * (powerRatio 10 place).1) = down at hdown hup hbelow habove
  have hfar : (down : ℚ) * 10 ^ place ≤ (m - gapBelow m e / 4) * 2 ^ e := by
    by_contra hcon
    refine absurd ((admits_iff hm e place down).mpr (.of_between (not_le.mp hcon) ?_)) (by simp [hdown])
    nlinarith
  have hfar' : ((m : ℚ) + 1 / 2) * 2 ^ e ≤ (down + 1 : ℕ) * 10 ^ place := by
    by_contra hcon
    refine absurd ((admits_iff hm e place (down + 1)).mpr (.of_between ?_ (not_le.mp hcon)))
      (by simp [hup])
    nlinarith
  push_cast at hfar'
  linarith

end Rounded

/-! ## The search -/

/-- A search that has a hit within its reach ends in a hit. -/
theorem Rounded.exists_onGrid?_of_firstHit (x : Rounded) (tie : Tie) (decade : Int) {n : Nat}
    (hn : (x.onGrid? tie (decade - n + 1)).isSome) (fuel : Nat) {count : Nat} (hle : count ≤ n)
    (hlt : n < count + fuel) : ∃ k : Nat, x.onGrid? tie (decade - k + 1) =
      some (x.firstHit tie decade fuel count) := by
  induction fuel generalizing count with
  | zero => omega
  | succ fuel ih =>
    rw [firstHit]
    cases hhit : x.onGrid? tie (decade - count + 1) with
    | some d => exact ⟨count, hhit⟩
    | none =>
      have hne : count ≠ n := by
        rintro rfl
        simp [hhit] at hn
      exact ih (by omega) (by omega)

/-- Seventeen digits are a grid finer than the interval. -/
theorem zpow_lt_of_canonical {m : Nat} {e decade : Int} (hc : Canonical m e)
    (hdecade : (10 : ℚ) ^ decade ≤ m * 2 ^ e) :
    (10 : ℚ) ^ (decade - 16) < (gapBelow m e / 4 + 1 / 2) * 2 ^ e := by
  have hpos : (0 : ℚ) < 2 ^ e := by positivity
  have hm : (m : ℚ) / 10 ^ 16 < gapBelow m e / 4 + 1 / 2 := by
    have hlt : (m : ℚ) < 2 ^ 53 := by exact_mod_cast hc.lt
    unfold gapBelow
    split
    · rename_i hhidden
      rw [hhidden.1]
      norm_num [hiddenBit]
    · rw [div_lt_iff₀ (by norm_num)]
      exact hlt.trans (by norm_num)
  calc (10 : ℚ) ^ (decade - 16) = 10 ^ decade / 10 ^ 16 := by
        rw [zpow_sub₀ (by norm_num)]
        norm_cast
    _ ≤ m * 2 ^ e / 10 ^ 16 := by gcongr
    _ = m / 10 ^ 16 * 2 ^ e := by ring
    _ < (gapBelow m e / 4 + 1 / 2) * 2 ^ e := mul_lt_mul_of_pos_right hm hpos

/-- **The shortest decimal of a number rounds to it.** -/
theorem shortest_roundsTo {m : Nat} {e : Int} (hc : Canonical m e) (tie : Tie) :
    RoundsTo m e (shortest tie m e).value := by
  have hmid : 0 < (Rounded.of m e).mid :=
    Nat.mul_pos (Nat.mul_pos (by decide) hc.pos) (powerRatio_pos Nat.two_pos (e - 2)).1
  have hdecade := zpow_decadeOf_le hmid (Rounded.den_pos m e) (Rounded.mid_eq m e)
  have hsome := Rounded.isSome_onGrid? hc.pos tie (zpow_lt_of_canonical hc hdecade)
  have hseventeen : ∀ decade : ℤ, decade - (17 : ℕ) + 1 = decade - 16 := fun decade => by
    push_cast
    ring
  rw [← hseventeen] at hsome
  obtain ⟨k, hhit⟩ := (Rounded.of m e).exists_onGrid?_of_firstHit tie _ hsome 17
    (show 1 ≤ 17 by decide) (by decide)
  rw [shortest, Digits.value_stripZeros]
  exact Rounded.roundsTo_of_onGrid? hc.pos hhit

end Formula.Decimal
