import Formula.Proofs.Decimal.Rounding

/-!
# The bits of a number

How the exact numbers of this development meet the numbers that programs compute with: packing
`m · 2 ^ e` gives the bits that `encode` says, and unpacking gives it back. From that, what a number
is made of determines it.

## Main results

* `exists_encode_of_parts`: the bits of a finite number
* `floatOfDecimal_eq`: a decimal that rounds to a number is read as it
* `neg_floatOfDecimal_eq`: the same of a negative number, of which the magnitude is read
* `isFinite_floatOfDecimal`: an integer of 64 bits is read as a finite number
-/

namespace Formula.Decimal

open Float.Model Float.Model.UnpackedFloat

/-! ## Packing and unpacking -/

theorem toNat_packComponents (s : Sign) (e : BitVec 11) (m : BitVec 52) :
    (packComponents .binary64 s e m).toNat =
      s.toBitVec.toNat * signBit + e.toNat * hiddenBit + m.toNat := by
  have he := e.isLt
  have hm := m.isLt
  unfold packComponents
  rw [BitVec.toNat_append, BitVec.toNat_append, ← Nat.shiftLeft_add_eq_or_of_lt hm,
    ← Nat.shiftLeft_add_eq_or_of_lt he, Nat.shiftLeft_eq, Nat.shiftLeft_eq, signBit, hiddenBit]
  omega

theorem toNat_unpackExponent (b : BitVec 64) :
    (@unpackExponent .binary64 b).toNat = b.toNat / hiddenBit % 2048 := by
  simp [unpackExponent, Nat.shiftRight_eq_div_pow, hiddenBit]

theorem toNat_unpackMantissa (b : BitVec 64) :
    (@unpackMantissa .binary64 b).toNat = b.toNat % hiddenBit := by
  simp [unpackMantissa, hiddenBit]

theorem toNat_unpackSign (b : BitVec 64) :
    (@unpackSign .binary64 b).toNat = b.toNat / signBit := by
  have := b.isLt
  unfold unpackSign
  simp [Nat.shiftRight_eq_div_pow, signBit]
  omega

/-- The bits of a number of the format with the given sign. -/
def signedEncode (s : Sign) (mantissa : Nat) (exponent : Int) : Nat :=
  s.toBitVec.toNat * signBit + encode mantissa exponent

theorem toNat_toBitVec_le (s : Sign) : s.toBitVec.toNat ≤ 1 := by
  cases s <;> decide

/-- The sign, the exponent and the mantissa in the bits of a number with all bits of a mantissa. -/
theorem encode_of_normal {m : Nat} {e : Int} (hc : Canonical m e) (hm : hiddenBit ≤ m) (s : Sign) :
    signedEncode s m e = s.toBitVec.toNat * signBit + (e + 1075).toNat * hiddenBit +
      (m - hiddenBit) := by
  have := hc.least
  simp only [signedEncode, encode, signBit, hiddenBit] at *
  omega

theorem toNat_pack_finite {m : Nat} {e : Int} (hc : Canonical m e) (s : Sign) :
    (UnpackedFloat.pack .binary64 (.finite s m e hc.pos)).toNat = signedEncode s m e := by
  have hlt := hc.lt
  have hleast := hc.least
  have hgreatest := hc.greatest
  have hpos := hc.pos
  have hbiased : (e + Format.binary64.exponentBias + Format.binary64.mantissaBitsWithoutImplicit).toNat =
      (e + 1075).toNat := by
    change (e + (1023 : ℕ) + (52 : ℕ)).toNat = _
    omega
  unfold UnpackedFloat.pack
  simp only [hbiased]
  rw [if_neg (by change ¬ 2048 ≤ _; omega)]
  -- a mantissa with the hidden bit is that of a normal number
  by_cases hm : hiddenBit ≤ m
  · have hlog : m.log2 = 52 := (Nat.log2_eq_iff (by omega)).mpr ⟨hm, hlt⟩
    rw [if_pos (by rw [hlog]; rfl), toNat_packComponents, encode_of_normal hc hm, BitVec.toNat_ofNat,
      BitVec.toNat_ofNat]
    simp only [hiddenBit] at *
    omega
  · have he := hc.exponent_eq (not_le.mp hm)
    have hlog : m.log2 < 52 := (Nat.log2_lt (by omega)).mpr (by simpa [hiddenBit] using hm)
    rw [if_neg (by change ¬ m.log2 + 1 = 53; omega), toNat_packComponents, signedEncode, encode, he,
      BitVec.toNat_ofNat, BitVec.toNat_ofNat]
    simp only [hiddenBit] at *
    omega

/-- The three fields of a row of bits. -/
theorem fields_eq {n sign exponent mantissa : Nat}
    (h : n = sign * signBit + exponent * hiddenBit + mantissa) (he : exponent < 2048)
    (hm : mantissa < hiddenBit) :
    n / signBit = sign ∧ n / hiddenBit % 2048 = exponent ∧ n % hiddenBit = mantissa := by
  simp only [signBit, hiddenBit] at *
  omega

theorem unpackSign_eq {b : BitVec 64} {s : Sign} (h : b.toNat / signBit = s.toBitVec.toNat) :
    Sign.ofBitVec (@unpackSign .binary64 b) = s := by
  have heq : @unpackSign .binary64 b = s.toBitVec :=
    BitVec.eq_of_toNat_eq ((toNat_unpackSign b).trans h)
  rw [heq]
  cases s <;> rfl

section Unpack

variable {m : Nat} {e : Int} (hc : Canonical m e) {s : Sign} {b : BitVec 64}
  (hb : b.toNat = signedEncode s m e)

include hb

/-- The hidden bit of a normal number is put back in front of the other ones. -/
theorem unpack_of_normal (hm : hiddenBit ≤ m) :
    UnpackedFloat.unpack .binary64 b = .finite s m e hc.pos := by
  have hlt := hc.lt
  have hleast := hc.least
  have hgreatest := hc.greatest
  have hexponent := toNat_unpackExponent b
  have hmantissa := toNat_unpackMantissa b
  have hbias : ((Format.binary64.exponentBias : Int) + Format.binary64.mantissaBitsWithoutImplicit) =
    1075 := rfl
  rw [encode_of_normal hc hm] at hb
  obtain ⟨hs, he, hr⟩ := fields_eq hb (by omega) (by simp only [hiddenBit] at *; omega)
  rw [he] at hexponent
  rw [hr] at hmantissa
  unfold UnpackedFloat.unpack
  rw [if_neg, if_neg]
  · have hwhole : (1#1 ++ @unpackMantissa .binary64 b).toNat = m := by
      rw [BitVec.toNat_append, ← Nat.shiftLeft_add_eq_or_of_lt (BitVec.isLt _), hmantissa,
        Nat.shiftLeft_eq]
      simp only [hiddenBit] at *
      change 1 * 2 ^ 52 + _ = _
      omega
    rw [finite.injEq, unpackSign_eq hs, hexponent, hbias]
    exact ⟨rfl, hwhole, by omega⟩
  · -- the exponent is neither that of the numbers next to zero nor that of infinity
    intro hzero
    rw [hzero] at hexponent
    change 0 = _ at hexponent
    omega
  · intro hones
    rw [hones] at hexponent
    change 2047 = _ at hexponent
    omega

/-- A number next to zero has no hidden bit. -/
theorem unpack_of_subnormal (hm : m < hiddenBit) :
    UnpackedFloat.unpack .binary64 b = .finite s m e hc.pos := by
  have hpos := hc.pos
  have hexponent := toNat_unpackExponent b
  have hmantissa := toNat_unpackMantissa b
  have hbias : ((Format.binary64.exponentBias : Int) + Format.binary64.mantissaBitsWithoutImplicit) =
    1075 := rfl
  obtain rfl := hc.exponent_eq hm
  have hb' : b.toNat = s.toBitVec.toNat * signBit + 0 * hiddenBit + m := by
    rw [hb]
    simp [signedEncode, encode]
  obtain ⟨hs, he, hr⟩ := fields_eq hb' (by decide) hm
  rw [he] at hexponent
  rw [hr] at hmantissa
  have hzero : @unpackExponent .binary64 b = 0#11 := BitVec.eq_of_toNat_eq hexponent
  have hne : @unpackMantissa .binary64 b ≠ 0#52 := by
    intro hzero
    rw [hzero] at hmantissa
    change 0 = _ at hmantissa
    omega
  unfold UnpackedFloat.unpack
  rw [if_neg, if_pos hzero, dif_neg hne]
  · rw [finite.injEq, unpackSign_eq hs, hexponent, hbias]
    exact ⟨rfl, hmantissa, rfl⟩
  · rw [hzero]
    decide

theorem unpack_eq_finite : UnpackedFloat.unpack .binary64 b = .finite s m e hc.pos := by
  rcases Nat.lt_or_ge m hiddenBit with hm | hm
  · exact unpack_of_subnormal hc hb hm
  · exact unpack_of_normal hc hb hm

end Unpack

/-! ## What a number is made of -/

/-- The sign of a number that is negative or not. -/
def signOf (negative : Bool) : Sign :=
  if negative then .negative else .positive

theorem signedEncode_signOf (negative : Bool) (m : Nat) (e : Int) :
    signedEncode (signOf negative) m e = if negative then encode m e + signBit else encode m e := by
  cases negative
  · simp [signedEncode, signOf, Sign.toBitVec]
  · simp [signedEncode, signOf, Sign.toBitVec, Nat.add_comm]

/-- **The bits of a finite number** are those that its sign, its mantissa and its exponent say. -/
theorem toBits_of_parts {x : Float} {negative : Bool} {m : Nat} {e : Int}
    (h : parts x = .finite negative m e) :
    x.toBits.toNat = signedEncode (signOf negative) m e ∧ isNegative x = negative ∧
      (m = 0 ∧ e = -1074 ∨ Canonical m e) := by
  have hlt : x.toBits.toNat < 2 ^ 64 := x.toBits.toNat_lt
  rw [signedEncode_signOf]
  unfold parts partsOfBits at h
  unfold isNegative
  generalize x.toBits.toNat = bits at hlt h
  simp only at h
  -- all bits of the exponent set: infinity, or no number
  split at h
  · split at h <;> cases h
  rename_i hfinite
  split at h
  · rename_i hzero
    cases h
    refine ⟨?_, rfl, ?_⟩
    · by_cases hs : signBit ≤ bits <;>
        simp only [hs, decide_true, decide_false, Bool.false_eq_true, if_true, if_false, encode] <;>
        simp only [signBit, hiddenBit] at * <;> omega
    · rcases Nat.eq_zero_or_pos (bits % hiddenBit) with hm | hm
      · exact .inl ⟨hm, rfl⟩
      · have hm' := Nat.mod_lt bits (show 0 < hiddenBit by decide)
        exact .inr ⟨hm, by omega, by decide, by decide, fun hne => absurd rfl hne⟩
  · rename_i hnormal
    cases h
    refine ⟨?_, rfl, .inr ⟨?_, ?_, ?_, ?_, ?_⟩⟩
    · by_cases hs : signBit ≤ bits <;>
        simp only [hs, decide_true, decide_false, Bool.false_eq_true, if_true, if_false, encode] <;>
        simp only [signBit, hiddenBit] at * <;> omega
    all_goals simp only [hiddenBit] at *; omega

theorem eq_of_toBits {x y : Float} (h : x.toBits = y.toBits) : x = y := by
  obtain ⟨⟨_, _⟩⟩ := x
  obtain ⟨⟨_, _⟩⟩ := y
  cases h
  rfl

/-- A number is what packing gives for its bits. -/
theorem eq_pack {m : Nat} {e : Int} (hc : Canonical m e) {s : Sign} {x : Float}
    (h : x.toBits.toNat = signedEncode s m e) :
    x = .ofModel (Float.Model.pack (.finite s m e hc.pos)) := by
  refine eq_of_toBits (UInt64.toNat_inj.mp ?_)
  rw [h]
  exact (toNat_pack_finite hc s).symm

theorem signedEncode_lt {m : Nat} {e : Int} (hc : Canonical m e) (s : Sign) :
    signedEncode s m e < 2 ^ 64 := by
  have := toNat_toBitVec_le s
  have := hc.encode_lt
  simp only [signedEncode, signBit, infinityBits] at *
  omega

theorem ofBits_signedEncode {m : Nat} {e : Int} (hc : Canonical m e) (s : Sign) :
    Float.ofBits (UInt64.ofNat (signedEncode s m e)) =
      .ofModel (Float.Model.pack (.finite s m e hc.pos)) := by
  have hbits : (UInt64.ofNat (signedEncode s m e)).toBitVec.toNat = signedEncode s m e :=
    UInt64.toNat_ofNat_of_lt' (signedEncode_lt hc s)
  change Float.ofModel (Float.Model.pack (UnpackedFloat.unpack _ _)) = _
  rw [unpack_eq_finite hc hbits]

/-- Changing the sign of a number changes nothing else. -/
theorem neg_ofModel_pack {m : Nat} {e : Int} (hc : Canonical m e) (s : Sign) :
    -(Float.ofModel (Float.Model.pack (.finite s m e hc.pos))) =
      .ofModel (Float.Model.pack (.finite (-s) m e hc.pos)) := by
  have hbits : (Float.Model.pack (.finite s m e hc.pos)).toBits.toBitVec.toNat =
    signedEncode s m e := toNat_pack_finite hc s
  change Float.ofModel (Float.Model.pack (UnpackedFloat.unpack _ _).neg) = _
  rw [unpack_eq_finite hc hbits]
  rfl

/-! ## Reading a number back -/

/-- **A fraction is read as a number**, up to the sign. -/
def ReadsAs (x : Float) (v : ℚ) : Prop :=
  ∃ negative m e, parts x = .finite negative m e ∧ (m = 0 ∧ v = 0 ∨ m ≠ 0 ∧ RoundsTo m e v)

variable {x : Float} {digits : Nat} {exponent : Int}

/-- A decimal that is read as a number has its bits. -/
theorem exists_bitsOfDecimal (h : ReadsAs x (digits * 10 ^ exponent)) :
    ∃ m e, bitsOfDecimal digits exponent = encode m e ∧
      x.toBits.toNat = signedEncode (signOf (isNegative x)) m e ∧
      (m = 0 ∧ e = -1074 ∨ Canonical m e) := by
  obtain ⟨negative, m, e, hparts, hvalue⟩ := h
  obtain ⟨hbits, rfl, hform⟩ := toBits_of_parts hparts
  refine ⟨m, e, ?_, hbits, hform⟩
  rcases hform with ⟨rfl, rfl⟩ | hc
  · have hpow : (10 : ℚ) ^ exponent ≠ 0 := by positivity
    have hzero : digits = 0 := by simpa [hpow] using hvalue
    rw [hzero]
    rfl
  · obtain ⟨-, hround⟩ := hvalue.resolve_left fun hzero => hc.pos.ne' hzero.1
    exact bitsOfDecimal_of_roundsTo hc hround

/-- **The digits and the exponent that are read make up the number**, with its sign. -/
theorem floatOfDecimal_eq (h : ReadsAs x (digits * 10 ^ exponent)) :
    floatOfDecimal (isNegative x) digits exponent = x := by
  obtain ⟨m, e, hread, hbits, hform⟩ := exists_bitsOfDecimal h
  rw [floatOfDecimal, hread, ← signedEncode_signOf]
  rcases hform with ⟨rfl, rfl⟩ | hc
  · refine eq_of_toBits (UInt64.toNat_inj.mp ?_)
    rw [hbits]
    cases isNegative x <;> rfl
  · rw [ofBits_signedEncode hc, ← eq_pack hc hbits]

/-- **A negative number is read by its magnitude** and then given its sign. -/
theorem neg_floatOfDecimal_eq (h : ReadsAs x (digits * 10 ^ exponent)) (hx : isNegative x = true) :
    -floatOfDecimal false digits exponent = x := by
  obtain ⟨m, e, hread, hbits, hform⟩ := exists_bitsOfDecimal h
  have hpositive := signedEncode_signOf false m e
  rw [hx] at hbits
  simp only [Bool.false_eq_true, if_false] at hpositive
  rw [floatOfDecimal, hread]
  simp only [Bool.false_eq_true, if_false]
  rw [← hpositive]
  rcases hform with ⟨rfl, rfl⟩ | hc
  · refine eq_of_toBits (UInt64.toNat_inj.mp ?_)
    rw [hbits]
    rfl
  · rw [ofBits_signedEncode hc, neg_ofModel_pack hc]
    exact (eq_pack hc hbits).symm

/-! ## Finite numbers -/

/-- The bits below those of infinity are zero or those of a positive number of the format. -/
theorem exists_encode {bits : Nat} (h : bits < infinityBits) :
    bits = 0 ∨ ∃ m e, Canonical m e ∧ bits = encode m e := by
  rcases Nat.eq_zero_or_pos bits with hzero | hpos
  · exact .inl hzero
  by_cases hnormal : bits < hiddenBit
  · exact .inr ⟨bits, -1074, ⟨hpos, by omega, le_refl _, by decide, fun hne => absurd rfl hne⟩, by
      simp [encode]⟩
  · refine .inr ⟨bits % hiddenBit + hiddenBit, (bits / hiddenBit : Nat) - 1075, ⟨?_, ?_, ?_, ?_, ?_⟩, ?_⟩
    all_goals simp only [encode, hiddenBit, infinityBits] at *; omega

theorem isFinite_of_toBits {x : Float} (h : x.toBits.toNat % signBit < infinityBits) :
    isFinite x = true := by
  have hlt : x.toBits.toNat < 2 ^ 64 := x.toBits.toNat_lt
  have hbiased : x.toBits.toNat / hiddenBit % 2048 ≠ 2047 := by
    simp only [hiddenBit, signBit, infinityBits] at *
    omega
  unfold isFinite parts partsOfBits
  simp only [hbiased, if_false]
  by_cases hzero : x.toBits.toNat / hiddenBit % 2048 = 0
  · rw [if_pos hzero]
  · rw [if_neg hzero]

theorem isFinite_ofBits {bits : Nat} (h : bits < infinityBits) (negative : Bool) :
    isFinite (Float.ofBits (UInt64.ofNat (if negative then bits + signBit else bits))) = true := by
  rcases exists_encode h with rfl | ⟨m, e, hc, rfl⟩
  · cases negative <;> decide +kernel
  · rw [← signedEncode_signOf, ofBits_signedEncode hc]
    refine isFinite_of_toBits ?_
    rw [show (Float.ofModel (Float.Model.pack (.finite (signOf negative) m e hc.pos))).toBits.toNat =
      signedEncode (signOf negative) m e from toNat_pack_finite hc _, signedEncode_signOf]
    simp only [signBit, infinityBits] at *
    split <;> omega

/-- A quotient is read with a mantissa of at most 53 bits, or the first number of the next binade. -/
theorem roundDiv_binadeOf_le {num den : Nat} (hnum : 0 < num) (hden : 0 < den) :
    roundDiv (num * (powerRatio 2 (binadeOf num den)).2) (den * (powerRatio 2 (binadeOf num den)).1) ≤
      2 * hiddenBit := by
  have hden' : (den : ℚ) ≠ 0 := by exact_mod_cast hden.ne'
  obtain ⟨-, hhigh, -⟩ := binadeOf_spec (v := num / den) hnum hden (div_mul_cancel₀ _ hden').symm
  obtain ⟨hp, hr⟩ := powerRatio_pos Nat.two_pos (binadeOf num den)
  -- the quotient is below twice the hidden bit in the units of its binade
  have hle : num * (powerRatio 2 (binadeOf num den)).2 ≤
      2 * hiddenBit * (den * (powerRatio 2 (binadeOf num den)).1) := by
    have hr' : (0 : ℚ) < (powerRatio 2 (binadeOf num den)).2 := by exact_mod_cast hr
    have hd' : (0 : ℚ) < den := by exact_mod_cast hden
    rw [div_lt_iff₀ hd'] at hhigh
    rw [← Nat.cast_le (α := ℚ), Nat.cast_mul, Nat.cast_mul, Nat.cast_mul den, powerRatio_fst Nat.two_pos]
    refine (mul_le_mul_of_nonneg_right hhigh.le hr'.le).trans (le_of_eq ?_)
    rw [zpow_add₀ (by norm_num)]
    push_cast [hiddenBit]
    ring
  have hround : 2 * (den * (powerRatio 2 (binadeOf num den)).1) *
      roundDiv (num * (powerRatio 2 (binadeOf num den)).2)
        (den * (powerRatio 2 (binadeOf num den)).1) ≤
      2 * (num * (powerRatio 2 (binadeOf num den)).2) + den * (powerRatio 2 (binadeOf num den)).1 :=
    roundDiv_le (Nat.mul_pos hden hp)
  generalize den * (powerRatio 2 (binadeOf num den)).1 = unit at hle hround ⊢
  by_contra hgreat
  have hunit : 0 < unit := Nat.pos_of_ne_zero fun h => by
    rw [h, Nat.mul_zero] at hle
    exact (Nat.mul_pos hnum hr).ne' (Nat.le_zero.mp hle)
  have := Nat.mul_le_mul_left (2 * unit) (not_le.mp hgreat)
  nlinarith

/-- **A whole number of 64 bits is read as a finite number.** -/
theorem bitsOfDecimal_lt_infinityBits {n : Nat} (hn : n < 2 ^ 64) :
    bitsOfDecimal n 0 < infinityBits := by
  unfold bitsOfDecimal
  split
  · decide
  rename_i hzero
  have hpos : 0 < n := Nat.pos_of_ne_zero hzero
  have hcount : digitCount n ≤ 20 :=
    (Nat.length_toDigits_le_iff (by decide) (by decide)).mpr (hn.trans (by decide))
  -- with so few digits the number is neither taken for infinity nor for zero at once
  rw [if_neg (by omega), if_neg (by omega)]
  change bitsOfRatio (n * 1) 1 < infinityBits
  rw [Nat.mul_one]
  obtain ⟨hleast, -, hlow⟩ := binadeOf_spec (v := n) hpos Nat.one_pos (by simp)
  -- the mantissa has 53 of the 64 bits, so that the exponent is at most 11
  have hbound : binadeOf n 1 ≤ 11 := by
    by_contra hgreat
    have hlt : (n : ℚ) < 2 ^ (64 : ℤ) := by exact_mod_cast hn
    have := (zpow_lt_zpow_iff_right₀ (by norm_num : (1 : ℚ) < 2)).mp
      ((hlow (by omega)).trans_lt hlt)
    omega
  have hmantissa := roundDiv_binadeOf_le hpos Nat.one_pos
  unfold bitsOfRatio
  rw [if_neg hzero]
  refine (min_le_left _ _).trans_lt ?_
  change (binadeOf n 1 + 1074).toNat * hiddenBit + roundDiv (n * (powerRatio 2 (binadeOf n 1)).2)
    (1 * (powerRatio 2 (binadeOf n 1)).1) < infinityBits
  simp only [hiddenBit, infinityBits] at hmantissa ⊢
  omega

/-- **An integer of 64 bits, with or without a sign, is read as a finite number.** -/
theorem isFinite_floatOfDecimal {n : Nat} (hn : n < 2 ^ 64) (negative : Bool) :
    isFinite (floatOfDecimal negative n 0) = true :=
  isFinite_ofBits (bitsOfDecimal_lt_infinityBits hn) negative

end Formula.Decimal
