import Formula.Decimal.Reading
import Mathlib.Algebra.Order.Field.Power
import Mathlib.Data.Rat.Cast.Order
import Mathlib.Tactic.FieldSimp
import Mathlib.Tactic.Linarith
import Mathlib.Tactic.NormNum
import Mathlib.Tactic.Positivity
import Mathlib.Tactic.Ring

/-!
# Rounding to a number of the format

A positive number of the format is `m · 2 ^ e` with a mantissa `m` of 53 bits, or of fewer bits at
the least exponent. The fractions that are nearer to it than to any other number of the format form
an interval around it. Reading a fraction of that interval gives that number.

## Main definitions

* `Canonical m e`: `m · 2 ^ e` is written as a positive number of the format is
* `encode m e`: its bits
* `RoundsTo m e v`: the fraction `v` lies in the interval around `m · 2 ^ e`

## Main results

* `roundDiv_of_ratio`: which number a quotient is rounded to
* `binadeOf_spec`: how many units of its binade a quotient is
* `bitsOfRatio_of_roundsTo`, `bitsOfDecimal_of_roundsTo`: what a fraction of the interval is read as
-/

namespace Formula.Decimal

/-! ## Powers as fractions -/

theorem powerRatio_pos {base : Nat} (hbase : 0 < base) (exponent : Int) :
    0 < (powerRatio base exponent).1 ∧ 0 < (powerRatio base exponent).2 := by
  cases exponent with
  | ofNat n => exact ⟨Nat.pow_pos hbase, Nat.one_pos⟩
  | negSucc n => exact ⟨Nat.one_pos, Nat.pow_pos hbase⟩

/-- The numerator is that many times the denominator. -/
theorem powerRatio_fst {base : Nat} (hbase : 0 < base) (exponent : Int) :
    ((powerRatio base exponent).1 : ℚ) =
      (base : ℚ) ^ exponent * (powerRatio base exponent).2 := by
  have hne : (base : ℚ) ≠ 0 := by positivity
  cases exponent with
  | ofNat n => simp [powerRatio]
  | negSucc n =>
    simp only [powerRatio, zpow_negSucc, Nat.pow_eq, Nat.cast_one, Nat.cast_pow]
    exact (inv_mul_cancel₀ (pow_ne_zero _ hne)).symm

/-! ## The nearest whole number -/

theorem roundDiv_eq {num den k : Nat} (hden : 0 < den) (hlow : 2 * k * den ≤ 2 * num + den)
    (hhigh : 2 * num ≤ 2 * k * den + den)
    (hodd : k % 2 = 1 → 2 * k * den < 2 * num + den ∧ 2 * num < 2 * k * den + den) :
    roundDiv num den = k := by
  have hdm := Nat.div_add_mod num den
  have hlt := Nat.mod_lt num hden
  unfold roundDiv
  generalize num / den = low at hdm
  generalize num % den = rest at hdm hlt
  -- the quotient is `k` or `k - 1`
  have hle : low ≤ k := by
    by_contra hcon
    have : den * (k + 1) ≤ den * low := Nat.mul_le_mul_left den (by omega)
    grind
  have hge : k ≤ low + 1 := by
    by_contra hcon
    have : den * (low + 2) ≤ den * k := Nat.mul_le_mul_left den (by omega)
    grind
  rcases Nat.mod_two_eq_zero_or_one k with hk | hk
  · rcases (by omega : low = k ∨ low + 1 = k) with rfl | rfl <;> simp only <;> grind
  · obtain ⟨hl, hh⟩ := hodd hk
    rcases (by omega : low = k ∨ low + 1 = k) with rfl | rfl <;> simp only <;> grind

/-- A quotient within half a unit of `k` is rounded to `k`; where it lies in the middle, `k` must be
even. -/
theorem roundDiv_of_ratio {num den k : Nat} {w : ℚ} (hden : 0 < den) (hw : (num : ℚ) = w * den)
    (hlow : (k : ℚ) - 1 / 2 ≤ w) (hhigh : w ≤ k + 1 / 2)
    (hodd : k % 2 = 1 → (k : ℚ) - 1 / 2 < w ∧ w < k + 1 / 2) : roundDiv num den = k := by
  have hpos : (0 : ℚ) < den := by exact_mod_cast hden
  refine roundDiv_eq hden ?_ ?_ fun hk => ⟨?_, ?_⟩
  · have : (2 * k * den : ℚ) ≤ 2 * num + den := by rw [hw]; nlinarith
    exact_mod_cast this
  · have : (2 * num : ℚ) ≤ 2 * k * den + den := by rw [hw]; nlinarith
    exact_mod_cast this
  · have hl := (hodd hk).1
    have : (2 * k * den : ℚ) < 2 * num + den := by rw [hw]; nlinarith
    exact_mod_cast this
  · have hh := (hodd hk).2
    have : (2 * num : ℚ) < 2 * k * den + den := by rw [hw]; nlinarith
    exact_mod_cast this

/-! ## The binade of a quotient -/

/-- The lengths of two numbers tell their quotient up to a factor of two on each side. -/
theorem zpow_log2_lt {num den : Nat} {v : ℚ} (hnum : 0 < num) (hden : 0 < den)
    (hv : (num : ℚ) = v * den) :
    (2 : ℚ) ^ ((Nat.log2 num : ℤ) - Nat.log2 den - 1) < v ∧
      v < 2 ^ ((Nat.log2 num : ℤ) - Nat.log2 den + 1) := by
  have hnumpos : (0 : ℚ) < num := by exact_mod_cast hnum
  have hdenpos : (0 : ℚ) < den := by exact_mod_cast hden
  have heq : v = num / den := (eq_div_iff hdenpos.ne').mpr hv.symm
  -- a number lies between the power of two that its length says and the next one
  have hnum₁ : ((2 : ℚ) ^ (Nat.log2 num : ℤ)) ≤ num := by
    exact_mod_cast Nat.log2_self_le hnum.ne'
  have hnum₂ : (num : ℚ) < 2 ^ ((Nat.log2 num : ℤ) + 1) := by
    exact_mod_cast Nat.lt_log2_self
  have hden₁ : ((2 : ℚ) ^ (Nat.log2 den : ℤ)) ≤ den := by
    exact_mod_cast Nat.log2_self_le hden.ne'
  have hden₂ : (den : ℚ) < 2 ^ ((Nat.log2 den : ℤ) + 1) := by
    exact_mod_cast Nat.lt_log2_self
  constructor
  · calc (2 : ℚ) ^ ((Nat.log2 num : ℤ) - Nat.log2 den - 1)
        = 2 ^ (Nat.log2 num : ℤ) / 2 ^ ((Nat.log2 den : ℤ) + 1) := by
          rw [← zpow_sub₀ (by norm_num)]
          congr 1
          ring
      _ < num / den := div_lt_div₀' hnum₁ hden₂ hnumpos hdenpos
      _ = v := heq.symm
  · calc v = num / den := heq
      _ < 2 ^ ((Nat.log2 num : ℤ) + 1) / 2 ^ (Nat.log2 den : ℤ) :=
          div_lt_div₀ hnum₂ hden₁ (by positivity) (by positivity)
      _ = 2 ^ ((Nat.log2 num : ℤ) - Nat.log2 den + 1) := by
          rw [← zpow_sub₀ (by norm_num)]
          congr 1
          ring

/-- **How many units of its binade a quotient is**: less than 53 bits hold, and not less than the
first of them unless the binade is the least one. -/
theorem binadeOf_spec {num den : Nat} {v : ℚ} (hnum : 0 < num) (hden : 0 < den)
    (hv : (num : ℚ) = v * den) :
    -1074 ≤ binadeOf num den ∧ v < 2 ^ (binadeOf num den + 53) ∧
      (binadeOf num den ≠ -1074 → 2 ^ (binadeOf num den + 52) ≤ v) := by
  obtain ⟨hlow, hhigh⟩ := zpow_log2_lt hnum hden hv
  have htwo : (1 : ℚ) ≤ 2 := by norm_num
  have hdef : ∀ length, length = (Nat.log2 num : ℤ) - Nat.log2 den → binadeOf num den =
      max (if num * (powerRatio 2 length).2 < den * (powerRatio 2 length).1 then length - 53
        else length - 53 + 1) (-1074) := by
    rintro length rfl
    unfold binadeOf
    simp only [sub_add_cancel]
  generalize (Nat.log2 num : ℤ) - Nat.log2 den = length at hlow hhigh hdef
  rw [hdef length rfl]
  -- the lengths leave two binades, and the comparison decides between them
  have hcompare : num * (powerRatio 2 length).2 < den * (powerRatio 2 length).1 ↔
      v < 2 ^ length := by
    have hr : (0 : ℚ) < (powerRatio 2 length).2 := by
      exact_mod_cast (powerRatio_pos Nat.two_pos length).2
    have hd : (0 : ℚ) < den := by exact_mod_cast hden
    rw [← Nat.cast_lt (α := ℚ), Nat.cast_mul, Nat.cast_mul, powerRatio_fst Nat.two_pos, hv]
    rw [show v * den * (powerRatio 2 length).2 = v * (den * (powerRatio 2 length).2) by ring]
    rw [show (den : ℚ) * (((2 : ℕ) : ℚ) ^ length * (powerRatio 2 length).2) =
      2 ^ length * (den * (powerRatio 2 length).2) by push_cast; ring]
    exact mul_lt_mul_iff_left₀ (mul_pos hd hr)
  simp only [hcompare]
  split
  · rename_i hlt
    exact ⟨le_max_right _ _, hlt.trans_le (zpow_le_zpow_right₀ htwo (by omega)), fun hne =>
      (zpow_le_zpow_right₀ htwo (by omega)).trans hlow.le⟩
  · rename_i hge
    exact ⟨le_max_right _ _, hhigh.trans_le (zpow_le_zpow_right₀ htwo (by omega)), fun hne =>
      (zpow_le_zpow_right₀ htwo (by omega)).trans (not_lt.mp hge)⟩

/-! ## Numbers of the format -/

/-- **The positive numbers of the format.** `mantissa · 2 ^ exponent` with a mantissa of 53 bits, or
of fewer at the least exponent. -/
structure Canonical (mantissa : Nat) (exponent : Int) : Prop where
  pos : 0 < mantissa
  lt : mantissa < 2 * hiddenBit
  least : -1074 ≤ exponent
  greatest : exponent ≤ 971
  normal : exponent ≠ -1074 → hiddenBit ≤ mantissa

/-- A number without the hidden bit is one of those next to zero. -/
theorem Canonical.exponent_eq {m : Nat} {e : Int} (h : Canonical m e) (hm : m < hiddenBit) :
    e = -1074 := by
  by_contra hne
  exact hm.not_ge (h.normal hne)

/-- The bits of a positive number of the format. -/
def encode (mantissa : Nat) (exponent : Int) : Nat :=
  (exponent + 1074).toNat * hiddenBit + mantissa

theorem Canonical.encode_lt {m : Nat} {e : Int} (h : Canonical m e) : encode m e < infinityBits := by
  have := h.lt
  have := h.greatest
  simp only [encode, hiddenBit, infinityBits] at *
  omega

/-- How far it is to half the way to the number below, in quarters of a unit. Below a power of two
the numbers are half as far apart, except at the least exponent. -/
def gapBelow (mantissa : Nat) (exponent : Int) : Nat :=
  if mantissa = hiddenBit ∧ exponent ≠ -1074 then 1 else 2

theorem gapBelow_le (m : Nat) (e : Int) : gapBelow m e ≤ 2 := by
  unfold gapBelow
  split <;> omega

theorem one_le_gapBelow (m : Nat) (e : Int) : 1 ≤ gapBelow m e := by
  unfold gapBelow
  split <;> omega

/-- **What rounds to a number of the format**: a fraction not farther from it than half the way to
its neighbours. Those in the middle round to the even one. -/
structure RoundsTo (mantissa : Nat) (exponent : Int) (v : ℚ) : Prop where
  low : (mantissa - gapBelow mantissa exponent / 4 : ℚ) * 2 ^ exponent ≤ v
  high : v ≤ (mantissa + 1 / 2) * 2 ^ exponent
  odd : mantissa % 2 = 1 → (mantissa - gapBelow mantissa exponent / 4 : ℚ) * 2 ^ exponent < v ∧
    v < (mantissa + 1 / 2) * 2 ^ exponent

/-! ## Reading a fraction -/

/-- A quotient within half a unit of `k` units of its binade is read as `k` of them. -/
theorem bitsOfRatio_eq {num den k : Nat} {v : ℚ} {q : Int} (hnum : 0 < num) (hden : 0 < den)
    (hv : (num : ℚ) = v * den) (hq : binadeOf num den = q)
    (hlow : (k - 1 / 2 : ℚ) * 2 ^ q ≤ v) (hhigh : v ≤ (k + 1 / 2) * 2 ^ q)
    (hodd : k % 2 = 1 → (k - 1 / 2 : ℚ) * 2 ^ q < v ∧ v < (k + 1 / 2) * 2 ^ q) :
    bitsOfRatio num den = min ((q + 1074).toNat * hiddenBit + k) infinityBits := by
  have hunit : (0 : ℚ) < 2 ^ q := by positivity
  have hround : roundDiv (num * (powerRatio 2 q).2) (den * (powerRatio 2 q).1) = k := by
    refine roundDiv_of_ratio (w := v / 2 ^ q) (Nat.mul_pos hden (powerRatio_pos Nat.two_pos q).1) ?_
      ((le_div_iff₀ hunit).mpr hlow) ((div_le_iff₀ hunit).mpr hhigh) fun hk =>
      ⟨(lt_div_iff₀ hunit).mpr (hodd hk).1, (div_lt_iff₀ hunit).mpr (hodd hk).2⟩
    push_cast
    rw [powerRatio_fst Nat.two_pos, hv]
    push_cast
    field_simp
  unfold bitsOfRatio
  simp only [hnum.ne', if_false, hq, hround]

namespace RoundsTo

variable {m : Nat} {e : Int} {v : ℚ}

/-- A fraction that rounds to a number has less than 53 bits in its units. -/
theorem lt_zpow (hc : Canonical m e) (h : RoundsTo m e v) : v < 2 ^ (e + 53) := by
  have hm : (m : ℚ) + 1 ≤ 2 ^ 53 := by exact_mod_cast hc.lt
  calc v ≤ (m + 1 / 2) * 2 ^ e := h.high
    _ < 2 ^ 53 * 2 ^ e := mul_lt_mul_of_pos_right (by linarith) (by positivity)
    _ = 2 ^ (e + 53) := by rw [zpow_add₀ (by norm_num), mul_comm]; norm_cast

/-- A fraction that rounds to a number has its first bit, or lies just below. -/
theorem le_of_normal (hc : Canonical m e) (h : RoundsTo m e v) (he : e ≠ -1074) :
    (hiddenBit - 1 / 4 : ℚ) * 2 ^ e ≤ v ∧ (m ≠ hiddenBit → 2 ^ (e + 52) ≤ v) := by
  have hpos : (0 : ℚ) < 2 ^ e := by positivity
  have hsplit : (2 : ℚ) ^ (e + 52) = hiddenBit * 2 ^ e := by
    rw [zpow_add₀ (by norm_num), mul_comm]
    norm_num [hiddenBit]
  -- below the first mantissa of a binade the numbers are closer to each other
  by_cases hm : m = hiddenBit
  · refine ⟨?_, fun hne => absurd hm hne⟩
    have hlow := h.low
    simp only [gapBelow, hm, he, ne_eq, not_false_eq_true, and_self, if_true] at hlow
    exact_mod_cast hlow
  · have hlow := h.low
    have hnext : (hiddenBit : ℚ) + 1 ≤ m := by
      exact_mod_cast Nat.lt_of_le_of_ne (hc.normal he) (Ne.symm hm)
    simp only [gapBelow, hm, false_and, if_false] at hlow
    have hle : (hiddenBit : ℚ) * 2 ^ e ≤ v :=
      le_trans (mul_le_mul_of_nonneg_right (by push_cast; linarith) hpos.le) hlow
    exact ⟨le_trans (mul_le_mul_of_nonneg_right (by linarith) hpos.le) hle, fun _ => hsplit ▸ hle⟩

/-- **The binade of a fraction is that of the number it rounds to**, unless the fraction lies just
below a power of two. -/
theorem binade_cases (hc : Canonical m e) (h : RoundsTo m e v) {q : Int} (hleast : -1074 ≤ q)
    (hlt : v < 2 ^ (q + 53)) (hle : q ≠ -1074 → 2 ^ (q + 52) ≤ v) :
    q = e ∨ (q = e - 1 ∧ m = hiddenBit ∧ e ≠ -1074) := by
  have htwo : (1 : ℚ) < 2 := by norm_num
  -- in a greater binade the fraction would round to a greater number
  have hupper : q ≤ e := by
    by_contra hcon
    have hq := hle (by have := hc.least; omega)
    have := (zpow_lt_zpow_iff_right₀ htwo).mp (hq.trans_lt (h.lt_zpow hc))
    omega
  rcases eq_or_ne q e with heq | hne
  · exact .inl heq
  · have he : e ≠ -1074 := by omega
    obtain ⟨hquarter, hwhole⟩ := h.le_of_normal hc he
    have hm : m = hiddenBit := by
      by_contra hcon
      have := (zpow_lt_zpow_iff_right₀ htwo).mp ((hwhole hcon).trans_lt hlt)
      omega
    refine .inr ⟨?_, hm, he⟩
    by_contra hcon
    have hhalf : (2 : ℚ) ^ (e + 51) < v := by
      refine lt_of_lt_of_le ?_ hquarter
      rw [zpow_add₀ (by norm_num), mul_comm]
      exact mul_lt_mul_of_pos_right (by norm_num [hiddenBit]) (by positivity)
    have := (zpow_lt_zpow_iff_right₀ htwo).mp (hhalf.trans hlt)
    omega

theorem pos (hc : Canonical m e) (h : RoundsTo m e v) : 0 < v := by
  have hm : (1 : ℚ) ≤ m := by exact_mod_cast hc.pos
  have hgap : (gapBelow m e : ℚ) ≤ 2 := by exact_mod_cast gapBelow_le m e
  refine lt_of_lt_of_le (mul_pos ?_ (by positivity)) h.low
  linarith

end RoundsTo

/-- **A fraction that rounds to a number is read as it.** -/
theorem bitsOfRatio_of_roundsTo {m : Nat} {e : Int} (hc : Canonical m e) {num den : Nat} {v : ℚ}
    (hden : 0 < den) (hv : (num : ℚ) = v * den) (h : RoundsTo m e v) :
    bitsOfRatio num den = encode m e := by
  have hdpos : (0 : ℚ) < den := by exact_mod_cast hden
  have hnum : 0 < num := by exact_mod_cast hv ▸ mul_pos (h.pos hc) hdpos
  have hgap : (gapBelow m e : ℚ) ≤ 2 := by exact_mod_cast gapBelow_le m e
  have hunit : (0 : ℚ) < 2 ^ e := by positivity
  have hgapped : (m - 1 / 2 : ℚ) * 2 ^ e ≤ (m - gapBelow m e / 4 : ℚ) * 2 ^ e :=
    mul_le_mul_of_nonneg_right (by linarith) hunit.le
  obtain ⟨hleast, hlt, hle⟩ := binadeOf_spec hnum hden hv
  rcases h.binade_cases hc hleast hlt hle with hq | ⟨hq, hm, he⟩
  · rw [bitsOfRatio_eq hnum hden hv hq (hgapped.trans h.low) h.high fun hodd =>
      ⟨hgapped.trans_lt (h.odd hodd).1, (h.odd hodd).2⟩]
    exact Nat.min_eq_left hc.encode_lt.le
  · -- the fraction is rounded up to the power of two, which has one unit more of the binade below
    have htwice : (2 : ℚ) ^ e = 2 * 2 ^ (e - 1) := by
      rw [zpow_sub_one₀ (by norm_num)]
      ring
    have hquarter := (h.le_of_normal hc he).1
    have hbelow : v < 2 ^ (e + 52) := by
      rw [hq] at hlt
      exact hlt.trans_eq (congrArg _ (by ring))
    have hsplit : (2 : ℚ) ^ (e + 52) = (2 * hiddenBit : ℕ) * 2 ^ (e - 1) := by
      rw [show e + 52 = (e - 1) + 53 by ring, zpow_add₀ (by norm_num), mul_comm]
      norm_num [hiddenBit]
    rw [bitsOfRatio_eq (k := 2 * hiddenBit) hnum hden hv hq]
    · rw [hm] at hc ⊢
      have := hc.least
      have := hc.greatest
      simp only [encode, hiddenBit, infinityBits]
      omega
    · refine le_trans (le_of_eq ?_) hquarter
      rw [htwice]
      push_cast
      ring
    · refine (hbelow.trans_eq hsplit).le.trans ?_
      exact mul_le_mul_of_nonneg_right (by linarith) (by positivity)
    · intro hodd
      exact absurd hodd (by decide)

/-! ## Reading a decimal -/

theorem one_le_digitCount (n : Nat) : 1 ≤ digitCount n :=
  Nat.length_toDigits_pos

theorem lt_pow_digitCount (n : Nat) : n < 10 ^ digitCount n :=
  (Nat.length_toDigits_le_iff (by decide) Nat.length_toDigits_pos).mp (Nat.le_refl _)

theorem pow_digitCount_le {n : Nat} (hn : 0 < n) : 10 ^ (digitCount n - 1) ≤ n := by
  rcases Nat.lt_or_ge 1 (digitCount n) with hone | hone
  · by_contra hcon
    have := (Nat.length_toDigits_le_iff (b := 10) (n := n) (by decide)
      (show 0 < digitCount n - 1 by omega)).mpr (not_le.mp hcon)
    simp only [digitCount] at *
    omega
  · rw [Nat.sub_eq_zero_of_le hone]
    exact hn

/-- The magnitude of a decimal tells it up to a factor of ten. -/
theorem zpow_magnitude {digits : Nat} (hdigits : 0 < digits) (exponent : Int) :
    (10 : ℚ) ^ (exponent + digitCount digits - 1) ≤ digits * 10 ^ exponent ∧
      (digits : ℚ) * 10 ^ exponent < 10 ^ (exponent + digitCount digits) := by
  have hpos : (0 : ℚ) < 10 ^ exponent := by positivity
  have hlow : ((10 : ℚ) ^ (digitCount digits - 1)) ≤ digits := by
    exact_mod_cast pow_digitCount_le hdigits
  have hhigh : (digits : ℚ) < 10 ^ digitCount digits := by
    exact_mod_cast lt_pow_digitCount digits
  have hone := one_le_digitCount digits
  constructor
  · rw [show exponent + digitCount digits - 1 = ((digitCount digits - 1 : ℕ) : ℤ) + exponent by omega,
      zpow_add₀ (by norm_num), zpow_natCast]
    exact mul_le_mul_of_nonneg_right hlow hpos.le
  · rw [add_comm, zpow_add₀ (by norm_num), zpow_natCast]
    exact mul_lt_mul_of_pos_right hhigh hpos

/-- **A decimal that rounds to a number is read as it**, however it is written. -/
theorem bitsOfDecimal_of_roundsTo {m : Nat} {e : Int} (hc : Canonical m e) {digits : Nat}
    {exponent : Int} (h : RoundsTo m e (digits * 10 ^ exponent)) :
    bitsOfDecimal digits exponent = encode m e := by
  have hten : (1 : ℚ) < 10 := by norm_num
  have hdigits : 0 < digits := by
    by_contra hcon
    have := h.pos hc
    simp [Nat.eq_zero_of_not_pos hcon] at this
  obtain ⟨hlow, hhigh⟩ := zpow_magnitude hdigits exponent
  -- no number of the format is cut off
  have hbelow : exponent + digitCount digits ≤ 400 := by
    have hmax : (2 : ℚ) ^ (e + 53) ≤ 2 ^ (1024 : ℤ) :=
      zpow_le_zpow_right₀ (by norm_num) (by have := hc.greatest; omega)
    have hpow : (2 : ℚ) ^ (1024 : ℤ) < 10 ^ (399 : ℤ) := by
      exact_mod_cast (by decide +kernel : 2 ^ 1024 < 10 ^ 399)
    have hlt := (hlow.trans_lt ((h.lt_zpow hc).trans_le hmax)).trans hpow
    have := (zpow_lt_zpow_iff_right₀ hten).mp hlt
    omega
  have habove : -400 ≤ exponent + digitCount digits := by
    have hm : (1 : ℚ) ≤ m := by exact_mod_cast hc.pos
    have hgap : (gapBelow m e : ℚ) ≤ 2 := by exact_mod_cast gapBelow_le m e
    have hmin : (2 : ℚ) ^ (-1 : ℤ) * 2 ^ (-1074 : ℤ) ≤ digits * 10 ^ exponent := by
      refine le_trans (mul_le_mul ?_ ?_ (by positivity) (by linarith)) h.low
      · norm_num
        linarith
      · exact zpow_le_zpow_right₀ (by norm_num) hc.least
    have hpow : (10 : ℚ) ^ (-400 : ℤ) < 2 ^ (-1 : ℤ) * 2 ^ (-1074 : ℤ) := by
      rw [← zpow_add₀ (by norm_num), zpow_neg, show (-1 + -1074 : ℤ) = -1075 by rfl, zpow_neg]
      refine inv_strictAnti₀ (by positivity) ?_
      exact_mod_cast (by decide +kernel : 2 ^ 1075 < 10 ^ 400)
    exact ((zpow_lt_zpow_iff_right₀ hten).mp (hpow.trans (hmin.trans_lt hhigh))).le
  have hratio : ((digits * (powerRatio 10 exponent).1 : ℕ) : ℚ) =
      digits * 10 ^ exponent * (powerRatio 10 exponent).2 := by
    rw [Nat.cast_mul, powerRatio_fst (by decide)]
    push_cast
    ring
  unfold bitsOfDecimal
  simp only [hdigits.ne', if_false, not_lt.mpr hbelow, not_lt.mpr habove]
  exact bitsOfRatio_of_roundsTo hc (powerRatio_pos (by decide) exponent).2 hratio h

end Formula.Decimal
