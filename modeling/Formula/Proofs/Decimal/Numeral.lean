import Formula.Decimal.Layout
import Formula.Proofs.Decimal.Bits
import Formula.Proofs.Decimal.Shortest

/-!
# What a written number says

Every text that a layout writes is a numeral: digits, perhaps a point and more digits, perhaps an
exponent. Whatever the layout decides, the numeral stands for the decimal that is written.

## Main definitions

* `Numeral`: the parts of a written number
* `Layout.numeral`: the numeral that a layout writes for a decimal

## Main results

* `Layout.writeDigits_eq`: what is written is that numeral
* `Layout.value_numeral`: it stands for the decimal
* `Layout.exists_numeral`: a written number is a numeral that is read as the number
-/

namespace Formula.Decimal

/-! ## Rows of digits -/

theorem natOfDigits_eq (ds : List Char) : natOfDigits ds = Nat.ofDigitChars 10 ds 0 :=
  (Nat.ofDigitChars_eq_foldl ..).symm

theorem natOfDigits_append (ds es : List Char) :
    natOfDigits (ds ++ es) = natOfDigits ds * 10 ^ es.length + natOfDigits es := by
  rw [natOfDigits_eq, natOfDigits_eq, natOfDigits_eq, Nat.ofDigitChars_append,
    Nat.ofDigitChars_eq_ofDigitChars_zero, Nat.mul_comm]

@[simp]
theorem natOfDigits_replicate_zero (n : Nat) : natOfDigits (List.replicate n '0') = 0 := by
  rw [natOfDigits_eq, Nat.ofDigitChars_replicate_zero, Nat.mul_zero]

@[simp]
theorem natOfDigits_toDigits (n : Nat) : natOfDigits (Nat.toDigits 10 n) = n := by
  rw [natOfDigits_eq, Nat.ofDigitChars_ten_toDigits]

theorem isDigit_of_mem_toDigits {n : Nat} {c : Char} (hc : c ∈ Nat.toDigits 10 n) :
    c.isDigit = true :=
  Nat.isDigit_of_mem_toDigits (by decide) (by decide) hc

/-- Digits before what is no digit are read as the number that they stand for. -/
theorem readDigits_append {ds rest : List Char} (hds : ∀ c ∈ ds, c.isDigit = true)
    (hrest : ∀ c ∈ rest.head?, c.isDigit = false) (value count : Nat) :
    readDigits value count (ds ++ rest) =
      (value * 10 ^ ds.length + natOfDigits ds, count + ds.length, rest) := by
  induction ds generalizing value count with
  | nil =>
    cases rest with
    | nil => simp [readDigits, natOfDigits]
    | cons c rest => simp [readDigits, natOfDigits, hrest c rfl]
  | cons d ds ih =>
    have hd := hds d List.mem_cons_self
    have hvalue := natOfDigits_append [d] ds
    rw [List.singleton_append] at hvalue
    rw [List.cons_append, readDigits, if_pos hd, ih fun c hc => hds c (List.mem_cons_of_mem d hc), hvalue]
    refine Prod.ext ?_ (Prod.ext (by simp only [List.length_cons]; omega) rfl)
    simp only [natOfDigits, List.foldl_cons, List.foldl_nil, List.length_cons, pow_succ]
    ring

/-- A row of digits that begins with a zero is a zero alone. -/
theorem toDigits_eq_zero_of_head {n : Nat} (h : (Nat.toDigits 10 n).head? = some '0') :
    Nat.toDigits 10 n = ['0'] := by
  induction n using Nat.strongRecOn with
  | ind n ih =>
    rw [Nat.toDigits_eq_if (by decide)] at h ⊢
    split at h
    · rename_i hn
      rw [if_pos hn, Option.some.inj h]
    · rename_i hn
      rw [List.head?_append_of_ne_nil _ Nat.toDigits_ne_nil] at h
      have hzero := ih (n / 10) (by omega) h
      have hvalue := natOfDigits_toDigits (n / 10)
      rw [hzero] at hvalue
      have : n / 10 = 0 := hvalue.symm
      omega

/-- The text of an integer is its sign and the digits of its magnitude. -/
theorem toList_toString_int (n : Int) : (toString n).toList =
    (if n < 0 then ['-'] else []) ++ Nat.toDigits 10 n.natAbs := by
  cases n with
  | ofNat m =>
    change (Nat.repr m).toList = _
    simp [Nat.toList_repr]
  | negSucc m =>
    change ("-" ++ Nat.repr (m + 1)).toList = _
    simp [Nat.toList_repr, Int.negSucc_lt_zero]

/-- The text of an exponent is a sign and digits that stand for its magnitude. -/
theorem Layout.exists_exponentText (l : Layout) (e : Int) :
    ∃ ds, l.exponentText e =
        (if e < 0 then ['-'] else if l.signsExponent then ['+'] else []) ++ ds ∧
      ds ≠ [] ∧ (∀ c ∈ ds, c.isDigit = true) ∧ natOfDigits ds = e.natAbs := by
  refine ⟨List.replicate (l.exponentWidth - (Nat.toDigits 10 e.natAbs).length) '0' ++
    Nat.toDigits 10 e.natAbs, by simp [exponentText], by simp [Nat.toDigits_ne_nil], ?_, ?_⟩
  · intro c hc
    rcases List.mem_append.mp hc with hc | hc
    · rw [List.eq_of_mem_replicate hc]
      decide
    · exact isDigit_of_mem_toDigits hc
  · rw [natOfDigits_append, natOfDigits_replicate_zero, natOfDigits_toDigits, Nat.zero_mul,
      Nat.zero_add]

/-! ## Numerals -/

/-- The parts of a written number. -/
structure Numeral where
  whole : List Char
  fraction : List Char
  power : Option Int

namespace Numeral

/-- The digits of a numeral as one number. -/
def digits (n : Numeral) : Nat :=
  natOfDigits (n.whole ++ n.fraction)

/-- The exponent of the last digit of a numeral. -/
def exponent (n : Numeral) : Int :=
  n.power.getD 0 - n.fraction.length

/-- The fraction that a numeral stands for. -/
def value (n : Numeral) : ℚ :=
  n.digits * 10 ^ n.exponent

/-- Digits behind a point, if there are any. -/
def pointed : List Char → List Char
  | [] => []
  | d :: ds => '.' :: d :: ds

/-- The text of a numeral. -/
def text (l : Layout) (n : Numeral) : List Char :=
  n.whole ++ pointed n.fraction ++ n.power.elim [] fun e => 'e' :: l.exponentText e

/-- A numeral of digits: its parts hold nothing else, and there is a digit before the point. -/
structure Proper (n : Numeral) : Prop where
  whole_ne : n.whole ≠ []
  whole : ∀ c ∈ n.whole, c.isDigit = true
  fraction : ∀ c ∈ n.fraction, c.isDigit = true

end Numeral

namespace Layout

/-- The numeral of a decimal in positional notation. -/
def positionalNumeral (l : Layout) (ds : List Char) (magnitude : Int) : Numeral :=
  match magnitude with
  | .negSucc n => ⟨['0'], List.replicate n '0' ++ ds, none⟩
  | .ofNat n =>
    ⟨ds.take (n + 1) ++ List.replicate (n + 1 - ds.length) '0',
      if ds.length ≤ n + 1 then (if l.marksWhole then ['0'] else []) else ds.drop (n + 1), none⟩

/-- The numeral that is written for a decimal. -/
def numeral (l : Layout) (d : Digits) : Numeral :=
  if l.isPositional d.magnitude then l.positionalNumeral d.text d.magnitude
  else ⟨d.text.take 1, d.text.drop 1, some d.magnitude⟩

theorem positional_eq (l : Layout) {ds : List Char} (hds : ds ≠ []) (magnitude : Int) :
    l.positional ds magnitude = (l.positionalNumeral ds magnitude).text l := by
  cases magnitude with
  | negSucc n =>
    cases n with
    | zero =>
      obtain ⟨d, ds, rfl⟩ := List.exists_cons_of_ne_nil hds
      simp [positional, positionalNumeral, Numeral.text, Numeral.pointed]
    | succ n => simp [positional, positionalNumeral, Numeral.text, Numeral.pointed, List.replicate_succ]
  | ofNat n =>
    simp only [positional, positionalNumeral, Numeral.text, Option.elim_none, List.append_nil]
    by_cases hlen : ds.length ≤ n + 1
    · rw [List.drop_eq_nil_of_le hlen, if_pos hlen]
      cases l.marksWhole <;> simp [Numeral.pointed]
    · rw [if_neg hlen]
      obtain ⟨d, rest, hdrop⟩ := List.exists_cons_of_ne_nil
        (List.drop_eq_nil_iff.not.mpr hlen : ds.drop (n + 1) ≠ [])
      rw [hdrop]
      rfl

theorem text_ne_nil (d : Digits) : d.text ≠ [] :=
  Nat.toDigits_ne_nil

/-- **What is written for a decimal is its numeral.** -/
theorem writeDigits_eq (l : Layout) (d : Digits) : l.writeDigits d = (l.numeral d).text l := by
  unfold writeDigits numeral
  split
  · exact l.positional_eq (text_ne_nil d) d.magnitude
  · obtain ⟨c, cs, hds⟩ := List.exists_cons_of_ne_nil (text_ne_nil d)
    rw [hds]
    cases cs <;> simp [scientific, Numeral.text, Numeral.pointed]

/-- Zeros between the digits and the point, and behind it, change the exponent alone. -/
theorem value_zeros (ds : List Char) (k j : Nat) :
    (⟨ds ++ List.replicate k '0', List.replicate j '0', none⟩ : Numeral).value =
      natOfDigits ds * 10 ^ (k : ℤ) := by
  have hten : (10 : ℚ) ^ (j : ℤ) ≠ 0 := by positivity
  simp only [Numeral.value, Numeral.digits, Numeral.exponent, natOfDigits_append,
    natOfDigits_replicate_zero, List.length_replicate, Option.getD_none, Nat.add_zero, zero_sub,
    Nat.cast_mul, Nat.cast_pow, Nat.cast_ofNat, zpow_neg, zpow_natCast]
  exact mul_inv_cancel_right₀ (by positivity) _

theorem value_positionalNumeral (l : Layout) {ds : List Char} (hds : ds ≠ []) (magnitude : Int) :
    (l.positionalNumeral ds magnitude).value =
      natOfDigits ds * 10 ^ (magnitude - ds.length + 1) := by
  have hpos := List.length_pos_iff.mpr hds
  cases magnitude with
  | negSucc n =>
    have hdigits : natOfDigits (['0'] ++ (List.replicate n '0' ++ ds)) = natOfDigits ds := by
      rw [← List.append_assoc, natOfDigits_append, show ['0'] ++ List.replicate n '0' =
        List.replicate (n + 1) '0' from rfl, natOfDigits_replicate_zero, Nat.zero_mul, Nat.zero_add]
    simp only [positionalNumeral, Numeral.value, Numeral.digits, Numeral.exponent, hdigits,
      List.length_append, List.length_replicate, Option.getD_none]
    congr 2
    omega
  | ofNat n =>
    by_cases hlen : ds.length ≤ n + 1
    · have hfraction : (if l.marksWhole then ['0'] else []) =
          List.replicate (if l.marksWhole then 1 else 0) '0' := by
        cases l.marksWhole <;> rfl
      simp only [positionalNumeral, List.take_of_length_le hlen, if_pos hlen, hfraction, value_zeros,
        Int.ofNat_eq_natCast]
      congr 2
      omega
    · have hnone : n + 1 - ds.length = 0 := by omega
      simp only [positionalNumeral, if_neg hlen, hnone, List.replicate_zero, List.append_nil,
        Numeral.value, Numeral.digits, Numeral.exponent, List.take_append_drop, List.length_drop,
        Option.getD_none, Int.ofNat_eq_natCast]
      congr 2
      omega

/-- **The numeral of a decimal stands for it.** -/
theorem value_numeral (l : Layout) (d : Digits) : (l.numeral d).value = d.value := by
  have hdigits : natOfDigits d.text = d.coefficient := natOfDigits_toDigits _
  have hlen : d.magnitude = d.exponent + d.text.length - 1 := rfl
  unfold numeral
  split
  · rw [value_positionalNumeral l (text_ne_nil d), hdigits, Digits.value]
    congr 2
    omega
  · have hpos := List.length_pos_iff.mpr (text_ne_nil d)
    rw [Numeral.value, Numeral.digits, Numeral.exponent]
    simp only [List.take_append_drop, hdigits, List.length_drop, Option.getD_some, Digits.value]
    congr 2
    omega

/-! ## The numeral of a number -/

theorem proper_positionalNumeral (l : Layout) {ds : List Char} (hds : ds ≠ [])
    (hdigits : ∀ c ∈ ds, c.isDigit = true) (magnitude : Int) :
    (l.positionalNumeral ds magnitude).Proper := by
  have hzeros : ∀ n, ∀ c ∈ List.replicate n '0', c.isDigit = true := by
    intro n c hc
    rw [List.eq_of_mem_replicate hc]
    decide
  cases magnitude with
  | negSucc n =>
    refine ⟨by simp [positionalNumeral], by simp [positionalNumeral], fun c hc => ?_⟩
    exact (List.mem_append.mp hc).elim (hzeros n c) (hdigits c)
  | ofNat n =>
    refine ⟨?_, fun c hc => ?_, fun c hc => ?_⟩
    · simp [positionalNumeral, hds]
    · exact (List.mem_append.mp hc).elim (fun hc => hdigits c (List.mem_of_mem_take hc)) (hzeros _ c)
    · simp only [positionalNumeral] at hc
      split at hc
      · split at hc
        · exact hzeros 1 c hc
        · cases hc
      · exact hdigits c (List.mem_of_mem_drop hc)

theorem proper_numeral (l : Layout) (d : Digits) : (l.numeral d).Proper := by
  have hdigits : ∀ c ∈ d.text, c.isDigit = true := fun c hc => isDigit_of_mem_toDigits hc
  unfold numeral
  split
  · exact l.proper_positionalNumeral (text_ne_nil d) hdigits d.magnitude
  · obtain ⟨c, cs, hds⟩ := List.exists_cons_of_ne_nil (text_ne_nil d)
    refine ⟨by simp [hds], fun c hc => hdigits c (List.mem_of_mem_take hc), fun c hc =>
      hdigits c (List.mem_of_mem_drop hc)⟩

/-- Where whole numbers are marked, a numeral has a point or an exponent. -/
theorem marked_positionalNumeral {l : Layout} (hl : l.marksWhole = true) {ds : List Char}
    (hds : ds ≠ []) (magnitude : Int) : (l.positionalNumeral ds magnitude).fraction ≠ [] := by
  cases magnitude with
  | negSucc n => simp [positionalNumeral, hds]
  | ofNat n =>
    by_cases hlen : ds.length ≤ n + 1
    · simp [positionalNumeral, hlen, hl]
    · simp [positionalNumeral, hlen]

theorem marked_numeral {l : Layout} (hl : l.marksWhole = true) (d : Digits) :
    (l.numeral d).fraction ≠ [] ∨ (l.numeral d).power.isSome := by
  unfold numeral
  split
  · exact .inl (marked_positionalNumeral hl (text_ne_nil d) d.magnitude)
  · exact .inr rfl

/-- **What is written for a number**: its sign, and the numeral of zero or of a positive decimal. -/
theorem exists_written (l : Layout) {x : Float} (hx : isFinite x = true) :
    ∃ n : Numeral, (l.write x).toList = (if isNegative x then ['-'] else []) ++ n.text l ∧
      ReadsAs x n.value ∧
      (n = l.positionalNumeral ['0'] 0 ∨ ∃ d : Digits, 0 < d.coefficient ∧ n = l.numeral d) := by
  obtain ⟨negative, m, e, hparts⟩ : ∃ negative m e, parts x = .finite negative m e := by
    unfold isFinite at hx
    split at hx
    · exact ⟨_, _, _, ‹_›⟩
    · cases hx
  obtain ⟨-, hnegative, hform⟩ := toBits_of_parts hparts
  rw [hnegative]
  have hwrite : ∀ body, (String.ofList (if negative then '-' :: body else body)).toList =
      (if negative then ['-'] else []) ++ body := by
    intro body
    cases negative <;> simp
  simp only [write, hparts, hwrite]
  rcases hform with ⟨rfl, rfl⟩ | hc
  · refine ⟨_, ?_, ⟨negative, 0, -1074, hparts, .inl ⟨rfl, ?_⟩⟩, .inl rfl⟩
    · rw [if_pos rfl, l.positional_eq (by simp)]
    · rw [value_positionalNumeral l (by simp)]
      simp [natOfDigits, digitValue]
  · have hrounds := shortest_roundsTo hc l.tie
    refine ⟨_, ?_, ⟨negative, m, e, hparts, .inr ⟨hc.pos.ne', ?_⟩⟩, .inr ⟨shortest l.tie m e, ?_, rfl⟩⟩
    · rw [if_neg hc.pos.ne', l.writeDigits_eq]
    · rwa [l.value_numeral]
    · have hpos := hrounds.pos hc
      rw [Digits.value] at hpos
      exact Nat.cast_pos.mp (pos_of_mul_pos_left hpos (by positivity))

/-- **A written number is a numeral that is read as the number**, behind its sign. -/
theorem exists_numeral (l : Layout) {x : Float} (hx : isFinite x = true) :
    ∃ n : Numeral, (l.write x).toList = (if isNegative x then ['-'] else []) ++ n.text l ∧
      n.Proper ∧ ReadsAs x n.value ∧
      (l.marksWhole = true → n.fraction ≠ [] ∨ n.power.isSome) := by
  obtain ⟨n, htext, hreads, rfl | ⟨d, -, rfl⟩⟩ := l.exists_written hx
  · exact ⟨_, htext, l.proper_positionalNumeral (by simp) (by simp) 0, hreads, fun hl =>
      .inl (marked_positionalNumeral hl (by simp) 0)⟩
  · exact ⟨_, htext, l.proper_numeral d, hreads, fun hl => marked_numeral hl d⟩

end Layout

end Formula.Decimal
