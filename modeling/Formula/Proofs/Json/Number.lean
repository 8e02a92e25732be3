import Formula.Json.Number
import Formula.Proofs.Decimal.Numeral
import Formula.Proofs.Json.Text

/-!
# Numbers read back

The text of a number is read as that number, an integer as an integer and a floating-point number as
a floating-point number. Every number that is read is one of these.

## Main definitions

* `JsonNumber.Proper`: the numbers that texts stand for
* `EndsNumber`: what may stand behind a number

## Main results

* `readNumber_text`: the text of a number is read as that number
* `proper_of_readNumber`: a number that is read is proper
-/

namespace Formula

/-- **The numbers that texts stand for**: integers of 64 bits, with or without a sign, and finite
floating-point numbers. -/
def JsonNumber.Proper : JsonNumber → Prop
  | .integer n => -Decimal.intBound ≤ n ∧ n < 2 * Decimal.intBound
  | .float x => Decimal.isFinite x = true

namespace Json

open Decimal

/-! ## The parts of a number -/

/-- What stands behind a number does not go on with it. -/
def EndsNumber (rest : List Char) : Prop :=
  ∀ c ∈ rest.head?, c.isDigit = false ∧ c ≠ '.' ∧ c ≠ 'e' ∧ c ≠ 'E'

variable {ds rest : List Char}

theorem readSomeDigits_append (hne : ds ≠ []) (hds : ∀ c ∈ ds, c.isDigit = true)
    (hrest : ∀ c ∈ rest.head?, c.isDigit = false) (start : Nat) :
    ∃ h, readSomeDigits start (ds ++ rest) =
      .ok (start * 10 ^ ds.length + natOfDigits ds, ds.length, ⟨rest, h⟩) := by
  have hpos := List.length_pos_iff.mpr hne
  refine ⟨by simp only [List.length_append]; omega, ?_⟩
  have hread := readDigits_append hds hrest start 0
  unfold readSomeDigits
  split
  rename_i heq
  rw [hread] at heq
  cases heq
  rw [dif_neg (by omega)]
  simp only [Nat.zero_add]

/-- Digits before a point are read, if a zero at their head stands alone. -/
theorem readWhole_append (hne : ds ≠ []) (hds : ∀ c ∈ ds, c.isDigit = true)
    (hzero : ds.head? = some '0' → ds = ['0']) (hrest : ∀ c ∈ rest.head?, c.isDigit = false) :
    ReadsTo (readWhole (ds ++ rest)) (natOfDigits ds) rest := by
  -- a zero at the head is read by itself, and all other digits in a row
  by_cases hhead : ds.head? = some '0'
  · rw [hzero hhead]
    refine ⟨Nat.lt_succ_self _, ?_⟩
    have hany : rest.head?.any Char.isDigit = false := by
      simpa [Option.any_eq_false] using hrest
    simp [readWhole, hany, natOfDigits, digitValue]
  · obtain ⟨h, hread⟩ := readSomeDigits_append hne hds hrest 0
    refine ⟨h, ?_⟩
    obtain ⟨d, ds, rfl⟩ := List.exists_cons_of_ne_nil hne
    change readSomeDigits 0 (d :: (ds ++ rest)) = _ at hread
    change readWhole (d :: (ds ++ rest)) = _
    rw [readWhole, hread]
    · simp [Except.map]
    · rintro _ ⟨⟩
      exact hhead rfl

theorem readFraction_pointed (hds : ∀ c ∈ ds, c.isDigit = true)
    (hrest : ∀ c ∈ rest.head?, c.isDigit = false ∧ c ≠ '.') (whole : Nat) :
    ∃ h, readFraction whole (Numeral.pointed ds ++ rest) =
      .ok (if ds = [] then none else some (whole * 10 ^ ds.length + natOfDigits ds, ds.length),
        ⟨rest, h⟩) := by
  cases ds with
  | nil =>
    refine ⟨Nat.le_refl _, ?_⟩
    change readFraction whole rest = _
    cases rest with
    | nil => rfl
    | cons c rest =>
      rw [readFraction]
      · rfl
      · rintro _ ⟨⟩
        exact (hrest _ rfl).2 rfl
  | cons d ds =>
    obtain ⟨h, hread⟩ := readSomeDigits_append (List.cons_ne_nil d ds) hds (fun c hc => (hrest c hc).1)
      whole
    refine ⟨(Nat.le_of_lt h).trans (Nat.le_succ _), ?_⟩
    change readFraction whole ('.' :: (d :: ds ++ rest)) = _
    rw [readFraction, hread]
    rfl

theorem readExponentSign_append (negative : Prop) [Decidable negative] (signs : Bool)
    (hne : ds ≠ []) (hds : ∀ c ∈ ds, c.isDigit = true) (rest : List Char) :
    ∃ h, readExponentSign ((if negative then ['-'] else if signs then ['+'] else []) ++ ds ++ rest) =
      (decide negative, ⟨ds ++ rest, h⟩) := by
  by_cases hnegative : negative
  · rw [if_pos hnegative, decide_eq_true hnegative]
    exact ⟨Nat.le_succ _, rfl⟩
  · rw [if_neg hnegative, decide_eq_false hnegative]
    cases signs with
    | true => exact ⟨Nat.le_succ _, rfl⟩
    | false =>
      -- without a sign the first digit comes next, which is neither sign
      obtain ⟨d, ds, rfl⟩ := List.exists_cons_of_ne_nil hne
      refine ⟨Nat.le_refl _, ?_⟩
      change readExponentSign (d :: (ds ++ rest)) = _
      have hd := hds d List.mem_cons_self
      rw [readExponentSign]
      · rfl
      all_goals
        rintro _ ⟨⟩
        exact absurd hd (by decide)

/-- An exponent is its mark, perhaps a sign, and digits. -/
theorem readExponent_of_parts {cs : List Char} {negative : Bool} {digits : Tail cs} {value count : Nat}
    {more : Rest digits.1} (hsign : readExponentSign cs = (negative, digits))
    (hdigits : readSomeDigits 0 digits.1 = .ok (value, count, more)) :
    ∃ h, readExponent ('e' :: cs) = .ok (some (if negative then -value else value), ⟨more.1, h⟩) := by
  refine ⟨(Nat.le_of_lt more.2).trans (digits.2.trans (Nat.le_succ _)), ?_⟩
  simp only [readExponent, true_or, if_true]
  generalize readExponentSign cs = signed at hsign
  subst hsign
  simp only
  generalize readSomeDigits 0 digits.1 = read at hdigits
  subst hdigits
  rfl

/-- **A written exponent is read as itself**, whatever the layout. -/
theorem readExponent_exponentText (l : Layout) (power : Option Int)
    (hrest : EndsNumber rest) :
    ∃ h, readExponent (power.elim [] (fun e => 'e' :: l.exponentText e) ++ rest) =
      .ok (power, ⟨rest, h⟩) := by
  -- without an exponent, what comes next is not the mark of one
  cases power with
  | none =>
    refine ⟨Nat.le_refl _, ?_⟩
    change readExponent rest = _
    cases rest with
    | nil => rfl
    | cons c rest =>
      have hc := hrest c rfl
      simp only [readExponent, hc.2.2.1, hc.2.2.2, or_self, if_false]
      rfl
  | some e =>
    obtain ⟨ds, htext, hne, hds, hvalue⟩ := l.exists_exponentText e
    rw [Option.elim_some, htext, List.cons_append]
    obtain ⟨hle, hsign⟩ := readExponentSign_append (e < 0) l.signsExponent hne hds rest
    obtain ⟨h, hread⟩ := readSomeDigits_append hne hds (fun c hc => (hrest c hc).1) 0
    obtain ⟨hless, hexponent⟩ := readExponent_of_parts hsign hread
    refine ⟨hless, hexponent.trans ?_⟩
    simp only [hvalue, Nat.zero_mul, Nat.zero_add, decide_eq_true_eq]
    congr 3
    split <;> omega

/-- A number is the digits before its point, perhaps a fraction, and perhaps an exponent. -/
theorem readUnsigned_of_parts {cs : List Char} {negative : Bool} {whole : Nat}
    {fraction : Option (Nat × Nat)} {exponent : Option Int} {left : Rest cs} {more : Tail left.1}
    {tail : Tail more.1} (hwhole : readWhole cs = .ok (whole, left))
    (hfraction : readFraction whole left.1 = .ok (fraction, more))
    (hexponent : readExponent more.1 = .ok (exponent, tail)) :
    ReadsTo (readUnsigned negative cs) (numberOf negative whole fraction exponent) tail.1 := by
  refine ⟨tail.2.trans_lt (more.2.trans_lt left.2), ?_⟩
  simp only [readUnsigned, hwhole, hfraction, hexponent, bind, Except.bind]
  rfl

/-- **A numeral is read by its parts**, if a zero at its head stands alone. -/
theorem readUnsigned_text (l : Layout) {n : Numeral} (hn : n.Proper)
    (hzero : n.whole.head? = some '0' → n.whole = ['0']) (hrest : EndsNumber rest)
    (negative : Bool) :
    ReadsTo (readUnsigned negative (n.text l ++ rest)) (numberOf negative (natOfDigits n.whole)
      (if n.fraction = [] then none else some (n.digits, n.fraction.length)) n.power) rest := by
  obtain ⟨power, hpower⟩ : ∃ power, power = n.power.elim [] fun e => 'e' :: l.exponentText e := ⟨_, rfl⟩
  -- neither a point nor an exponent begins with a digit, nor does what follows
  have hbehindPoint : ∀ c ∈ (power ++ rest).head?, c.isDigit = false ∧ c ≠ '.' := by
    intro c hc
    cases hsome : n.power with
    | none =>
      rw [hpower, hsome] at hc
      exact ⟨(hrest c hc).1, (hrest c hc).2.1⟩
    | some e =>
      rw [hpower, hsome] at hc
      cases hc
      decide
  have hbehindWhole : ∀ c ∈ (Numeral.pointed n.fraction ++ (power ++ rest)).head?,
      c.isDigit = false := by
    intro c hc
    cases hfraction : n.fraction with
    | nil =>
      rw [hfraction] at hc
      exact (hbehindPoint c hc).1
    | cons d ds =>
      rw [hfraction] at hc
      cases hc
      decide
  have hreadPower := readExponent_exponentText l n.power hrest
  rw [← hpower] at hreadPower
  obtain ⟨_, hwhole⟩ := readWhole_append hn.whole_ne hn.whole hzero hbehindWhole
  obtain ⟨_, hfraction⟩ := readFraction_pointed hn.fraction hbehindPoint (natOfDigits n.whole)
  obtain ⟨_, hexponent⟩ := hreadPower
  rw [← natOfDigits_append] at hfraction
  rw [Numeral.text, ← hpower, List.append_assoc, List.append_assoc]
  exact readUnsigned_of_parts hwhole hfraction hexponent

/-! ## The numbers that are written -/

theorem natOfDigits_lt (hds : ∀ c ∈ ds, c.isDigit = true) : natOfDigits ds < 10 ^ ds.length := by
  induction ds with
  | nil => simp [natOfDigits]
  | cons d ds ih =>
    have hd := hds d List.mem_cons_self
    have hvalue := natOfDigits_append [d] ds
    have hlt := ih fun c hc => hds c (List.mem_cons_of_mem d hc)
    have hdigit : natOfDigits [d] < 10 := by
      simp only [Char.isDigit, Bool.and_eq_true, decide_eq_true_eq] at hd
      have : d.toNat ≤ 57 := hd.2
      simp only [natOfDigits, List.foldl_cons, List.foldl_nil, digitValue]
      omega
    rw [List.singleton_append] at hvalue
    rw [hvalue, List.length_cons, pow_succ]
    nlinarith

/-- A positive decimal does not begin with a zero. -/
theorem head?_text_ne {d : Digits} (hd : 0 < d.coefficient) : d.text.head? ≠ some '0' := by
  intro hhead
  have hvalue : natOfDigits d.text = d.coefficient := natOfDigits_toDigits _
  rw [show d.text = ['0'] from toDigits_eq_zero_of_head hhead] at hvalue
  exact hd.ne hvalue

/-- A numeral of a positive decimal begins with a zero only if that stands alone before the point. -/
theorem whole_numeral (l : Layout) {d : Digits} (hd : 0 < d.coefficient)
    (h : (l.numeral d).whole.head? = some '0') : (l.numeral d).whole = ['0'] := by
  obtain ⟨c, cs, hds⟩ := List.exists_cons_of_ne_nil (Layout.text_ne_nil d)
  have hne := head?_text_ne hd
  unfold Layout.numeral at h ⊢
  split at h
  · rename_i hpositional
    rw [if_pos hpositional]
    revert h
    cases d.magnitude with
    | negSucc n => exact fun _ => rfl
    | ofNat n =>
      simp only [Layout.positionalNumeral, hds, List.take_succ_cons, List.cons_append,
        List.head?_cons] at hne ⊢
      exact fun h => absurd h hne
  · rw [hds] at h hne
    exact absurd h hne

/-- A layout with a greatest positional exponent writes no more digits before the point. -/
theorem length_whole_numeral {l : Layout} (bound : Nat) (hl : l.highest = some (bound : Int))
    (d : Digits) : (l.numeral d).whole.length ≤ bound + 1 := by
  unfold Layout.numeral
  split
  · rename_i hpositional
    simp only [Layout.isPositional, hl, Option.all_some, Bool.and_eq_true, decide_eq_true_eq]
      at hpositional
    revert hpositional
    cases d.magnitude with
    | negSucc n => simp [Layout.positionalNumeral]
    | ofNat n =>
      rintro ⟨-, hn⟩
      simp only [Layout.positionalNumeral, List.length_append, List.length_take, List.length_replicate,
        Int.ofNat_eq_natCast, Nat.cast_le] at hn ⊢
      omega
  · simp only [List.length_take]
    omega

/-- A number with a fraction or an exponent is read as the nearest floating-point number. -/
theorem numberOf_numeral {n : Numeral} {x : Float} (hn : n.Proper)
    (hlength : n.whole.length ≤ maxWholeDigits) (hmarked : n.fraction ≠ [] ∨ n.power.isSome)
    (hreads : ReadsAs x n.value) (hx : isFinite x = true) :
    numberOf (isNegative x) (natOfDigits n.whole)
      (if n.fraction = [] then none else some (n.digits, n.fraction.length)) n.power =
        .ok (.float x) := by
  have hcount : digitCount (natOfDigits n.whole) ≤ n.whole.length :=
    (Nat.length_toDigits_le_iff (by decide) (List.length_pos_iff.mpr hn.whole_ne)).mpr
      (natOfDigits_lt hn.whole)
  -- the digits with the place of the point are the value of the numeral
  have hdecimal : decimalNumber (isNegative x) (natOfDigits n.whole)
      (if n.fraction = [] then none else some (n.digits, n.fraction.length)) (n.power.getD 0) =
        .ok (.float x) := by
    have hparts : (if n.fraction = [] then none else some (n.digits, n.fraction.length)).getD
        (natOfDigits n.whole, 0) = (n.digits, n.fraction.length) := by
      split
      · rename_i hnil
        simp [Numeral.digits, hnil]
      · rfl
    have hfloat : floatOfDecimal (isNegative x) n.digits (n.power.getD 0 - n.fraction.length) = x :=
      floatOfDecimal_eq hreads
    unfold decimalNumber
    rw [if_neg (by omega), hparts]
    simp only [finiteNumber, hfloat, hx, if_true]
  unfold numberOf
  split
  · -- neither a fraction nor an exponent: that would be an integer
    rename_i hfraction hpower
    rcases hmarked with hne | hsome
    · rw [if_neg hne] at hfraction
      cases hfraction
    · rw [hpower] at hsome
      cases hsome
  · exact hdecimal

/-- An integer that fits 64 bits is read as such. -/
theorem numberOf_integer {n : Int} (hn : (JsonNumber.integer n).Proper) :
    numberOf (decide (n < 0)) n.natAbs none none = .ok (.integer n) := by
  obtain ⟨hlow, hhigh⟩ := hn
  unfold numberOf
  simp only [decide_eq_true_eq]
  split
  · rename_i hneg
    rw [if_neg (by omega), show -(n.natAbs : Int) = n by omega]
  · rename_i hneg
    rw [if_pos (by omega), show (n.natAbs : Int) = n by omega]

/-- The text of a number is perhaps a minus sign, and a numeral that is read as the number. -/
theorem exists_text {n : JsonNumber} (hn : n.Proper) :
    ∃ (negative : Bool) (body : List Char), n.text.toList = (if negative then ['-'] else []) ++ body ∧
      (∃ c cs, body = c :: cs ∧ c.isDigit = true) ∧
      ∀ rest, EndsNumber rest → ReadsTo (readUnsigned negative (body ++ rest)) (.ok n) rest := by
  have hbegins : ∀ {n : Numeral} {l : Layout}, n.Proper →
      ∃ c cs, n.text l = c :: cs ∧ c.isDigit = true := by
    intro n l hn
    obtain ⟨c, cs, hwhole⟩ := List.exists_cons_of_ne_nil hn.whole_ne
    exact ⟨c, _, by rw [Numeral.text, hwhole]; rfl, hn.whole c (hwhole ▸ List.mem_cons_self)⟩
  cases n with
  | integer n =>
    have hproper : Numeral.Proper ⟨Nat.toDigits 10 n.natAbs, [], none⟩ :=
      ⟨Nat.toDigits_ne_nil, fun c hc => isDigit_of_mem_toDigits hc, by simp⟩
    refine ⟨decide (n < 0), Numeral.text JsonNumber.layout ⟨Nat.toDigits 10 n.natAbs, [], none⟩, ?_,
      hbegins hproper, fun rest hrest => ?_⟩
    · simp only [JsonNumber.text, toList_toString_int, decide_eq_true_eq, Numeral.text,
        Numeral.pointed, Option.elim_none, List.append_nil]
    · have hread := readUnsigned_text JsonNumber.layout hproper toDigits_eq_zero_of_head hrest
        (decide (n < 0))
      rwa [if_pos rfl, natOfDigits_toDigits, numberOf_integer hn] at hread
  | float x =>
    obtain ⟨numeral, htext, hreads, hform⟩ := JsonNumber.layout.exists_written hn
    -- both layouts have a digit before the point, no zero too many, and a mark of the fraction
    have hshape : numeral.Proper ∧ (numeral.whole.head? = some '0' → numeral.whole = ['0']) ∧
        numeral.whole.length ≤ maxWholeDigits ∧ (numeral.fraction ≠ [] ∨ numeral.power.isSome) := by
      rcases hform with rfl | ⟨d, hd, rfl⟩
      · exact ⟨Layout.proper_positionalNumeral _ (by simp) (by simp) 0, fun _ => rfl, by decide,
          .inl (Layout.marked_positionalNumeral rfl (by simp) 0)⟩
      · exact ⟨Layout.proper_numeral _ d, whole_numeral _ hd,
          (length_whole_numeral 15 rfl d).trans (by decide), Layout.marked_numeral rfl d⟩
    obtain ⟨hproper, hzero, hlength, hmarked⟩ := hshape
    refine ⟨isNegative x, numeral.text JsonNumber.layout, htext, hbegins hproper, fun rest hrest => ?_⟩
    have hread := readUnsigned_text JsonNumber.layout hproper hzero hrest (isNegative x)
    rwa [numberOf_numeral hproper hlength hmarked hreads hn] at hread

/-- **The text of a number is read as that number.** -/
theorem readNumber_text {n : JsonNumber} (hn : n.Proper) :
    ∃ c cs, n.text.toList = c :: cs ∧ (c = '-' ∨ c.isDigit = true) ∧
      ∀ rest, EndsNumber rest →
        ∃ h, readNumber (c :: (cs ++ rest)) = .ok (.ok n, ⟨rest, h⟩) := by
  obtain ⟨negative, body, htext, ⟨c, cs, hbody, hc⟩, hread⟩ := exists_text hn
  rw [htext]
  cases negative with
  | true =>
    refine ⟨'-', body, rfl, .inl rfl, fun rest hrest => ?_⟩
    obtain ⟨h, hread⟩ := hread rest hrest
    refine ⟨h.trans (Nat.lt_succ_self _), ?_⟩
    rw [readNumber, hread]
    rfl
  | false =>
    refine ⟨c, cs, by rw [hbody]; rfl, .inr hc, fun rest hrest => ?_⟩
    obtain ⟨h, hread⟩ := hread rest hrest
    subst hbody
    refine ⟨h, ?_⟩
    change readUnsigned false (c :: (cs ++ rest)) = _ at hread
    rw [readNumber, hread]
    rintro _ ⟨⟩
    exact absurd hc (by decide)

/-! ## The numbers that are read -/

theorem proper_of_finiteNumber {negative : Bool} {digits : Nat} {exponent : Int} {n : JsonNumber}
    (h : finiteNumber negative digits exponent = .ok n) : n.Proper := by
  unfold finiteNumber at h
  simp only at h
  split at h
  · cases h
    assumption
  · cases h

theorem proper_of_numberOf {negative : Bool} {whole : Nat} {fraction : Option (Nat × Nat)}
    {exponent : Option Int} {n : JsonNumber} (h : numberOf negative whole fraction exponent = .ok n) :
    n.Proper := by
  unfold numberOf at h
  split at h
  · split at h
    · split at h
      · exact proper_of_finiteNumber h
      · cases h
        simp only [JsonNumber.Proper]
        omega
    · split at h
      · cases h
        simp only [JsonNumber.Proper]
        omega
      · exact proper_of_finiteNumber h
  · unfold decimalNumber at h
    simp only at h
    split at h <;> exact proper_of_finiteNumber h

/-- **A number that is read is proper.** -/
theorem proper_of_readNumber {cs : List Char} {n : JsonNumber} {left : Rest cs}
    (h : readNumber cs = .ok (.ok n, left)) : n.Proper := by
  have hunsigned : ∀ {negative : Bool} {ds : List Char} {more : Rest ds},
      readUnsigned negative ds = .ok (.ok n, more) → n.Proper := by
    intro negative ds more hread
    unfold readUnsigned at hread
    simp only [bind, Except.bind] at hread
    split at hread
    · cases hread
    split at hread
    · cases hread
    split at hread
    · cases hread
    · exact proper_of_numberOf (Prod.mk.inj (Except.ok.inj hread)).1
  -- the minus sign is read first, and the rest as an unsigned number
  unfold readNumber at h
  split at h
  · rename_i ds
    cases hread : readUnsigned true ds with
    | error flaw =>
      rw [hread] at h
      cases h
    | ok read =>
      obtain ⟨value, more⟩ := read
      rw [hread] at h
      cases h
      exact hunsigned hread
  · exact hunsigned h

end Json

end Formula
