import Formula.Proofs.Decimal.Numeral
import Formula.Proofs.Decimal.Sign
import Formula.Proofs.Text.Blank
import Formula.Scalar

/-!
# Reading numbers that were written

Whatever the layout that a finite number is written in, reading the whole text gives the number back,
bit for bit: the sign of zero and the exponent included. So does reading the text of an integer, up
to the least one.

## Main results

* `readInt?_intText`: the text of an integer is read as that integer
* `readFloat?_floatText`: the text of a floating-point number is read as that number
* `ScalarType.read?_text`: the text of a value is read as that value
-/

namespace Formula.Decimal

/-- The head of a text that begins with a row of digits is a digit. -/
theorem readSign_of_isDigit {cs : List Char} (h : ∀ c ∈ cs.head?, c.isDigit = true) :
    readSign cs = (false, cs) := by
  unfold readSign
  split
  · exact absurd (h '-' rfl) (by decide)
  · exact absurd (h '+' rfl) (by decide)
  · rfl

/-- A sign before digits is read as that sign. -/
theorem readSign_append (negative : Bool) {cs : List Char} (h : ∀ c ∈ cs.head?, c.isDigit = true) :
    readSign ((if negative then ['-'] else []) ++ cs) = (negative, cs) := by
  cases negative with
  | false => exact readSign_of_isDigit h
  | true => rfl

/-- Behind the last digit of a text there is none. -/
theorem isDigit_head?_nil : ∀ c ∈ ([] : List Char).head?, c.isDigit = false := by
  simp

/-! ## Integers -/

/-- A sign and the digits of a number that fits are read as the signed number. -/
theorem readInt?_toDigits (negative : Bool) (n : Nat) :
    readInt? ((if negative then ['-'] else []) ++ Nat.toDigits 10 n) =
      if negative then (if n ≤ intBound then some (Int64.ofInt (-n)) else none)
      else (if n < intBound then some (Int64.ofNat n) else none) := by
  have hdigits : ∀ c ∈ Nat.toDigits 10 n, c.isDigit = true := fun c hc => isDigit_of_mem_toDigits hc
  have hread := readDigits_append hdigits isDigit_head?_nil 0 0
  have hne : (Nat.toDigits 10 n).length ≠ 0 := by simp [Nat.toDigits_ne_nil]
  rw [List.append_nil] at hread
  simp only [readInt?, readSign_append negative fun c hc => hdigits c (List.mem_of_mem_head? hc),
    hread, Nat.zero_mul, Nat.zero_add, natOfDigits_toDigits, hne, if_false]

/-- **The text of an integer is read as that integer**, also that of the least one. -/
theorem readInt?_intText (n : Int64) : readInt? (Scalar.intText n).toList = some n := by
  have hlow := n.le_toInt
  have hhigh := n.toInt_lt
  have htext : (Scalar.intText n).toList = (if decide (n.toInt < 0) then ['-'] else []) ++
      Nat.toDigits 10 n.toInt.natAbs := by
    simp only [decide_eq_true_eq]
    exact toList_toString_int n.toInt
  rw [htext, readInt?_toDigits]
  by_cases hneg : n.toInt < 0
  · rw [if_pos (decide_eq_true hneg), if_pos (by simp only [intBound]; omega),
      show -(n.toInt.natAbs : Int) = n.toInt by omega, Int64.ofInt_toInt]
  · rw [if_neg (by simpa using hneg), if_pos (by simp only [intBound]; omega)]
    refine congrArg some (Int64.toInt_inj.mp ?_)
    rw [Int64.toInt_ofNat_of_lt (by omega)]
    omega

/-! ## Floating-point numbers -/

/-- The exponent of a numeral is read as the one that was written, if one was. -/
theorem readExponent?_exponentText (l : Layout) (power : Option Int) :
    readExponent? (power.elim [] fun e => 'e' :: l.exponentText e) = some (power.getD 0) := by
  cases power with
  | none => rfl
  | some e =>
    obtain ⟨ds, htext, hne, hdigits, hvalue⟩ := l.exists_exponentText e
    have hread := readDigits_append hdigits isDigit_head?_nil 0 0
    have hcount : ds.length ≠ 0 := mt List.length_eq_zero_iff.mp hne
    have hsign : readSign (l.exponentText e) = (decide (e < 0), ds) := by
      rw [htext]
      by_cases hneg : e < 0
      · simp only [hneg, if_true, decide_true]
        rfl
      · cases hplus : l.signsExponent with
        | true =>
          simp only [hneg, if_false, if_true, decide_false]
          rfl
        | false =>
          simp only [hneg, if_false, Bool.false_eq_true, List.nil_append, decide_false]
          exact readSign_of_isDigit fun c hc => hdigits c (List.mem_of_mem_head? hc)
    rw [List.append_nil] at hread
    simp only [Option.elim_some, readExponent?, true_or, if_true, hsign, hread, Nat.zero_mul,
      Nat.zero_add, hcount, if_false, hvalue, Option.getD_some, decide_eq_true_eq]
    split <;> congr 1 <;> omega

/-- **A numeral is read as the decimal that it stands for**, behind its sign. -/
theorem readUnsigned?_text (l : Layout) {n : Numeral} (hn : n.Proper) (negative : Bool) :
    readUnsigned? negative (n.text l) = some (floatOfDecimal negative n.digits n.exponent) := by
  obtain ⟨whole, fraction, power⟩ := n
  obtain ⟨hne, hwhole, hfraction⟩ := hn
  simp only at hne hwhole hfraction
  have hcount : whole.length ≠ 0 := mt List.length_eq_zero_iff.mp hne
  -- what follows the fraction is the exponent or nothing
  obtain ⟨tail, htail⟩ : ∃ tail, tail = power.elim [] fun e => 'e' :: l.exponentText e := ⟨_, rfl⟩
  have hends : ∀ c ∈ tail.head?, c.isDigit = false ∧ c ≠ '.' := by
    intro c hc
    cases power with
    | none => simp [htail] at hc
    | some e =>
      obtain rfl : 'e' = c := by simpa [htail] using hc
      decide
  have hexponent : readExponent? tail = some (power.getD 0) :=
    htail ▸ readExponent?_exponentText l power
  simp only [Numeral.text, ← htail, List.append_assoc]
  cases fraction with
  | nil =>
    have hread := readDigits_append hwhole (fun c hc => (hends c hc).1) 0 0
    simp only [readUnsigned?, Numeral.pointed, List.nil_append, hread]
    split
    · exact absurd rfl (hends '.' rfl).2
    · simp [hcount, hexponent, Numeral.digits, Numeral.exponent]
  | cons d ds =>
    have hpoint : ∀ c ∈ ('.' :: (d :: ds ++ tail)).head?, c.isDigit = false := by
      rintro c ⟨⟩
      decide
    have hread := readDigits_append hwhole hpoint 0 0
    have hmore := readDigits_append hfraction (fun c hc => (hends c hc).1) (natOfDigits whole) 0
    simp only [readUnsigned?, Numeral.pointed, List.cons_append] at hread hmore ⊢
    simp only [hread, Nat.zero_mul, Nat.zero_add, hmore, Nat.add_eq_zero_iff, hcount, false_and, if_false,
      hexponent, Option.map_some, Numeral.digits, Numeral.exponent, natOfDigits_append]

/-- **A finite number is read back from its text**, whatever the layout. -/
theorem readFloat?_write (l : Layout) {x : Float} (hx : isFinite x = true) :
    readFloat? (l.write x).toList = some x := by
  obtain ⟨n, htext, hproper, hreads, -⟩ := l.exists_numeral hx
  have hhead : ∀ c ∈ (n.text l).head?, c.isDigit = true := by
    obtain ⟨c, cs, hwhole⟩ := List.exists_cons_of_ne_nil hproper.whole_ne
    rw [Numeral.text, hwhole]
    rintro _ ⟨⟩
    exact hproper.whole c (hwhole ▸ List.mem_cons_self)
  simp only [readFloat?, htext, readSign_append _ hhead, readUnsigned?_text l hproper,
    floatOfDecimal_eq hreads, Option.some_or]

/-- **The text of a floating-point number is read as that number**: a finite one, an infinity with
its sign, and what is not a number. -/
theorem readFloat?_floatText (x : Float) : readFloat? (Scalar.floatText x).toList = some x := by
  cases hparts : parts x with
  | nan =>
    rw [eq_nan_of_parts hparts]
    rfl
  | infinite negative =>
    rw [eq_infinity_of_parts hparts]
    cases negative <;> rfl
  | finite negative m e => exact readFloat?_write _ (by rw [isFinite, hparts])

/-! ## Values -/

/-- No character of a written integer is a blank. -/
theorem isBlank_of_mem_intText (n : Int64) : ∀ c ∈ (Scalar.intText n).toList,
    Text.isBlank c = false := by
  intro c hc
  rw [show Scalar.intText n = toString n.toInt from rfl, toList_toString_int] at hc
  rcases List.mem_append.mp hc with hc | hc
  · split at hc
    · rw [List.mem_singleton.mp hc]
      rfl
    · cases hc
  · exact Text.isBlank_of_isDigit (isDigit_of_mem_toDigits hc)

/-- No character of an exponent is a blank. -/
theorem isBlank_of_mem_exponentText (l : Layout) (e : Int) : ∀ c ∈ l.exponentText e,
    Text.isBlank c = false := by
  intro c hc
  obtain ⟨ds, htext, -, hdigits, -⟩ := l.exists_exponentText e
  rw [htext] at hc
  rcases List.mem_append.mp hc with hc | hc
  · split at hc
    · rw [List.mem_singleton.mp hc]
      rfl
    · split at hc
      · rw [List.mem_singleton.mp hc]
        rfl
      · cases hc
  · exact Text.isBlank_of_isDigit (hdigits c hc)

/-- No character of a numeral is a blank. -/
theorem Numeral.isBlank_of_mem_text (l : Layout) {n : Numeral} (hn : n.Proper) :
    ∀ c ∈ n.text l, Text.isBlank c = false := by
  obtain ⟨whole, fraction, power⟩ := n
  obtain ⟨-, hwhole, hfraction⟩ := hn
  simp only at hwhole hfraction
  intro c hc
  rw [text, List.append_assoc, List.mem_append, List.mem_append] at hc
  rcases hc with hc | hc | hc
  · exact Text.isBlank_of_isDigit (hwhole c hc)
  · cases fraction with
    | nil => cases hc
    | cons d ds =>
      rcases List.mem_cons.mp hc with rfl | hc
      · rfl
      · exact Text.isBlank_of_isDigit (hfraction c hc)
  · cases power with
    | none => cases hc
    | some e =>
      rcases List.mem_cons.mp hc with rfl | hc
      · rfl
      · exact isBlank_of_mem_exponentText l e c hc

/-- No character of a written floating-point number is a blank. -/
theorem isBlank_of_mem_floatText (x : Float) : ∀ c ∈ (Scalar.floatText x).toList,
    Text.isBlank c = false := by
  cases hparts : parts x with
  | nan =>
    rw [eq_nan_of_parts hparts]
    exact Text.forall_not_isBlank rfl
  | infinite negative =>
    rw [eq_infinity_of_parts hparts]
    cases negative <;> exact Text.forall_not_isBlank rfl
  | finite negative m e =>
    obtain ⟨n, htext, hproper, -, -⟩ :=
      Scalar.floatLayout.exists_numeral (x := x) (by rw [isFinite, hparts])
    intro c hc
    rw [Scalar.floatText, htext] at hc
    rcases List.mem_append.mp hc with hc | hc
    · split at hc
      · rw [List.mem_singleton.mp hc]
        rfl
      · cases hc
    · exact Numeral.isBlank_of_mem_text _ hproper c hc

end Formula.Decimal

namespace Formula

/-- **The text of a value is read as that value**, by its type. -/
theorem ScalarType.read?_text (v : Scalar) : v.type.read? v.text = some v := by
  cases v with
  | int n =>
    simp only [Scalar.type, Scalar.text, read?,
      Text.trimList_eq_self (Decimal.isBlank_of_mem_intText n), Decimal.readInt?_intText,
      Option.map_some]
  | float x =>
    simp only [Scalar.type, Scalar.text, read?,
      Text.trimList_eq_self (Decimal.isBlank_of_mem_floatText x), Decimal.readFloat?_floatText,
      Option.map_some]
  | string s => rfl
  | bool b => cases b <;> rfl

end Formula
