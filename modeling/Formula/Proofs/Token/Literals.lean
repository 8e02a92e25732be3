import Formula.Proofs.Decimal.Numeral
import Formula.Proofs.Token.Lexing

/-!
# Reading written values

The source text of a value is read as a constant, or as a constant behind a minus sign. The least
integer, which has no constant of its own, is read as a difference in parentheses.

## Main definitions

* `Spells kinds v`: the tokens `kinds` are those of the source text of the value `v`

## Main results

* `lexes_numeral`: a numeral with a point or an exponent is a floating-point constant
* `exists_spells`: the source text of a value is read as tokens that spell it
-/

namespace Formula

open Decimal Text

/-! ## Numerals -/

theorem isDigit_false_of_endsNumeral {rest : List Char} (h : endsNumeral rest) :
    ∀ c ∈ rest.head?, c.isDigit = false := by
  intro c hc
  have := (h c hc).1
  simp only [isNumeral, Bool.or_eq_false_iff] at this
  exact this.1

theorem exponentDigits?_append {ds rest : List Char} (hne : ds ≠ [])
    (hds : ∀ c ∈ ds, c.isDigit = true) (hrest : endsNumeral rest) (negative : Bool) (offset : Nat) :
    exponentDigits? negative ⟨offset, ds ++ rest⟩ =
      some (if negative then -(natOfDigits ds : Int) else natOfDigits ds,
        ⟨offset + byteLength ds, rest⟩) := by
  unfold exponentDigits?
  rw [Place.takeWhile, Place.takeWhileFrom_append_of_all hds (isDigit_false_of_endsNumeral hrest)]
  obtain ⟨d, ds, rfl⟩ := List.exists_cons_of_ne_nil hne
  rfl

/-- **An exponent is read as the one that was written**, whatever the layout. -/
theorem exponentAt?_exponentText (l : Layout) (e : Int) {rest : List Char} (hrest : endsNumeral rest)
    (offset : Nat) : exponentAt? ⟨offset, 'e' :: l.exponentText e ++ rest⟩ =
      some (e, ⟨offset + byteLength ('e' :: l.exponentText e), rest⟩) := by
  obtain ⟨ds, htext, hne, hdigits, hvalue⟩ := l.exists_exponentText e
  have hread := exponentDigits?_append hne hdigits hrest
  simp only [hvalue] at hread
  rw [htext, exponentAt?]
  simp only [List.cons_append, true_or, if_true]
  by_cases hneg : e < 0
  · simp only [hneg, if_true, List.cons_append, List.nil_append, Place.behind, hread]
    simp only [byteLength_cons, Option.some.injEq, Prod.mk.injEq, Place.mk.injEq, and_true]
    omega
  · cases l.signsExponent
    · -- without a sign a digit comes next, so that neither sign is read
      have hhead : ∀ c, c.isDigit = false → ∀ more, ds ++ rest ≠ c :: more := by
        rintro c hc more hmore
        obtain ⟨d, ds, rfl⟩ := List.exists_cons_of_ne_nil hne
        cases hmore
        exact Bool.false_ne_true (hc.symm.trans (hdigits _ List.mem_cons_self))
      simp only [hneg, if_false, Bool.false_eq_true, List.nil_append, Place.behind]
      split
      · exact absurd ‹_› (hhead '-' (by decide) _)
      · exact absurd ‹_› (hhead '+' (by decide) _)
      · rw [hread]
        simp only [byteLength_cons, Option.some.injEq, Prod.mk.injEq, Place.mk.injEq, and_true,
          Bool.false_eq_true, if_false]
        omega
    · simp only [hneg, if_false, if_true, List.cons_append, List.nil_append, Place.behind, hread]
      simp only [byteLength_cons, Option.some.injEq, Prod.mk.injEq, Place.mk.injEq, and_true,
        Bool.false_eq_true, if_false]
      omega

/-- What stands behind the digits before the point. -/
theorem fractionAt_pointed {ds rest : List Char} (hds : ∀ c ∈ ds, c.isDigit = true)
    (hrest : ∀ c ∈ rest.head?, isNumeral c = false ∧ c ≠ '.') (offset : Nat) :
    fractionAt ⟨offset, Numeral.pointed ds ++ rest⟩ =
      (if ds = [] then none else some ds, ⟨offset + byteLength (Numeral.pointed ds), rest⟩) := by
  cases ds with
  | nil =>
    unfold fractionAt
    split
    · rename_i more hmore
      have hdot : '.' ∈ rest.head? := by
        rw [show rest = '.' :: more from hmore]
        rfl
      exact absurd rfl (hrest '.' hdot).2
    · simp [Numeral.pointed]
  | cons d ds =>
    have hd : d ≠ '.' := by
      rintro rfl
      exact absurd (hds '.' List.mem_cons_self) (by decide)
    have hkeep : ∀ c ∈ d :: ds, isNumeral c = true := fun c hc => isNumeral_of_isDigit (hds c hc)
    have htake := Place.takeWhileFrom_append_of_all hkeep (fun c hc => (hrest c hc).1)
      (offset + '.'.utf8Size)
    unfold fractionAt
    simp only [Numeral.pointed, List.cons_append, List.head?_cons, Option.some.injEq, hd, if_false,
      reduceCtorEq, Place.takeWhile, Place.behind]
    rw [List.cons_append] at htake
    rw [htake]
    simp only [byteLength_cons, Nat.add_assoc]

/-- **A numeral with a point or an exponent is a floating-point constant** of the decimal that it
stands for. -/
theorem lexes_numeral (l : Layout) {n : Numeral} (hn : n.Proper)
    (hmarked : n.fraction ≠ [] ∨ n.power.isSome) {rest : List Char} (hrest : endsNumeral rest) :
    Lexes (n.text l) rest [.token (.constant (.float (floatOfDecimal false n.digits n.exponent)))] := by
  obtain ⟨whole, fraction, power⟩ := n
  obtain ⟨hne, hwhole, hfraction⟩ := hn
  simp only at hne hwhole hfraction hmarked
  rcases whole with _ | ⟨c, cs⟩
  · exact absurd rfl hne
  -- what follows the fraction is the exponent or the end
  obtain ⟨tail, htail⟩ : ∃ tail, tail = power.elim [] fun e => 'e' :: l.exponentText e := ⟨_, rfl⟩
  have hends : ∀ d ∈ (tail ++ rest).head?, isNumeral d = false ∧ d ≠ '.' := by
    intro d hd
    cases power with
    | none => exact ⟨(hrest d (by simpa [htail] using hd)).1, (hrest d (by simpa [htail] using hd)).2.1⟩
    | some e =>
      obtain rfl : 'e' = d := by simpa [htail] using hd
      decide
  have hpower : ∀ offset, exponentAt? ⟨offset, tail ++ rest⟩ =
      power.map (·, ⟨offset + byteLength tail, rest⟩) := by
    intro offset
    cases power with
    | none => simpa [htail] using exponentAt?_of_endsNumeral hrest offset
    | some e => simpa [htail] using exponentAt?_exponentText l e hrest offset
  have hdot : ∀ d ∈ (Numeral.pointed fraction ++ (tail ++ rest)).head?, isNumeral d = false := by
    intro d hd
    cases fraction with
    | nil => exact (hends d hd).1
    | cons f fs =>
      obtain rfl : '.' = d := by simpa [Numeral.pointed] using hd
      decide
  have hmore : ∀ d ∈ cs, isNumeral d = true := fun d hd =>
    isNumeral_of_isDigit (hwhole d (List.mem_cons_of_mem c hd))
  simp only [Numeral.text, List.cons_append, ← htail]
  refine .single fun offset => ?_
  rw [lexeme_of_isDigit (hwhole c List.mem_cons_self), numberAt, Place.takeWhile, List.append_assoc,
    List.append_assoc, Place.takeWhileFrom_append_of_all hmore hdot]
  simp only [fractionAt_pointed hfraction hends]
  have hnumber : ∀ offset', numberFrom offset (c :: cs) (if fraction = [] then none else some fraction)
      ⟨offset', tail ++ rest⟩ = .ok (.constant (.float (floatOfDecimal false
        (natOfDigits (c :: cs ++ fraction)) (power.getD 0 - fraction.length))),
        ⟨offset' + byteLength tail, rest⟩) := by
    intro offset'
    unfold numberFrom
    rw [hpower]
    split
    · rename_i hnone hpower
      rcases hmarked with hmarked | hmarked
      · simp [hmarked] at hnone
      · cases power <;> simp at hmarked hpower
    · have hplaces : digitsOf ((if fraction = [] then none else some fraction).getD []) = fraction := by
        split
        · simp [digitsOf, *]
        · exact digitsOf_eq_self hfraction
      simp only [hplaces, digitsOf_eq_self hwhole]
      cases power with
      | none => simp [htail]
      | some e => rfl
  rw [hnumber]
  simp only [Except.map, asLexeme, Numeral.digits, Numeral.exponent, byteLength_cons,
    byteLength_append, Nat.add_assoc]

/-! ## Values -/

/-- **The tokens of the source text of a value.** -/
inductive Spells : List TokenKind → Scalar → Prop where
  | constant (v : Scalar) : Spells [.constant v] v
  | negatedInt (n : Int64) : Spells [.symbol .minus, .constant (.int n)] (.int (-n))
  | negatedFloat (x : Float) : Spells [.symbol .minus, .constant (.float x)] (.float (-x))
  /-- The least integer is one less than the negation of the greatest. -/
  | least : Spells [.symbol .lparen, .symbol .minus, .constant (.int Int64.maxValue),
      .symbol .minus, .constant (.int 1), .symbol .rparen] (.int Int64.minValue)

/-- The kind of the token that a lexeme is. -/
def Lexeme.kind? : Lexeme → Option TokenKind
  | .token kind => some kind
  | _ => none

/-- Before `rest`, the characters `cs` are read as the tokens `kinds` of one line. -/
def Spelled (cs rest : List Char) (kinds : List TokenKind) : Prop :=
  ∃ ls, Lexes cs rest ls ∧ .lineBreak ∉ ls ∧ ls.filterMap Lexeme.kind? = kinds

namespace Spelled

variable {cs ds rest : List Char} {k m : List TokenKind}

theorem append (h : Spelled cs (ds ++ rest) k) (h' : Spelled ds rest m) :
    Spelled (cs ++ ds) rest (k ++ m) := by
  obtain ⟨ls, hls, hbreak, rfl⟩ := h
  obtain ⟨ls', hls', hbreak', rfl⟩ := h'
  exact ⟨ls ++ ls', hls.append hls', by simp [hbreak, hbreak'], List.filterMap_append⟩

theorem token {kind : TokenKind} (h : Lexes cs rest [.token kind]) : Spelled cs rest [kind] :=
  ⟨_, h, by simp, rfl⟩

theorem blank (h : Lexes cs rest [.blank]) : Spelled cs rest [] :=
  ⟨_, h, by simp, rfl⟩

theorem space (rest : List Char) : Spelled [' '] rest [] :=
  blank (lexes_space rest)

end Spelled

theorem endsNumeral_of_head {c : Char} (hc : isNumeral c = false ∧ c ≠ '.' ∧ c ≠ 'e' ∧ c ≠ 'E')
    (rest : List Char) : endsNumeral (c :: rest) := by
  rintro d ⟨⟩
  exact hc

theorem natOfDigits_toDigits_lt {n : Nat} (hn : n < intBound) :
    natOfDigits (Nat.toDigits 10 n) < intBound := by
  rwa [natOfDigits_toDigits]

/-- The decimal digits of a number are read as it. -/
theorem spelled_toDigits {n : Nat} (hn : n < intBound) {rest : List Char} (hrest : endsNumeral rest) :
    Spelled (Nat.toDigits 10 n) rest [.constant (.int (Int64.ofNat n))] := by
  have hlexes := lexes_natural Nat.toDigits_ne_nil (fun c hc => isDigit_of_mem_toDigits hc) hrest
    (natOfDigits_toDigits_lt hn)
  rw [natOfDigits_toDigits] at hlexes
  exact .token hlexes

/-- A minus sign before digits stands for itself. -/
theorem spelled_minus {c : Char} (hc : c.isDigit = true ∨ c = ' ') (rest : List Char) :
    Spelled ['-'] (c :: rest) [.symbol .minus] := by
  refine .token (lexes_symbol rfl ?_ (by decide) (by decide))
  rintro d ⟨⟩
  have : c ≠ '-' ∧ c ≠ '=' := by
    rcases hc with hc | rfl
    · constructor <;> rintro rfl <;> exact absurd hc (by decide)
    · decide
  unfold symbolOfTwo?
  split <;> simp_all

/-- The text of an integer: its sign and the digits of its magnitude. -/
theorem toList_intText (n : Int64) : (Scalar.intText n).toList =
    (if n.toInt < 0 then ['-'] else []) ++ Nat.toDigits 10 n.toInt.natAbs :=
  toList_toString_int n.toInt

/-- An integer is read from the digits of its magnitude, unless it is the least one. -/
theorem exists_spells_int {n : Int64} (hn : n ≠ Int64.minValue) :
    ∃ kinds, Spells kinds (.int n) ∧ ∀ rest, endsNumeral rest →
      Spelled (Scalar.intText n).toList rest kinds := by
  -- the magnitude of any other integer is an integer itself
  have hlow : -(2 ^ 63) < n.toInt := by
    have := n.le_toInt
    have hne : n.toInt ≠ -(2 ^ 63) := fun h => hn (Int64.toInt_inj.mp h)
    omega
  have hhigh := n.toInt_lt
  have hlt : n.toInt.natAbs < intBound := by
    simp only [intBound]
    omega
  have hmagnitude : (Int64.ofNat n.toInt.natAbs).toInt = n.toInt.natAbs :=
    Int64.toInt_ofNat_of_lt hlt
  rw [toList_intText]
  by_cases hneg : n.toInt < 0
  · have heq : n = -(Int64.ofNat n.toInt.natAbs) := by
      refine Int64.toInt_inj.mp ?_
      rw [Int64.toInt_neg, hmagnitude]
      simp only [Int.bmod]
      omega
    refine ⟨[.symbol .minus, .constant (.int (Int64.ofNat n.toInt.natAbs))], ?_, fun rest hrest => ?_⟩
    · conv => rhs; rw [heq]
      exact .negatedInt _
    · rw [if_pos hneg]
      refine .append (k := [_]) ?_ (spelled_toDigits hlt hrest)
      obtain ⟨d, ds, hds⟩ := List.exists_cons_of_ne_nil
        (Nat.toDigits_ne_nil : Nat.toDigits 10 n.toInt.natAbs ≠ [])
      rw [hds]
      exact spelled_minus (.inl (isDigit_of_mem_toDigits (hds ▸ List.mem_cons_self))) _
  · have heq : n = Int64.ofNat n.toInt.natAbs := by
      refine Int64.toInt_inj.mp ?_
      rw [hmagnitude]
      omega
    refine ⟨[.constant (.int (Int64.ofNat n.toInt.natAbs))], ?_, fun rest hrest => ?_⟩
    · conv => rhs; rw [heq]
      exact .constant _
    · rw [if_neg hneg]
      exact spelled_toDigits hlt hrest

/-- A bracket stands for itself. -/
theorem spelled_paren (rest : List Char) :
    Spelled ['('] rest [.symbol .lparen] ∧ Spelled [')'] rest [.symbol .rparen] := by
  constructor <;> refine .token (lexes_symbol rfl (fun d _ => ?_) (by decide) (by decide)) <;>
    (unfold symbolOfTwo?; split <;> simp_all)

/-- The least integer is read from a difference. -/
theorem spelled_least (rest : List Char) :
    Spelled ("(" ++ Scalar.intText (Int64.minValue + 1) ++ " - 1)").toList rest
      [.symbol .lparen, .symbol .minus, .constant (.int Int64.maxValue), .symbol .minus,
        .constant (.int 1), .symbol .rparen] := by
  have htext : ("(" ++ Scalar.intText (Int64.minValue + 1) ++ " - 1)").toList =
      ['('] ++ (['-'] ++ (Nat.toDigits 10 9223372036854775807 ++
        ([' '] ++ (['-'] ++ ([' '] ++ (Nat.toDigits 10 1 ++ [')'])))))) := by
    decide +kernel
  have hgreatest := spelled_toDigits (n := 9223372036854775807) (by decide)
    (endsNumeral_of_head (c := ' ') (by decide) (['-'] ++ ([' '] ++ (Nat.toDigits 10 1 ++ [')'])) ++ rest))
  have hone := spelled_toDigits (n := 1) (by decide) (endsNumeral_of_head (c := ')') (by decide) rest)
  rw [htext]
  -- token by token, each ending where the next character can not go on
  refine .append (k := [_]) (spelled_paren _).1 (.append (k := [_]) ?_ (.append (k := [_]) ?_
    (.append (k := []) (.space _) (.append (k := [_]) ?_ (.append (k := []) (.space _)
      (.append (k := [_]) ?_ (spelled_paren _).2))))))
  · exact spelled_minus (.inl (by decide)) _
  · exact hgreatest
  · exact spelled_minus (.inr rfl) _
  · exact hone

/-- A finite number is read from its numeral, behind its sign. -/
theorem exists_spells_float {x : Float} (hx : isFinite x = true) :
    ∃ kinds, Spells kinds (.float x) ∧ ∀ rest, endsNumeral rest →
      Spelled (Scalar.sourceLayout.write x).toList rest kinds := by
  obtain ⟨n, htext, hproper, hreads, hmarked⟩ := Scalar.sourceLayout.exists_numeral hx
  rw [htext]
  have hspelled : ∀ rest, endsNumeral rest → Spelled (n.text Scalar.sourceLayout) rest
      [.constant (.float (floatOfDecimal false n.digits n.exponent))] := fun rest hrest =>
    .token (lexes_numeral _ hproper (hmarked rfl) hrest)
  cases hsign : isNegative x with
  | false =>
    have heq := floatOfDecimal_eq hreads
    rw [hsign] at heq
    rw [heq] at hspelled
    exact ⟨_, .constant _, fun rest hrest => by simpa using hspelled rest hrest⟩
  | true =>
    have heq := neg_floatOfDecimal_eq hreads hsign
    refine ⟨[.symbol .minus, .constant (.float (floatOfDecimal false n.digits n.exponent))], ?_,
      fun rest hrest => ?_⟩
    · conv => rhs; rw [← heq]
      exact .negatedFloat _
    · refine .append (k := [_]) ?_ (hspelled rest hrest)
      obtain ⟨c, cs, hwhole⟩ := List.exists_cons_of_ne_nil hproper.whole_ne
      rw [Numeral.text, hwhole]
      exact spelled_minus (.inl (hproper.whole c (hwhole ▸ List.mem_cons_self))) _

/-- **The source text of a value is read as tokens that spell it.** -/
theorem exists_spells {v : Scalar} {text : String} (h : v.literal? = some text) :
    ∃ kinds, Spells kinds v ∧ ∀ rest, Spelled text.toList ('\n' :: rest) kinds := by
  have hends : ∀ rest, endsNumeral ('\n' :: rest) := endsNumeral_of_head (by decide)
  cases v with
  | int n =>
    simp only [Scalar.literal?] at h
    split at h
    · rename_i hleast
      cases h
      subst hleast
      exact ⟨_, .least, fun rest => spelled_least _⟩
    · rename_i hn
      cases h
      obtain ⟨kinds, hspells, hread⟩ := exists_spells_int hn
      exact ⟨kinds, hspells, fun rest => hread _ (hends rest)⟩
  | float x =>
    simp only [Scalar.literal?] at h
    split at h
    · rename_i hx
      cases h
      obtain ⟨kinds, hspells, hread⟩ := exists_spells_float hx
      exact ⟨kinds, hspells, fun rest => hread _ (hends rest)⟩
    · cases h
  | bool b =>
    cases h
    refine ⟨_, .constant _, fun rest => .token ?_⟩
    cases b
    · exact lexes_word (by decide) (by rintro c ⟨⟩; decide)
    · exact lexes_word (by decide) (by rintro c ⟨⟩; decide)
  | string s =>
    cases h
    exact ⟨_, .constant _, fun rest => .token (lexes_quoteSource s _)⟩

end Formula
