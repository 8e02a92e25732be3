import Formula.Token.Scan

/-!
# The forms of lexemes

How a lexeme is read depends on its first character, and for `/` and `.` on the one behind it. Each form
is told of by what its first character is, and no two forms have one in common; so what a lexeme
starts with can be read off its form, and its form off what it starts with.

## Main definitions

* `LexemeAt start c p l q`: the forms, with what is read in each of them

## Main results

* `startsName_cases`, `isDigit_cases`, `symbolAt?_cases`: forms have no first character in common
* `lexeme_eq_ok_iff`: a lexeme is read in one of the forms, and each of them is read
-/

namespace Formula

open Text

/-- The letters of ASCII by their codes. -/
theorem isAlpha_iff_toNat (c : Char) : c.isAlpha = true ↔
    (65 ≤ c.toNat ∧ c.toNat ≤ 90) ∨ (97 ≤ c.toNat ∧ c.toNat ≤ 122) := by
  change (decide ('A'.val ≤ c.val ∧ c.val ≤ 'Z'.val) ||
    (decide ('a'.val ≤ c.val) && decide (c.val ≤ 'z'.val))) = true ↔ _
  simp only [Bool.or_eq_true, Bool.and_eq_true, decide_eq_true_eq, UInt32.le_iff_toNat_le]
  rfl

/-! ## First characters -/

/-- What can start a name starts nothing else. -/
theorem startsName_cases {c : Char} (h : startsName c = true) :
    c ≠ '\n' ∧ isBlank c = false ∧ c ≠ '/' ∧ c.isDigit = false ∧ c ≠ '.' := by
  have hval : (65 ≤ c.toNat ∧ c.toNat ≤ 90) ∨ (97 ≤ c.toNat ∧ c.toNat ≤ 122) ∨ c.toNat = 95 := by
    rw [startsName, Bool.or_eq_true, beq_iff_eq, isAlpha_iff_toNat] at h
    rcases h with (h | h) | rfl
    · exact .inl h
    · exact .inr (.inl h)
    · exact .inr (.inr rfl)
  refine ⟨?_, ?_, ?_, ?_, ?_⟩
  · rintro rfl
    revert hval
    decide
  · simp only [isBlank, Bool.or_eq_false_iff, Bool.and_eq_false_iff, decide_eq_false_iff_not,
      beq_eq_false_iff_ne]
    omega
  · rintro rfl
    revert hval
    decide
  · refine Bool.eq_false_iff.mpr fun hdigit => ?_
    have hdigit : 48 ≤ c.toNat ∧ c.toNat ≤ 57 := Char.isDigit_iff_toNat.mp hdigit
    omega
  · rintro rfl
    revert hval
    decide

/-- A digit starts nothing but a constant. -/
theorem isDigit_cases {c : Char} (h : c.isDigit = true) :
    c ≠ '\n' ∧ isBlank c = false ∧ c ≠ '/' := by
  have hval : 48 ≤ c.toNat ∧ c.toNat ≤ 57 := Char.isDigit_iff_toNat.mp h
  refine ⟨?_, ?_, ?_⟩
  · rintro rfl
    revert hval
    decide
  · simp only [isBlank, Bool.or_eq_false_iff, Bool.and_eq_false_iff, decide_eq_false_iff_not,
      beq_eq_false_iff_ne]
    omega
  · rintro rfl
    revert hval
    decide

/-- What starts a symbol starts nothing else, unless it is a slash or a point. -/
theorem symbolAt?_cases {c : Char} {p q : Place} {s : Symbol} (h : symbolAt? c p = some (s, q)) :
    c ≠ '\n' ∧ isBlank c = false ∧ c.isDigit = false ∧ startsName c = false ∧ c ≠ '"' ∧
      c ≠ '\x60' := by
  have hone (hmap : (symbolOfOne? c).map (·, p) = some (s, q)) : c ≠ '\n' ∧ isBlank c = false ∧
      c.isDigit = false ∧ startsName c = false ∧ c ≠ '"' ∧ c ≠ '\x60' := by
    obtain ⟨s', hs, -⟩ := Option.map_eq_some_iff.mp hmap
    unfold symbolOfOne? at hs
    split at hs <;> first | contradiction | decide
  unfold symbolAt? at h
  split at h
  · exact hone h
  · split at h
    · rename_i s' htwo
      unfold symbolOfTwo? at htwo
      split at htwo <;> first | contradiction | decide
    · exact hone h

/-! ## Forms -/

/-- **The lexeme `l` starts with `c` at the offset `start`, and ends before `q`**; `p` is the place behind
`c`. -/
inductive LexemeAt (start : Nat) (c : Char) (p : Place) : Lexeme → Place → Prop where
  | lineBreak (hc : c = '\n') : LexemeAt start c p .lineBreak p
  | blank (hc : isBlank c = true) (hne : c ≠ '\n') : LexemeAt start c p .blank p
  | lineComment (hc : c = '/') (hnext : p.rest.head? = some '/') :
    LexemeAt start c p .blank (p.takeWhile (· != '\n')).2
  | comment {l : Lexeme} {q : Place} (hc : c = '/') (hnext : p.rest.head? = some '*')
    (h : commentAt start ⟨p.offset + 1, p.rest.tail⟩ = .ok (l, q)) : LexemeAt start c p l q
  | number {k : TokenKind} {q : Place} (hc : c.isDigit = true) (h : numberAt start c p = .ok (k, q)) :
    LexemeAt start c p (.token k) q
  | fraction {k : TokenKind} {q : Place} (hc : c = '.') (hnext : p.rest.head?.any Char.isDigit = true)
    (h : fractionOnlyAt start p = .ok (k, q)) : LexemeAt start c p (.token k) q
  | word (hc : startsName c = true) :
    LexemeAt start c p (.token (wordKind (String.ofList (c :: (p.takeWhile continuesName).1))))
      (p.takeWhile continuesName).2
  | string {k : TokenKind} {q : Place} (hc : c = '"')
    (h : stringFrom start [] p.offset p.rest = .ok (k, q)) : LexemeAt start c p (.token k) q
  | rawString {k : TokenKind} {q : Place} (hc : c = '\x60') (h : rawStringAt start p = .ok (k, q)) :
    LexemeAt start c p (.token k) q
  /-- A slash that opens a comment, and a point that a digit follows, are no symbols. -/
  | symbol {s : Symbol} {q : Place}
    (hcomment : c = '/' → p.rest.head? ≠ some '/' ∧ p.rest.head? ≠ some '*')
    (hpoint : c = '.' → p.rest.head?.any Char.isDigit = false) (h : symbolAt? c p = some (s, q)) :
    LexemeAt start c p (.token (.symbol s)) q

theorem map_asLexeme_eq_ok {r : Except ScanError (TokenKind × Place)} {l : Lexeme} {q : Place} :
    r.map asLexeme = .ok (l, q) ↔ ∃ k, l = .token k ∧ r = .ok (k, q) := by
  constructor
  · intro h
    cases r with
    | error e => cases h
    | ok v =>
      cases h
      exact ⟨v.1, rfl, rfl⟩
  · rintro ⟨k, rfl, rfl⟩
    rfl

/-- A block comment is no token. -/
theorem ne_token_of_commentAt {start : Nat} {p q : Place} {l : Lexeme}
    (h : commentAt start p = .ok (l, q)) (k : TokenKind) : l ≠ .token k := by
  unfold commentAt at h
  split at h
  · rename_i broken _ _
    cases h
    cases broken <;> exact Lexeme.noConfusion
  · cases h

section

variable {start : Nat} {c : Char} {p q : Place} {l : Lexeme}

/-- A lexeme is read in one of the forms. -/
theorem LexemeAt.of_lexeme (h : lexeme start c p = .ok (l, q)) : LexemeAt start c p l q := by
  have hmap {r : Except ScanError (TokenKind × Place)} (hr : r.map asLexeme = .ok (l, q))
      (hat : ∀ k, r = .ok (k, q) → LexemeAt start c p (.token k) q) : LexemeAt start c p l q := by
    obtain ⟨k, rfl, hk⟩ := map_asLexeme_eq_ok.mp hr
    exact hat k hk
  -- a symbol comes last, and needs that its slash starts no comment and its point no number
  simp only [lexeme] at h
  split at h
  · cases h
    exact .lineBreak ‹_›
  split at h
  · cases h
    exact .blank ‹_› ‹_›
  split at h
  · rename_i hcomment
    cases h
    exact .lineComment hcomment.1 hcomment.2
  rename_i hline
  split at h
  · rename_i hcomment
    exact .comment hcomment.1 hcomment.2 h
  rename_i hblock
  split at h
  · exact hmap h fun _ => .number ‹_›
  split at h
  · rename_i hpoint
    exact hmap h fun _ => .fraction hpoint.1 hpoint.2
  rename_i hpoint
  split at h
  · cases h
    exact .word ‹_›
  split at h
  · exact hmap h fun _ => .string ‹_›
  split at h
  · exact hmap h fun _ => .rawString ‹_›
  split at h
  · cases h
    refine .symbol (fun hc => ⟨fun hnext => hline ⟨hc, hnext⟩, fun hnext => hblock ⟨hc, hnext⟩⟩)
      (fun hc => ?_) ‹_›
    exact Bool.eq_false_iff.mpr fun hnext => hpoint ⟨hc, hnext⟩
  · cases h

/-- What starts with a digit is a constant. -/
theorem lexeme_of_isDigit (hc : c.isDigit = true) (start : Nat) (p : Place) :
    lexeme start c p = (numberAt start c p).map asLexeme := by
  obtain ⟨hline, hblank, hslash⟩ := isDigit_cases hc
  rw [lexeme, if_neg hline, if_neg (by simp [hblank]), if_neg (by simp [hslash]),
    if_neg (by simp [hslash]), if_pos hc]

/-- In each form, a lexeme is read. -/
theorem LexemeAt.lexeme_eq (h : LexemeAt start c p l q) : lexeme start c p = .ok (l, q) := by
  cases h with
  | lineBreak hc => rw [lexeme, if_pos hc]
  | blank hc hne => rw [lexeme, if_neg hne, if_pos hc]
  | lineComment hc hnext =>
    subst hc
    rw [lexeme, if_neg (by decide), if_neg (by decide), if_pos ⟨rfl, hnext⟩]
  | comment hc hnext h =>
    subst hc
    have hline : ¬ ('/' = '/' ∧ p.rest.head? = some '/') := by simp [hnext]
    rw [lexeme, if_neg (by decide), if_neg (by decide), if_neg hline, if_pos ⟨rfl, hnext⟩, h]
  | number hc h =>
    rw [lexeme_of_isDigit hc, h]
    rfl
  | fraction hc hnext h =>
    subst hc
    rw [lexeme, if_neg (by decide), if_neg (by decide), if_neg (fun hslash => absurd hslash.1 (by decide)),
      if_neg (fun hslash => absurd hslash.1 (by decide)), if_neg (by decide), if_pos ⟨rfl, hnext⟩, h]
    rfl
  | word hc =>
    obtain ⟨hline, hblank, hslash, hdigit, hdot⟩ := startsName_cases hc
    rw [lexeme, if_neg hline, if_neg (by simp [hblank]), if_neg (by simp [hslash]),
      if_neg (by simp [hslash]), if_neg (by simp [hdigit]), if_neg (by simp [hdot]), if_pos hc]
  | string hc h =>
    subst hc
    rw [lexeme, if_neg (by decide), if_neg (by decide), if_neg (fun hslash => absurd hslash.1 (by decide)),
      if_neg (fun hslash => absurd hslash.1 (by decide)), if_neg (by decide),
      if_neg (fun hdot => absurd hdot.1 (by decide)), if_neg (by decide), if_pos rfl, h]
    rfl
  | rawString hc h =>
    subst hc
    rw [lexeme, if_neg (by decide), if_neg (by decide), if_neg (fun hslash => absurd hslash.1 (by decide)),
      if_neg (fun hslash => absurd hslash.1 (by decide)), if_neg (by decide),
      if_neg (fun hdot => absurd hdot.1 (by decide)), if_neg (by decide), if_neg (by decide), if_pos rfl,
      h]
    rfl
  | symbol hcomment hpoint h =>
    obtain ⟨hline, hblank, hdigit, hstart, hquote, hraw⟩ := symbolAt?_cases h
    rw [lexeme, if_neg hline, if_neg (by simp [hblank]), if_neg fun hc => (hcomment hc.1).1 hc.2,
      if_neg fun hc => (hcomment hc.1).2 hc.2, if_neg (by simp [hdigit]),
      if_neg fun hc => Bool.eq_false_iff.mp (hpoint hc.1) hc.2, if_neg (by simp [hstart]),
      if_neg hquote, if_neg hraw, h]

/-- **A lexeme is read in one of the forms, and in each of them one is read.** -/
theorem lexeme_eq_ok_iff : lexeme start c p = .ok (l, q) ↔ LexemeAt start c p l q :=
  ⟨.of_lexeme, LexemeAt.lexeme_eq⟩

end

end Formula
