import Formula.Proofs.Token.Row
import Formula.Registry.Assembly

/-!
# Reading what was written

Which lexemes a written text consists of. This is said of a text together with what follows it, as
a lexeme is read as far as it goes: a name must not be followed by a letter. Where a text stands
plays no part.

## Main definitions

* `Lexes cs rest ls`: before `rest` the characters `cs` are read as the lexemes `ls`
* `Outline`: what has been read of a text, without the places
* `Scanned.outline`, `Outline.read`: the outline of what has been read, and of what is read next

## Main results

* `Lexes.append`: what is read one after the other
* `lexes_word`, `lexes_quoteSource`, `lexes_comment`, `lexes_natural`: what single lexemes are
* `Lexes.scanFrom`: scanning goes on behind what was read, with its outline
-/

namespace Formula

open Text

/-! ## Lexemes -/

/-- **What characters are read as.** Before `rest`, the characters `cs` are read as the lexemes
`ls`, wherever they stand. -/
inductive Lexes : List Char → List Char → List Lexeme → Prop where
  | nil (rest : List Char) : Lexes [] rest []
  | cons {c : Char} {cs ds rest : List Char} {l : Lexeme} {ls : List Lexeme}
      (first : ∀ offset, lexeme offset c ⟨offset + c.utf8Size, cs ++ (ds ++ rest)⟩ =
        .ok (l, ⟨offset + byteLength (c :: cs), ds ++ rest⟩))
      (others : Lexes ds rest ls) : Lexes (c :: cs ++ ds) rest (l :: ls)

namespace Lexes

variable {cs ds rest : List Char} {ls ms : List Lexeme}

/-- One lexeme. -/
theorem single {c : Char} {l : Lexeme}
    (h : ∀ offset, lexeme offset c ⟨offset + c.utf8Size, cs ++ rest⟩ =
      .ok (l, ⟨offset + byteLength (c :: cs), rest⟩)) : Lexes (c :: cs) rest [l] := by
  have hfirst : ∀ offset, lexeme offset c ⟨offset + c.utf8Size, cs ++ ([] ++ rest)⟩ =
      .ok (l, ⟨offset + byteLength (c :: cs), [] ++ rest⟩) := h
  simpa using Lexes.cons hfirst (.nil rest)

/-- **What is read one after the other.** -/
theorem append (h : Lexes cs (ds ++ rest) ls) (h' : Lexes ds rest ms) :
    Lexes (cs ++ ds) rest (ls ++ ms) := by
  generalize hr : ds ++ rest = r at h
  induction h with
  | nil r => exact h'
  | @cons c cs₁ cs₂ r l ls first others ih =>
    subst hr
    rw [List.append_assoc]
    exact .cons (by simpa only [List.append_assoc] using first) (ih rfl)

end Lexes

/-! ## Single lexemes -/

/-- Reading on goes as far as a condition holds. -/
theorem Place.takeWhileFrom_append_of_all {keep : Char → Bool} {cs rest : List Char}
    (hcs : ∀ c ∈ cs, keep c = true) (hrest : ∀ c ∈ rest.head?, keep c = false) (offset : Nat) :
    takeWhileFrom keep offset (cs ++ rest) = (cs, ⟨offset + byteLength cs, rest⟩) := by
  induction cs generalizing offset with
  | nil =>
    cases rest with
    | nil => rfl
    | cons c rest =>
      have hc : keep c = false := hrest c rfl
      simp [takeWhileFrom, hc]
  | cons c cs ih =>
    have hc : keep c = true := hcs c List.mem_cons_self
    simp only [List.cons_append, takeWhileFrom, hc, if_true]
    rw [ih (fun d hd => hcs d (List.mem_cons_of_mem c hd)), byteLength_cons, Nat.add_assoc]

theorem lexes_lineBreak (rest : List Char) : Lexes ['\n'] rest [.lineBreak] :=
  .single fun _ => rfl

theorem lexes_blank {c : Char} (hc : isBlank c = true) (hne : c ≠ '\n') (rest : List Char) :
    Lexes [c] rest [.blank] :=
  .single fun _ => (LexemeAt.blank hc hne).lexeme_eq

theorem lexes_space (rest : List Char) : Lexes [' '] rest [.blank] :=
  lexes_blank rfl (by decide) rest

/-- A comment goes on to the end of its line. -/
theorem lexes_comment {cs : List Char} (hcs : '\n' ∉ cs) (rest : List Char) :
    Lexes ('/' :: '/' :: cs) ('\n' :: rest) [.blank] := by
  refine .single fun offset => ?_
  have hkeep : ∀ c ∈ '/' :: cs, (c != '\n') = true := by
    intro c hc
    rw [bne_iff_ne]
    rintro rfl
    rcases List.mem_cons.mp hc with heq | hc
    · exact absurd heq (by decide)
    · exact hcs hc
  have hend : ∀ c ∈ ('\n' :: rest).head?, (c != '\n') = false := by
    rintro c ⟨⟩
    decide
  have htake := Place.takeWhileFrom_append_of_all hkeep hend (offset + '/'.utf8Size)
  rw [(LexemeAt.lineComment rfl rfl).lexeme_eq, Place.takeWhile, htake]
  simp only [byteLength_cons, Nat.add_assoc]

/-- Whether characters are those of a word. -/
def isWord : List Char → Bool
  | [] => false
  | c :: cs => startsName c && cs.all continuesName

/-- **A word is a keyword, a truth value or a name**, unless it goes on behind its end. -/
theorem lexes_word {cs rest : List Char} (hcs : isWord cs = true)
    (hrest : ∀ c ∈ rest.head?, continuesName c = false) :
    Lexes cs rest [.token (wordKind (String.ofList cs))] := by
  rcases cs with _ | ⟨c, cs⟩
  · cases hcs
  rw [isWord, Bool.and_eq_true, List.all_eq_true] at hcs
  obtain ⟨hstart, hmore⟩ := hcs
  refine .single fun offset => ?_
  rw [(LexemeAt.word hstart).lexeme_eq, Place.takeWhile,
    Place.takeWhileFrom_append_of_all hmore hrest, byteLength_cons, Nat.add_assoc]

/-! ## Quoted texts -/

theorem stringFrom_escapeSource (start offset : Nat) (done rest : List Char) (c : Char) :
    stringFrom start done offset (escapeSource c ++ rest) =
      stringFrom start (c :: done) (offset + byteLength (escapeSource c)) rest := by
  unfold escapeSource
  split
  iterate 6 rfl
  rename_i hquote hslash hline _ _ _
  rw [List.singleton_append, stringFrom.eq_def]
  split <;> simp_all

/-- A quoted text is read as it was before it was quoted. -/
theorem stringFrom_flatMap_escapeSource (start offset : Nat) (done cs rest : List Char) :
    stringFrom start done offset (cs.flatMap escapeSource ++ '"' :: rest) =
      .ok (.constant (.string (String.ofList (done.reverse ++ cs))),
        ⟨offset + byteLength (cs.flatMap escapeSource) + 1, rest⟩) := by
  induction cs generalizing offset done with
  | nil => simp [stringFrom]
  | cons c cs ih =>
    rw [List.flatMap_cons, List.append_assoc, stringFrom_escapeSource, ih, byteLength_append,
      List.reverse_cons, List.append_assoc, List.singleton_append, Nat.add_assoc offset]

/-- **A quoted text is read as a constant of that text**, whatever it holds and whatever follows. -/
theorem lexes_quoteSource (s : String) (rest : List Char) :
    Lexes (quoteSource s).toList rest [.token (.constant (.string s))] := by
  rw [quoteSource, String.toList_ofList, List.cons_append]
  refine .single fun offset => ?_
  have hread := stringFrom_flatMap_escapeSource offset (offset + '"'.utf8Size) [] s.toList rest
  rw [List.append_assoc, List.singleton_append, (LexemeAt.string rfl hread).lexeme_eq]
  simp only [List.reverse_nil, List.nil_append, String.ofList_toList, byteLength_cons,
    byteLength_append, byteLength_nil, Nat.add_zero, Nat.add_assoc]
  rfl

/-! ## Symbols -/

/-- A symbol of one character that does not go on behind it. -/
theorem lexes_symbol {c : Char} {s : Symbol} {rest : List Char} (hone : symbolOfOne? c = some s)
    (htwo : ∀ d ∈ rest.head?, symbolOfTwo? c d = none) (hslash : c ≠ '/') (hdot : c ≠ '.') :
    Lexes [c] rest [.token (.symbol s)] := by
  refine .single fun offset => ?_
  have hat : symbolAt? c ⟨offset + c.utf8Size, [] ++ rest⟩ =
      some (s, ⟨offset + c.utf8Size, rest⟩) := by
    rw [List.nil_append, symbolAt?]
    cases rest with
    | nil => simp [hone]
    | cons d rest => simp [hone, htwo d rfl]
  exact (LexemeAt.symbol (fun hc => absurd hc hslash) (fun hc => absurd hc hdot) hat).lexeme_eq

/-! ## Integers -/

/-- A constant ends before a character that cannot go on with it. -/
def endsNumeral (rest : List Char) : Prop :=
  ∀ c ∈ rest.head?, isNumeral c = false ∧ c ≠ '.' ∧ c ≠ 'e' ∧ c ≠ 'E'

theorem exponentAt?_of_endsNumeral {rest : List Char} (h : endsNumeral rest) (offset : Nat) :
    exponentAt? ⟨offset, rest⟩ = none := by
  cases rest with
  | nil => rfl
  | cons c rest =>
    obtain ⟨-, -, he, hE⟩ := h c rfl
    simp [exponentAt?, he, hE]

theorem fractionAt_of_endsNumeral {rest : List Char} (h : endsNumeral rest) (offset : Nat) :
    fractionAt ⟨offset, rest⟩ = (none, ⟨offset, rest⟩) := by
  cases rest with
  | nil => rfl
  | cons c rest =>
    obtain ⟨-, hdot, -, -⟩ := h c rfl
    unfold fractionAt
    split
    · rename_i heq
      cases heq
      exact absurd rfl hdot
    · rfl

theorem isNumeral_of_isDigit {c : Char} (h : c.isDigit = true) : isNumeral c = true := by
  simp [isNumeral, h]

theorem digitsOf_eq_self {cs : List Char} (h : ∀ c ∈ cs, c.isDigit = true) : digitsOf cs = cs := by
  refine List.filter_eq_self.mpr fun c hc => ?_
  have hdigit := h c hc
  simp only [bne_iff_ne]
  rintro rfl
  exact absurd hdigit (by decide)

/-- **A row of digits is read as the integer that it stands for**, if that has 64 bits. -/
theorem lexes_natural {cs rest : List Char} (hne : cs ≠ []) (hcs : ∀ c ∈ cs, c.isDigit = true)
    (hrest : endsNumeral rest) (hlt : Decimal.natOfDigits cs < Decimal.intBound) :
    Lexes cs rest [.token (.constant (.int (Int64.ofNat (Decimal.natOfDigits cs))))] := by
  rcases cs with _ | ⟨c, cs⟩
  · exact absurd rfl hne
  refine .single fun offset => ?_
  have hmore : ∀ d ∈ cs, isNumeral d = true := fun d hd =>
    isNumeral_of_isDigit (hcs d (List.mem_cons_of_mem c hd))
  rw [lexeme_of_isDigit (hcs c List.mem_cons_self), numberAt, Place.takeWhile,
    Place.takeWhileFrom_append_of_all hmore fun d hd => (hrest d hd).1]
  simp only [fractionAt_of_endsNumeral hrest, numberFrom, exponentAt?_of_endsNumeral hrest,
    digitsOf_eq_self hcs, hlt, if_true, Except.map, asLexeme, byteLength_cons, Nat.add_assoc]

/-! ## Outlines -/

/-- What has been read of a text, without the places: the kinds of the tokens, the last one first,
and the brackets that are open. -/
structure Outline where
  kinds : List TokenKind := []
  groups : List Symbol := []

namespace Outline

/-- Whether a line break ends a statement here. -/
def endsStatement (o : Outline) : Bool :=
  o.groups.head? != some .lparen && o.kinds.head?.any TokenKind.endsStatement

/-- What has been read when a lexeme is added. -/
def add (o : Outline) : Lexeme → Outline
  | .token kind => ⟨kind :: o.kinds, Scanned.groupsAfter o.groups kind⟩
  | .lineBreak => if o.endsStatement then { o with kinds := .newline :: o.kinds } else o
  | .blank => o

/-- What has been read when several lexemes are added. -/
def read (o : Outline) (ls : List Lexeme) : Outline :=
  ls.foldl add o

theorem read_append (o : Outline) (ls ms : List Lexeme) :
    o.read (ls ++ ms) = (o.read ls).read ms :=
  List.foldl_append

end Outline

namespace Scanned

/-- What has been read, without the places. -/
def outline (s : Scanned) : Outline :=
  ⟨s.tokens.map Token.kind, s.groups⟩

theorem endsStatement_outline (s : Scanned) : s.outline.endsStatement = s.endsStatement := by
  obtain ⟨tokens, groups⟩ := s
  cases tokens <;> rfl

theorem outline_endLine (file : SourceFile) (s : Scanned) (offset : Nat) :
    (s.endLine file offset).outline = s.outline.add .lineBreak := by
  rw [endLine, Outline.add, endsStatement_outline]
  split <;> rfl

theorem outline_add (file : SourceFile) (s : Scanned) (start stop : Nat) (l : Lexeme) :
    (s.add file start stop l).outline = s.outline.add l := by
  cases l with
  | token kind => rfl
  | lineBreak => exact outline_endLine file s start
  | blank => rfl

theorem kinds_finish (file : SourceFile) (s : Scanned) :
    (s.finish file).map Token.kind = (.eof :: (s.outline.add .lineBreak).kinds).reverse := by
  rw [finish, List.map_reverse, List.map_cons, ← outline_endLine file s file.size]
  rfl

end Scanned

/-- **Scanning goes on behind what was read**, with its outline. -/
theorem Lexes.scanFrom {cs rest : List Char} {ls : List Lexeme} (h : Lexes cs rest ls)
    (file : SourceFile) (s : Scanned) (offset : Nat) :
    ∃ s', s'.outline = s.outline.read ls ∧
      Scanned.scanFrom file s ⟨offset, cs ++ rest⟩ =
        Scanned.scanFrom file s' ⟨offset + byteLength cs, rest⟩ := by
  induction h generalizing s offset with
  | nil rest => exact ⟨s, rfl, rfl⟩
  | @cons c cs ds rest l ls first others ih =>
    obtain ⟨s', houtline, hscan⟩ :=
      ih (s.add file offset (offset + byteLength (c :: cs)) l) (offset + byteLength (c :: cs))
    refine ⟨s', ?_, ?_⟩
    · rw [houtline, Scanned.outline_add]
      rfl
    · rw [byteLength_append, ← Nat.add_assoc, ← hscan, List.append_assoc, List.cons_append,
        Scanned.scanFrom]
      split
      · rename_i heq
        cases heq
      · rename_i d more heq
        cases heq
        split
        · rename_i e he
          cases (first offset).symm.trans he
        · rename_i l' q hq
          cases (first offset).symm.trans hq
          rfl

/-- The tokens of a file with a known outline. -/
theorem Token.scan_of_lexes {file : SourceFile} {ls : List Lexeme}
    (h : Lexes file.text.toList [] ls) :
    ∃ tokens, Token.scan file = .ok tokens ∧
      tokens.map Token.kind = (.eof :: ((Outline.read {} ls).add .lineBreak).kinds).reverse := by
  obtain ⟨s', houtline, hscan⟩ := h.scanFrom file {} 0
  refine ⟨s'.finish file, ?_, ?_⟩
  · rw [List.append_nil] at hscan
    rw [Token.scan, Place.ofText, hscan, Scanned.scanFrom]
  · rw [Scanned.kinds_finish, houtline]
    rfl

end Formula
