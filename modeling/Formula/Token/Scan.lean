import Formula.Decimal.Reading
import Formula.Diagnostic
import Formula.Text.Alphanumeric
import Formula.Text.Blank
import Formula.Token
import Formula.Token.Place

/-!
# Scanning

A text is read from its start, one lexeme at a time: a token, a line break, or something that is
skipped. A line break becomes a token where it ends a statement.

## Main definitions

* `Lexeme`, `lexeme`: what stands at one place of a text.
* `Scanned`: what has been read so far; `Scanned.add` adds a lexeme.
* `Token.scan`: the tokens of a file.

## Main results

* `length_of_lexeme`: reading a lexeme never gives characters back, so scanning ends.
-/

namespace Formula

/-- Why a text cannot be scanned. -/
inductive ScanCause where
  | unexpectedCharacter (c : Char)
  | openComment
  | largeInt (literal : String)
  | unknownEscape (c : Char)
  | openString
  | openRawString
deriving Repr, DecidableEq

/-- The wording of a cause. -/
def ScanCause.message : ScanCause → String
  | unexpectedCharacter c => "unexpected character `" ++ c.toString ++ "`"
  | openComment => "comment not terminated"
  | largeInt literal => "integer literal `" ++ literal ++ "` overflows int"
  | unknownEscape c => "unknown escape sequence `\\" ++ c.toString ++ "`"
  | openString => "string literal not terminated"
  | openRawString => "raw string literal not terminated"

/-- A cause and the offset it is reported at. -/
structure ScanError where
  cause : ScanCause
  offset : Nat
deriving Repr, DecidableEq

/-- The diagnostic of an error: it marks one byte. -/
def ScanError.diagnostic (file : SourceFile) (e : ScanError) : Diagnostic where
  code := some "E0001"
  message := e.cause.message
  primary := some ⟨file.span e.offset (min (e.offset + 1) file.size), none⟩

/-- What stands at one place of a text: a token, the end of a line, or nothing that matters. -/
inductive Lexeme where
  | token (kind : TokenKind)
  | lineBreak
  | blank
deriving Repr, BEq

/-- Whether a character can start a name. -/
def startsName (c : Char) : Bool :=
  c.isAlpha || c == '_'

/-- Whether a character can stand in a name after its start. -/
def continuesName (c : Char) : Bool :=
  Text.isAlphanumeric c || c == '_'

/-- The token that a word stands for: a keyword, a truth value or a name. -/
def wordKind (word : String) : TokenKind :=
  match Keyword.ofWord? word with
  | some .trueK => .constant (.bool true)
  | some .falseK => .constant (.bool false)
  | some k => .keyword k
  | none => .identifier word

/-- The symbol of two characters. -/
def symbolOfTwo? : Char → Char → Option Symbol
  | ':', '=' => some .define
  | '=', '=' => some .eqEq
  | '!', '=' => some .notEq
  | '<', '=' => some .le
  | '>', '=' => some .ge
  | '&', '&' => some .ampAmp
  | '|', '|' => some .pipePipe
  | '+', '+' => some .plusPlus
  | '+', '=' => some .plusEquals
  | '-', '-' => some .minusMinus
  | '-', '=' => some .minusEquals
  | '*', '=' => some .starEquals
  | '/', '=' => some .slashEquals
  | '%', '=' => some .percentEquals
  | _, _ => none

/-- The symbol of one character. -/
def symbolOfOne? : Char → Option Symbol
  | '(' => some .lparen
  | ')' => some .rparen
  | '\x7b' => some .lbrace
  | '\x7d' => some .rbrace
  | ',' => some .comma
  | '.' => some .dot
  | ';' => some .semicolon
  | '=' => some .equals
  | '!' => some .bang
  | '<' => some .lt
  | '>' => some .gt
  | '+' => some .plus
  | '-' => some .minus
  | '*' => some .star
  | '/' => some .slash
  | '%' => some .percent
  | _ => none

/-- The longest symbol that starts with `c`, which stands before the place `p`. -/
def symbolAt? (c : Char) (p : Place) : Option (Symbol × Place) :=
  match p.rest with
  | [] => (symbolOfOne? c).map (·, p)
  | d :: rest =>
    match symbolOfTwo? c d with
    | some s => some (s, p.behind d rest)
    | none => (symbolOfOne? c).map (·, p)

/-- Whether a character can stand in a constant after its start. -/
def isNumeral (c : Char) : Bool :=
  c.isDigit || c == '_'

/-- The digits of a constant without the underscores between them. -/
def digitsOf (cs : List Char) : List Char :=
  cs.filter (· != '_')

/-- The digits after the point, if there is one that is not followed by a second point. -/
def fractionAt (p : Place) : Option (List Char) × Place :=
  match p.rest with
  | '.' :: rest =>
    if rest.head? = some '.' then (none, p)
    else
      let (digits, q) := (p.behind '.' rest).takeWhile isNumeral
      (some digits, q)
  | _ => (none, p)

/-- The digits of an exponent with the given sign, if there is one at least. -/
def exponentDigits? (negative : Bool) (p : Place) : Option (Int × Place) :=
  match p.takeWhile Char.isDigit with
  | ([], _) => none
  | (digits, q) =>
    let value : Int := Decimal.natOfDigits digits
    some (if negative then -value else value, q)

/-- An exponent: its mark, perhaps a sign, and digits. -/
def exponentAt? (p : Place) : Option (Int × Place) :=
  match p.rest with
  | [] => none
  | e :: rest =>
    if e = 'e' ∨ e = 'E' then
      let q := p.behind e rest
      match q.rest with
      | '-' :: more => exponentDigits? true (q.behind '-' more)
      | '+' :: more => exponentDigits? false (q.behind '+' more)
      | _ => exponentDigits? false q
    else none

/-- A constant that is read from the place `p`, where `whole` is what stands before the point. It
is an integer unless there is a point or an exponent. -/
def numberFrom (start : Nat) (whole : List Char) (fraction : Option (List Char)) (p : Place) :
    Except ScanError (TokenKind × Place) :=
  match fraction, exponentAt? p with
  | none, none =>
    let value := Decimal.natOfDigits (digitsOf whole)
    if value < Decimal.intBound then .ok (.constant (.int (Int64.ofNat value)), p)
    else .error ⟨.largeInt (String.ofList whole), start⟩
  | fraction, exponent =>
    let places := digitsOf (fraction.getD [])
    let digits := Decimal.natOfDigits (digitsOf whole ++ places)
    let (power, q) := exponent.getD (0, p)
    .ok (.constant (.float (Decimal.floatOfDecimal false digits (power - places.length))), q)

/-- A constant that starts with the digit `c` before the place `p`. -/
def numberAt (start : Nat) (c : Char) (p : Place) : Except ScanError (TokenKind × Place) :=
  let (more, q) := p.takeWhile isNumeral
  let (fraction, r) := fractionAt q
  numberFrom start (c :: more) fraction r

/-- A constant that starts with a point before the place `p`. -/
def fractionOnlyAt (start : Nat) (p : Place) : Except ScanError (TokenKind × Place) :=
  let (digits, q) := p.takeWhile isNumeral
  numberFrom start [] (some digits) q

/-- What an escape stands for. -/
def escaped? : Char → Option Char
  | 'n' => some '\n'
  | 'r' => some '\r'
  | 't' => some '\t'
  | '\\' => some '\\'
  | '"' => some '"'
  | '\'' => some '\''
  | '0' => some '\x00'
  | _ => none

/-- The rest of a string after its opening quote at `start`; `done` is what has been read, from
its last character to its first. -/
def stringFrom (start : Nat) (done : List Char) (offset : Nat) :
    List Char → Except ScanError (TokenKind × Place)
  | [] => .error ⟨.openString, start⟩
  | '"' :: rest => .ok (.constant (.string (String.ofList done.reverse)), ⟨offset + 1, rest⟩)
  | '\n' :: _ => .error ⟨.openString, start⟩
  | ['\\'] => .error ⟨.openString, start⟩
  | '\\' :: e :: rest =>
    match escaped? e with
    | some c => stringFrom start (c :: done) (offset + 1 + e.utf8Size) rest
    | none => .error ⟨.unknownEscape e, offset⟩
  | c :: rest => stringFrom start (c :: done) (offset + c.utf8Size) rest

/-- The rest of a raw string after its opening quote at `start`. -/
def rawStringAt (start : Nat) (p : Place) : Except ScanError (TokenKind × Place) :=
  let (body, q) := p.takeWhile (· != '\x60')
  match q.eat? '\x60' with
  | some r => .ok (.constant (.string (String.ofList body)), r)
  | none => .error ⟨.openRawString, start⟩

/-- The place behind a block comment of which the opening has been read, and whether there was a
line break in it. -/
def blockComment? (broken : Bool) (offset : Nat) : List Char → Option (Bool × Place)
  | [] => none
  | '*' :: '/' :: rest => some (broken, ⟨offset + 2, rest⟩)
  | c :: rest => blockComment? (broken || c == '\n') (offset + c.utf8Size) rest

/-- A block comment is a line break if it holds one, and a blank otherwise. -/
def commentAt (start : Nat) (p : Place) : Except ScanError (Lexeme × Place) :=
  match blockComment? false p.offset p.rest with
  | some (broken, q) => .ok (if broken then .lineBreak else .blank, q)
  | none => .error ⟨.openComment, start⟩

/-- A token together with the place behind it, as a lexeme. -/
def asLexeme (r : TokenKind × Place) : Lexeme × Place :=
  (.token r.1, r.2)

/-- The lexeme that starts with the character `c` at the offset `start`; `p` is the place behind
that character. -/
def lexeme (start : Nat) (c : Char) (p : Place) : Except ScanError (Lexeme × Place) :=
  if c = '\n' then .ok (.lineBreak, p)
  else if Text.isBlank c then .ok (.blank, p)
  else if c = '/' ∧ p.rest.head? = some '/' then .ok (.blank, (p.takeWhile (· != '\n')).2)
  else if c = '/' ∧ p.rest.head? = some '*' then
    commentAt start ⟨p.offset + 1, p.rest.tail⟩
  else if c.isDigit then (numberAt start c p).map asLexeme
  else if c = '.' ∧ p.rest.head?.any Char.isDigit then (fractionOnlyAt start p).map asLexeme
  else if startsName c then
    let (more, q) := p.takeWhile continuesName
    .ok (.token (wordKind (String.ofList (c :: more))), q)
  else if c = '"' then (stringFrom start [] p.offset p.rest).map asLexeme
  else if c = '\x60' then (rawStringAt start p).map asLexeme
  else match symbolAt? c p with
    | some (s, q) => .ok (.token (.symbol s), q)
    | none => .error ⟨.unexpectedCharacter c, start⟩

/-! ## Reading shortens the text -/

theorem length_of_symbolAt? {c : Char} {p q : Place} {s : Symbol}
    (h : symbolAt? c p = some (s, q)) : q.rest.length ≤ p.rest.length := by
  simp only [symbolAt?] at h
  split at h
  · simp only [Option.map_eq_some_iff, Prod.mk.injEq] at h
    obtain ⟨_, _, _, rfl⟩ := h
    exact Nat.le_refl _
  · rename_i d rest heq
    split at h
    · cases h
      simp [heq]
    · simp only [Option.map_eq_some_iff, Prod.mk.injEq] at h
      obtain ⟨_, _, _, rfl⟩ := h
      exact Nat.le_refl _

theorem length_fractionAt (p : Place) : (fractionAt p).2.rest.length ≤ p.rest.length := by
  simp only [fractionAt]
  split
  · rename_i rest heq
    split
    · exact Nat.le_refl _
    · have := Place.length_takeWhile_le (p.behind '.' rest) isNumeral
      simp only [Place.behind_rest] at this
      simp only [heq, List.length_cons]
      omega
  · exact Nat.le_refl _

theorem length_of_exponentDigits? {negative : Bool} {p q : Place} {e : Int}
    (h : exponentDigits? negative p = some (e, q)) : q.rest.length ≤ p.rest.length := by
  have hle := Place.length_takeWhile_le p Char.isDigit
  simp only [exponentDigits?] at h
  split at h
  · simp at h
  · rename_i digits r heq
    simp only [Option.some.injEq, Prod.mk.injEq] at h
    simpa [heq, ← h.2] using hle

theorem length_of_exponentAt? {p q : Place} {e : Int} (h : exponentAt? p = some (e, q)) :
    q.rest.length ≤ p.rest.length := by
  simp only [exponentAt?] at h
  split at h
  · simp at h
  · rename_i c rest heq
    split at h
    · simp only [Place.behind_rest] at h
      split at h <;> have := length_of_exponentDigits? h <;> simp_all <;> omega
    · simp at h

theorem length_of_numberFrom {start : Nat} {whole : List Char} {fraction : Option (List Char)}
    {p q : Place} {k : TokenKind} (h : numberFrom start whole fraction p = .ok (k, q)) :
    q.rest.length ≤ p.rest.length := by
  simp only [numberFrom] at h
  split at h
  · split at h
    · cases h
      exact Nat.le_refl _
    · cases h
  · simp only [Except.ok.injEq, Prod.mk.injEq] at h
    cases he : exponentAt? p with
    | none => simp [← h.2, he]
    | some r =>
      obtain ⟨e, r⟩ := r
      simpa [← h.2, he] using length_of_exponentAt? he

theorem length_of_numberAt {start : Nat} {c : Char} {p q : Place} {k : TokenKind}
    (h : numberAt start c p = .ok (k, q)) : q.rest.length ≤ p.rest.length := by
  simp only [numberAt] at h
  exact Nat.le_trans (length_of_numberFrom h)
    (Nat.le_trans (length_fractionAt _) (Place.length_takeWhile_le p isNumeral))

theorem length_of_fractionOnlyAt {start : Nat} {p q : Place} {k : TokenKind}
    (h : fractionOnlyAt start p = .ok (k, q)) : q.rest.length ≤ p.rest.length := by
  simp only [fractionOnlyAt] at h
  exact Nat.le_trans (length_of_numberFrom h) (Place.length_takeWhile_le p isNumeral)

theorem length_of_stringFrom {start offset : Nat} {done cs : List Char} {q : Place}
    {k : TokenKind} (h : stringFrom start done offset cs = .ok (k, q)) :
    q.rest.length ≤ cs.length := by
  fun_induction stringFrom start done offset cs with
  | case1 | case3 | case4 | case6 => cases h
  | case2 => cases h; simp
  | case5 _ _ _ _ _ _ ih | case7 _ _ _ _ _ _ _ _ ih =>
    have := ih h
    simp only [List.length_cons]
    omega

theorem length_of_rawStringAt {start : Nat} {p q : Place} {k : TokenKind}
    (h : rawStringAt start p = .ok (k, q)) : q.rest.length ≤ p.rest.length := by
  have hle := Place.length_takeWhile_le p (· != '\x60')
  simp only [rawStringAt] at h
  split at h
  · rename_i r heat
    have := Place.length_of_eat? heat
    cases h
    omega
  · cases h

theorem length_of_blockComment? {broken b : Bool} {offset : Nat} {cs : List Char} {q : Place}
    (h : blockComment? broken offset cs = some (b, q)) : q.rest.length ≤ cs.length := by
  fun_induction blockComment? broken offset cs with
  | case1 => cases h
  | case2 => cases h; simp only [List.length_cons]; omega
  | case3 _ _ _ _ _ ih =>
    have := ih h
    simp only [List.length_cons]
    omega

theorem length_of_commentAt {start : Nat} {p q : Place} {l : Lexeme}
    (h : commentAt start p = .ok (l, q)) : q.rest.length ≤ p.rest.length := by
  simp only [commentAt] at h
  split at h
  · rename_i b r hr
    cases h
    exact length_of_blockComment? hr
  · cases h

theorem exists_of_map_asLexeme {r : Except ScanError (TokenKind × Place)} {l : Lexeme} {q : Place}
    (h : r.map asLexeme = .ok (l, q)) : ∃ k, r = .ok (k, q) := by
  cases r with
  | error e => cases h
  | ok v =>
    cases h
    exact ⟨v.1, rfl⟩

/-- **Reading a lexeme gives no characters back.** -/
theorem length_of_lexeme {start : Nat} {c : Char} {p q : Place} {l : Lexeme}
    (h : lexeme start c p = .ok (l, q)) : q.rest.length ≤ p.rest.length := by
  simp only [lexeme] at h
  split at h
  · cases h; exact Nat.le_refl _
  split at h
  · cases h; exact Nat.le_refl _
  split at h
  · cases h; exact Place.length_takeWhile_le ..
  split at h
  · have := length_of_commentAt h
    simp only [List.length_tail] at this
    omega
  split at h
  · obtain ⟨k, hk⟩ := exists_of_map_asLexeme h
    exact length_of_numberAt hk
  split at h
  · obtain ⟨k, hk⟩ := exists_of_map_asLexeme h
    exact length_of_fractionOnlyAt hk
  split at h
  · cases h; exact Place.length_takeWhile_le ..
  split at h
  · obtain ⟨k, hk⟩ := exists_of_map_asLexeme h
    exact length_of_stringFrom hk
  split at h
  · obtain ⟨k, hk⟩ := exists_of_map_asLexeme h
    exact length_of_rawStringAt hk
  split at h
  · rename_i hs
    cases h
    exact length_of_symbolAt? hs
  · cases h

/-! ## The tokens of a file -/

/-- What has been read of a text: the tokens, the last one first, and the brackets that are open,
the innermost first. -/
structure Scanned where
  tokens : List Token := []
  groups : List Symbol := []

namespace Scanned

/-- The open brackets without the innermost one, if that is the given one. -/
def closeGroup (opening : Symbol) : List Symbol → List Symbol
  | [] => []
  | g :: groups => if g = opening then groups else g :: groups

/-- The open brackets after a token. A closing bracket closes the innermost one if that is of its
own kind, and is otherwise ignored. -/
def groupsAfter (groups : List Symbol) : TokenKind → List Symbol
  | .symbol .lparen => .lparen :: groups
  | .symbol .lbrace => .lbrace :: groups
  | .symbol .rparen => closeGroup .lparen groups
  | .symbol .rbrace => closeGroup .lbrace groups
  | _ => groups

/-- Whether a line break ends a statement here: the last token can end one, and the innermost open
bracket is not a parenthesis. -/
def endsStatement (s : Scanned) : Bool :=
  s.groups.head? != some .lparen && s.tokens.head?.any (·.kind.endsStatement)

/-- Marks the end of a statement at a line break, if one ends there. -/
def endLine (file : SourceFile) (s : Scanned) (offset : Nat) : Scanned :=
  if s.endsStatement then
    { s with tokens := ⟨.newline, file.span offset (min (offset + 1) file.size)⟩ :: s.tokens }
  else s

/-- Adds a lexeme that stands between two offsets. -/
def add (file : SourceFile) (s : Scanned) (start stop : Nat) : Lexeme → Scanned
  | .token kind => ⟨⟨kind, file.span start stop⟩ :: s.tokens, groupsAfter s.groups kind⟩
  | .lineBreak => s.endLine file start
  | .blank => s

/-- All tokens, with the end of the last statement and of the text. -/
def finish (file : SourceFile) (s : Scanned) : List Token :=
  (⟨.eof, file.span file.size file.size⟩ :: (s.endLine file file.size).tokens).reverse

/-- Scans what is left of a text. -/
def scanFrom (file : SourceFile) (s : Scanned) (p : Place) : Except ScanError (List Token) :=
  match _ : p.rest with
  | [] => .ok (s.finish file)
  | c :: rest =>
    match _ : lexeme p.offset c (p.behind c rest) with
    | .error e => .error e
    | .ok (l, q) => scanFrom file (s.add file p.offset q.offset l) q
termination_by p.rest.length
decreasing_by
  have hle := length_of_lexeme ‹lexeme _ _ _ = _›
  have hp : p.rest = _ := ‹_›
  simp only [Place.behind_rest] at hle
  simp only [hp, List.length_cons]
  omega

end Scanned

/-- The tokens of a file, the last of which is the end of the text. -/
def Token.scan (file : SourceFile) : Except ScanError (List Token) :=
  Scanned.scanFrom file {} (.ofText file.text)

end Formula
