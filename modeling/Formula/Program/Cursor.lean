import Formula.Diagnostic
import Formula.Token

/-!
# Reading tokens

A cursor stands on one of the tokens of a text, and a `Parse` moves it forward or fails.

## Main definitions

* `Cursor`: the token it stands on, those after it, and the span of the one before it.
* `ParseError`: why a text is not a program, and at which token.
* `Parse`, `Parse.collect`: readers of tokens, and the loop that repeats a reader.

## Main results

* `Cursor.left_advance`: moving forward leaves one token fewer.
-/

namespace Formula

/-- What can be missing at a place. -/
inductive Wanted where
  | declaration
  | declarationEnd
  | importPath
  | variableName
  | functionName
  | parameterName
  | typeName
  | memberName
  | parameterListOpen
  | parameterListClose
  | functionTypeOpen
  | functionTypeClose
  | blockOpen
  | blockClose
  | statementEnd
  | loopConditionEnd
  | loopCondition
  | argumentsClose
  | parenthesisClose
deriving Repr, DecidableEq

/-- How messages name what is missing. -/
def Wanted.text : Wanted → String
  | declaration => "`import`, `var` or `func` declaration"
  | declarationEnd => "newline after declaration"
  | importPath => "import path string"
  | variableName => "variable name"
  | functionName => "function name"
  | parameterName => "parameter name"
  | typeName => "type name"
  | memberName => "package member name"
  | parameterListOpen => "'(' to open parameter list"
  | parameterListClose => "')' to close parameter list"
  | functionTypeOpen => "'(' in function type"
  | functionTypeClose => "')' in function type"
  | blockOpen => "'\x7b' to open block"
  | blockClose => "'\x7d' to close block"
  | statementEnd => "newline or ';' after statement"
  | loopConditionEnd => "';' after for loop condition"
  | loopCondition => "for loop condition"
  | argumentsClose => "')' after arguments"
  | parenthesisClose => "')' to close parenthesized expression"

/-- What is wrong at a token. -/
inductive ParseCause where
  | wanted (what : Wanted)
  | notAnExpression
  | selectorTarget
  | nestingTooDeep
deriving Repr, DecidableEq

/-- Why a text is not a program. -/
inductive ParseError where
  | noTokens
  | at (cause : ParseCause) (token : Token)
  | untypedParameter (name : String) (span : Span)
deriving Repr

namespace ParseError

/-- The wording of an error. -/
def message : ParseError → String
  | noTokens => "no tokens to parse"
  | .at (.wanted what) _ => "expected " ++ what.text
  | .at .notAnExpression token => "unexpected " ++ token.kind.text ++ " in expression"
  | .at .selectorTarget _ => "selector requires a package name"
  | .at .nestingTooDeep _ => "expression nesting too deep"
  | untypedParameter name _ => "missing type for parameter `" ++ name ++ "`"

/-- The diagnostic of an error: it names the token that was found. -/
def diagnostic (e : ParseError) : Diagnostic :=
  match e with
  | noTokens => { message := e.message }
  | .at _ token =>
    { message := e.message, code := some "E0100"
      primary := some ⟨token.span, some ("found " ++ token.kind.text)⟩ }
  | untypedParameter _ span =>
    { message := e.message, code := some "E0100", primary := some ⟨span, none⟩ }

end ParseError

/-- A token of a text, the span of the one before it, and the tokens after it. -/
structure Cursor where
  before : Span
  current : Token
  rest : List Token
deriving Repr, Inhabited

namespace Cursor

/-- The first token of a text. -/
def ofTokens? : List Token → Option Cursor
  | [] => none
  | t :: ts => some ⟨.nowhere, t, ts⟩

/-- How many tokens come after the current one. -/
def left (c : Cursor) : Nat :=
  c.rest.length

/-- The cursor on the next token; the last token is never left. -/
def advance (c : Cursor) : Cursor :=
  match c.rest with
  | [] => c
  | t :: ts => ⟨c.current.span, t, ts⟩

/-- The kind of the current token. -/
def kind (c : Cursor) : TokenKind :=
  c.current.kind

/-- Whether the current token is the given symbol. -/
def isSymbol (c : Cursor) (s : Symbol) : Bool :=
  match c.kind with
  | .symbol t => t = s
  | _ => false

/-- Whether the current token is the given keyword. -/
def isKeyword (c : Cursor) (k : Keyword) : Bool :=
  match c.kind with
  | .keyword l => l = k
  | _ => false

/-- Whether the current token is the end of the text. -/
def isEof (c : Cursor) : Bool :=
  match c.kind with
  | .eof => true
  | _ => false

/-- Whether the current token separates statements. -/
def isSeparator (c : Cursor) : Bool :=
  match c.kind with
  | .newline | .symbol .semicolon => true
  | _ => false

/-- Whether a statement can end before the current token. -/
def isTerminator (c : Cursor) : Bool :=
  c.isSeparator || c.isEof

/-- Whether the current token can start a type. -/
def startsType (c : Cursor) : Bool :=
  match c.kind with
  | .identifier _ | .keyword .funcK => true
  | _ => false

/-- Whether the first token from the current one on that is not a line end is `else`. -/
def elseFollows (c : Cursor) : Bool :=
  match (c.current :: c.rest).dropWhile fun t => t.kind == .newline with
  | [] => false
  | t :: _ =>
    match t.kind with
    | .keyword .elseK => true
    | _ => false

theorem left_advance_le (c : Cursor) : c.advance.left ≤ c.left := by
  unfold advance left
  split <;> simp_all

theorem left_advance {c : Cursor} (h : c.rest ≠ []) : c.advance.left + 1 = c.left := by
  unfold advance left
  split <;> simp_all

end Cursor

/-- A reader of tokens. -/
abbrev Parse := StateT Cursor (Except ParseError)

namespace Parse

variable {α : Type}

/-- Fails at the current token. -/
def fail (cause : ParseCause) : Parse α := fun c =>
  .error (.at cause c.current)

/-- The current token, behind which the reader goes on. -/
def next : Parse Token := fun c =>
  .ok (c.current, c.advance)

/-- Whether a condition holds at the cursor. -/
def peek (p : Cursor → Bool) : Parse Bool := fun c =>
  .ok (p c, c)

/-- The span of the current token. -/
def here : Parse Span := fun c =>
  .ok (c.current.span, c)

/-- The span of the token that was read last. -/
def before : Parse Span := fun c =>
  .ok (c.before, c)

/-- Reads a symbol if it is the current token, and says whether it was. -/
def eat (s : Symbol) : Parse Bool := fun c =>
  if c.isSymbol s then .ok (true, c.advance) else .ok (false, c)

/-- Reads a symbol. -/
def symbol (s : Symbol) (what : Wanted) : Parse Token := fun c =>
  if c.isSymbol s then next c else fail (.wanted what) c

/-- Reads a name. -/
def identifier (what : Wanted) : Parse String := fun c =>
  match c.kind with
  | .identifier name => .ok (name, c.advance)
  | _ => fail (.wanted what) c

/-- Reads a text constant. -/
def text (what : Wanted) : Parse String := fun c =>
  match c.kind with
  | .constant (.string value) => .ok (value, c.advance)
  | _ => fail (.wanted what) c

/-- Reads what separates two statements; at the end of the text nothing is needed. -/
def terminator (what : Wanted) : Parse Unit := fun c =>
  if c.isEof then .ok ((), c)
  else if c.isTerminator then .ok ((), c.advance)
  else fail (.wanted what) c

/-- Skips separators; the current token is the first one of `tokens`, which come after `before`. -/
def skipFrom (before : Span) (current : Token) : List Token → Cursor
  | [] => ⟨before, current, []⟩
  | t :: ts =>
    if Cursor.isSeparator ⟨before, current, t :: ts⟩ then skipFrom current.span t ts
    else ⟨before, current, t :: ts⟩

/-- Skips separators. -/
def skipSeparators : Parse Unit := fun c =>
  .ok ((), skipFrom c.before c.current c.rest)

/-- Repeats a reader until it gives nothing or says that nothing follows. A round that leaves as
many tokens as there were is the last one. -/
def collect (step : Parse (Option (α × Bool))) (c : Cursor) : Except ParseError (List α × Cursor) :=
  match step c with
  | .error e => .error e
  | .ok (none, c₁) => .ok ([], c₁)
  | .ok (some (a, more), c₁) =>
    if _ : more = true ∧ c₁.left < c.left then
      match collect step c₁ with
      | .error e => .error e
      | .ok (as, c₂) => .ok (a :: as, c₂)
    else .ok ([a], c₁)
termination_by c.left
decreasing_by exact (‹_ ∧ _› : _).2

/-- Reads what is separated by commas up to a closing parenthesis, which is left. -/
def commaSeparated (item : Parse α) : Parse (List α) :=
  collect do
    if ← peek (·.isSymbol .rparen) then return none
    let a ← item
    return some (a, ← eat .comma)

end Parse

end Formula
