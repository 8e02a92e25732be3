import Formula.Scalar
import Formula.Source.Position
import Formula.Text.Quoted

/-!
# Tokens

The words of the formula language: names, constants, keywords, symbols, and the two marks that
have no spelling of their own, the end of a line that ends a statement and the end of the text.

## Main definitions

* `Keyword`, `Symbol`: the fixed words; `ofWord?` and `text` relate them to their spelling.
* `TokenKind`, `Token`: a token, and a token with its span.
* `TokenKind.endsStatement`: whether a line break after the token ends a statement.

## Main results

* `Keyword.ofWord?_eq_some_iff`: a word is a keyword iff it is the spelling of one.
-/

namespace Formula

/-- The reserved words. -/
inductive Keyword where
  | importK
  | varK
  | funcK
  | returnK
  | ifK
  | elseK
  | forK
  | breakK
  | continueK
  | trueK
  | falseK
deriving Repr, DecidableEq, Inhabited

namespace Keyword

/-- The spelling of a keyword. -/
def text : Keyword → String
  | importK => "import"
  | varK => "var"
  | funcK => "func"
  | returnK => "return"
  | ifK => "if"
  | elseK => "else"
  | forK => "for"
  | breakK => "break"
  | continueK => "continue"
  | trueK => "true"
  | falseK => "false"

/-- The keyword that is spelled so. -/
def ofWord? : String → Option Keyword
  | "import" => some importK
  | "var" => some varK
  | "func" => some funcK
  | "return" => some returnK
  | "if" => some ifK
  | "else" => some elseK
  | "for" => some forK
  | "break" => some breakK
  | "continue" => some continueK
  | "true" => some trueK
  | "false" => some falseK
  | _ => none

@[simp]
theorem ofWord?_text (k : Keyword) : ofWord? k.text = some k := by
  cases k <;> rfl

theorem ofWord?_eq_some_iff {word : String} {k : Keyword} :
    ofWord? word = some k ↔ word = k.text := by
  constructor
  · intro h
    unfold ofWord? at h
    split at h <;> first | contradiction | (cases h; rfl)
  · rintro rfl
    exact ofWord?_text k

end Keyword

/-- The signs of the language. -/
inductive Symbol where
  | lparen
  | rparen
  | lbrace
  | rbrace
  | comma
  | dot
  | semicolon
  | define
  | equals
  | plus
  | minus
  | star
  | slash
  | percent
  | plusPlus
  | minusMinus
  | plusEquals
  | minusEquals
  | starEquals
  | slashEquals
  | percentEquals
  | pipePipe
  | ampAmp
  | bang
  | lt
  | le
  | gt
  | ge
  | eqEq
  | notEq
deriving Repr, DecidableEq, Inhabited

/-- The spelling of a symbol. -/
def Symbol.text : Symbol → String
  | lparen => "("
  | rparen => ")"
  | lbrace => "\x7b"
  | rbrace => "\x7d"
  | comma => ","
  | dot => "."
  | semicolon => ";"
  | define => ":="
  | equals => "="
  | plus => "+"
  | minus => "-"
  | star => "*"
  | slash => "/"
  | percent => "%"
  | plusPlus => "++"
  | minusMinus => "--"
  | plusEquals => "+="
  | minusEquals => "-="
  | starEquals => "*="
  | slashEquals => "/="
  | percentEquals => "%="
  | pipePipe => "||"
  | ampAmp => "&&"
  | bang => "!"
  | lt => "<"
  | le => "<="
  | gt => ">"
  | ge => ">="
  | eqEq => "=="
  | notEq => "!="

/-- What a token is. -/
inductive TokenKind where
  | identifier (name : String)
  | constant (value : Scalar)
  | keyword (keyword : Keyword)
  | symbol (symbol : Symbol)
  /-- The end of a line that ends a statement. -/
  | newline
  | eof
deriving Repr, BEq, Inhabited

namespace TokenKind

/-- Whether a line break right after the token ends a statement. -/
def endsStatement : TokenKind → Bool
  | identifier _ | constant _ => true
  | keyword .returnK | keyword .breakK | keyword .continueK => true
  | symbol .rparen | symbol .rbrace | symbol .plusPlus | symbol .minusMinus => true
  | _ => false

/-- How messages name a token. -/
def text : TokenKind → String
  | identifier name => "identifier `" ++ name ++ "`"
  | constant (.int value) => "`" ++ Scalar.intText value ++ "`"
  | constant (.float value) => "`" ++ Decimal.Layout.plain.write value ++ "`"
  | constant (.bool value) => "`" ++ Scalar.boolText value ++ "`"
  | constant (.string value) => Text.quoteShown value
  | keyword k => "keyword `" ++ k.text ++ "`"
  | symbol s => "`" ++ s.text ++ "`"
  | newline => "newline"
  | eof => "end of input"

end TokenKind

/-- A token and where it stands. -/
structure Token where
  kind : TokenKind
  span : Span
deriving Repr, BEq, Inhabited

end Formula
