import Formula.Program.Grammar

/-!
# Terms and their tokens

A term is an expression without its spans and without functions in it. It is written with
parentheses where the operators around it would otherwise take it apart.

## Main definitions

* `Term`, `Expr.term?`: terms, and the term that an expression is up to spans
* `Term.kinds`: the tokens of a term
* `Term.levels`: how many levels of nesting its tokens open
-/

namespace Formula

/-- **An expression up to spans**, of constants, names, members of packages, calls and operators. -/
inductive Term where
  | literal (value : Scalar)
  | name (name : String)
  | member (target member : String)
  | call (callee : Term) (arguments : List Term)
  | unary (op : UnaryOp) (operand : Term)
  | binary (op : BinaryOp) (left right : Term)

mutual

/-- The term that an expression is, unless there is a function in it. -/
def Expr.term? : Expr → Option Term
  | .literal value _ => some (.literal value)
  | .identifier name _ => some (.name name)
  | .selector target member _ => some (.member target member)
  | .call callee arguments _ => do
    return .call (← callee.term?) (← Expr.terms? arguments)
  | .unary op operand _ => do
    return .unary op (← operand.term?)
  | .binary op left right _ => do
    return .binary op (← left.term?) (← right.term?)
  | .function .. => none

/-- The terms that several expressions are. -/
def Expr.terms? : List Expr → Option (List Term)
  | [] => some []
  | e :: es => do
    return (← e.term?) :: (← Expr.terms? es)

end

/-! ## Operators as tokens -/

/-- The sign of an operator. -/
def UnaryOp.symbol : UnaryOp → Symbol
  | neg => .minus
  | not => .bang

/-- The sign of an operator. -/
def BinaryOp.symbol : BinaryOp → Symbol
  | add => .plus
  | sub => .minus
  | mul => .star
  | div => .slash
  | mod => .percent
  | and => .ampAmp
  | or => .pipePipe
  | eq => .eqEq
  | notEq => .notEq
  | lt => .lt
  | lte => .le
  | gt => .gt
  | gte => .ge

@[simp]
theorem BinaryOp.binaryOp?_symbol (op : BinaryOp) :
    (TokenKind.symbol op.symbol).binaryOp? = some op := by
  cases op <;> rfl

namespace Term

/-! ## Writing -/

/-- How tightly a term is held together: a binary operator's precedence, more with an operator
before an operand, and most where no operator is outermost. -/
def tightness : Term → Nat
  | binary op _ _ => op.precedence
  | unary _ _ => 6
  | _ => 7

/-- Tokens, in parentheses if these are needed. -/
def grouped (needed : Bool) (kinds : List TokenKind) : List TokenKind :=
  if needed then .symbol .lparen :: (kinds ++ [.symbol .rparen]) else kinds

mutual

/-- **The tokens of a term.** A part stands in parentheses where it is held together less tightly
than its place asks for. -/
def kinds : Term → List TokenKind
  | literal value => [.constant value]
  | name n => [.identifier n]
  | member target m => [.identifier target, .symbol .dot, .identifier m]
  | call callee arguments =>
    grouped (callee.tightness < 7) callee.kinds ++
      .symbol .lparen :: (kindsOfAll arguments ++ [.symbol .rparen])
  | unary op operand => .symbol op.symbol :: grouped (operand.tightness < 6) operand.kinds
  | binary op left right =>
    grouped (left.tightness < op.precedence) left.kinds ++
      .symbol op.symbol :: grouped (right.tightness < op.precedence + 1) right.kinds

/-- The tokens of terms with commas between them. -/
def kindsOfAll : List Term → List TokenKind
  | [] => []
  | [t] => t.kinds
  | t :: u :: ts => t.kinds ++ .symbol .comma :: kindsOfAll (u :: ts)

end

/-! ## Levels of nesting -/

/-- The levels that tokens open, one more with parentheses around them. -/
def raised (needed : Bool) (levels : Nat) : Nat :=
  if needed then levels + 1 else levels

/-- The length of a row that goes on, unless a parenthesis has ended it. -/
def resumed (needed : Bool) (length : Nat) : Nat :=
  if needed then 0 else length

/-- How many argument lists are read one after the other at the end of a term. -/
def calls : Term → Nat
  | call callee _ => resumed (callee.tightness < 7) callee.calls + 1
  | _ => 0

/-- How many operators are read one after the other before a term is complete. -/
def chain : Term → Nat
  | binary op left _ => resumed (left.tightness < op.precedence) left.chain + 1
  | _ => 0

mutual

/-- **How many levels of nesting the tokens of a term open.** Parentheses, operators and argument
lists open one each. Those of the operators in a row, or of the argument lists in a row, stay open
until the row is complete. -/
def levels : Term → Nat
  | call callee arguments =>
    max (raised (callee.tightness < 7) callee.levels)
      (resumed (callee.tightness < 7) callee.calls + 1 + levelsOfAll arguments)
  | unary _ operand => raised (operand.tightness < 6) operand.levels + 1
  | binary op left right =>
    max (raised (left.tightness < op.precedence) left.levels)
      (resumed (left.tightness < op.precedence) left.chain + 1 +
        raised (right.tightness < op.precedence + 1) right.levels)
  | _ => 0

/-- How many levels of nesting the tokens of arguments open. -/
def levelsOfAll : List Term → Nat
  | [] => 0
  | t :: ts => max (t.levels + 1) (levelsOfAll ts)

end

end Term

end Formula
