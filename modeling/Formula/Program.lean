import Formula.Scalar
import Formula.Source.Position

/-!
# Programs

The tree of a formula program: imports, package-level variables and functions, and within them
blocks, statements, expressions and written types. Every node knows its span.

## Main definitions

* `TypeExpr`, `Expr`, `Stmt`, `Block`.
* `Program`, `Item`, `VarDecl`, `FunctionDecl`, `ImportDecl`.
* `ImportDecl.binding`: the name by which an imported package is known.
-/

namespace Formula

/-- The operators between two operands. -/
inductive BinaryOp where
  | add
  | sub
  | mul
  | div
  | mod
  | and
  | or
  | eq
  | notEq
  | lt
  | lte
  | gt
  | gte
deriving Repr, DecidableEq, Inhabited

namespace BinaryOp

/-- The spelling of an operator. -/
def text : BinaryOp → String
  | add => "+"
  | sub => "-"
  | mul => "*"
  | div => "/"
  | mod => "%"
  | and => "&&"
  | or => "||"
  | eq => "=="
  | notEq => "!="
  | lt => "<"
  | lte => "<="
  | gt => ">"
  | gte => ">="

/-- Whether the operator computes with numbers. -/
def isArithmetic : BinaryOp → Bool
  | add | sub | mul | div | mod => true
  | _ => false

/-- Whether the operator compares its operands. -/
def isComparison : BinaryOp → Bool
  | eq | notEq | lt | lte | gt | gte => true
  | _ => false

/-- How tightly the operator binds, from one to five. -/
def precedence : BinaryOp → Nat
  | or => 1
  | and => 2
  | eq | notEq | lt | lte | gt | gte => 3
  | add | sub => 4
  | mul | div | mod => 5

theorem precedence_pos (op : BinaryOp) : 0 < op.precedence := by
  cases op <;> decide

theorem precedence_le (op : BinaryOp) : op.precedence ≤ 5 := by
  cases op <;> decide

end BinaryOp

/-- The operators before one operand. -/
inductive UnaryOp where
  | neg
  | not
deriving Repr, DecidableEq, Inhabited

/-- A type as it is written. -/
inductive TypeExpr where
  | named (name : String) (span : Span)
  | function (params : List TypeExpr) (result : Option TypeExpr) (span : Span)
deriving Repr, BEq, Inhabited

/-- Where a written type stands. -/
def TypeExpr.span : TypeExpr → Span
  | named _ span => span
  | function _ _ span => span

/-- A parameter of a function. -/
structure Parameter where
  name : String
  type : TypeExpr
  span : Span
deriving Repr, BEq, Inhabited

mutual

/-- An expression. -/
inductive Expr where
  | literal (value : Scalar) (span : Span)
  | identifier (name : String) (span : Span)
  | binary (op : BinaryOp) (left right : Expr) (span : Span)
  | unary (op : UnaryOp) (operand : Expr) (span : Span)
  | call (function : Expr) (arguments : List Expr) (span : Span)
  /-- A member of a package: `target.member`. -/
  | selector (target member : String) (span : Span)
  | function (params : List Parameter) (result : Option TypeExpr) (body : Block) (span : Span)

/-- A statement. -/
inductive Stmt where
  /-- A new variable: `name := value`. -/
  | define (name : String) (value : Expr) (span : Span)
  /-- A new variable with a type, a value or both: `var name type = value`. -/
  | var (name : String) (type : Option TypeExpr) (value : Option Expr) (span : Span)
  /-- A new value for a variable, perhaps computed from the old one: `target op= value`. -/
  | assign (target : String) (op : Option BinaryOp) (value : Expr) (span : Span)
  /-- A number one up or down: `target++` or `target--`. -/
  | increment (target : String) (up : Bool) (span : Span)
  | expr (value : Expr)
  | ret (value : Option Expr) (span : Span)
  | breakLoop (span : Span)
  | continueLoop (span : Span)
  /-- A choice; an `else if` is an `else` block that holds one choice. -/
  | cond (condition : Expr) (thenBlock : Block) (elseBlock : Option Block) (span : Span)
  | loop (init : Option Stmt) (condition : Option Expr) (post : Option Stmt) (body : Block)
      (span : Span)
  | block (body : Block)

/-- A row of statements with a scope of its own. -/
inductive Block where
  | mk (statements : List Stmt) (span : Span)

end

instance : Inhabited Expr := ⟨.literal default default⟩

instance : Inhabited Block := ⟨.mk [] default⟩

instance : Inhabited Stmt := ⟨.block default⟩

/-- Where an expression stands. -/
def Expr.span : Expr → Span
  | literal _ span => span
  | identifier _ span => span
  | binary _ _ _ span => span
  | unary _ _ span => span
  | call _ _ span => span
  | selector _ _ span => span
  | function _ _ _ span => span

/-- Whether an expression is a call. -/
def Expr.isCall : Expr → Bool
  | call .. => true
  | _ => false

/-- How messages name the function of a call. -/
def Expr.calleeName : Expr → String
  | identifier name _ => name
  | selector target member _ => target ++ "." ++ member
  | _ => "function value"

namespace Block

/-- The statements of a block. -/
def statements : Block → List Stmt
  | mk statements _ => statements

/-- Where a block stands. -/
def span : Block → Span
  | mk _ span => span

@[simp]
theorem statements_mk (statements : List Stmt) (span : Span) :
    (mk statements span).statements = statements := rfl

@[simp]
theorem span_mk (statements : List Stmt) (span : Span) : (mk statements span).span = span := rfl

end Block

/-- An imported package. -/
structure ImportDecl where
  path : String
  span : Span
deriving Repr, DecidableEq, Inhabited

/-- What follows the last `/` in a path. -/
def lastSegment (path : List Char) : List Char :=
  (path.reverse.takeWhile (· != '/')).reverse

/-- The name by which an imported package is known: the last segment of its path. -/
def ImportDecl.binding (i : ImportDecl) : String :=
  String.ofList (lastSegment i.path.toList)

/-- A package-level variable. -/
structure VarDecl where
  name : String
  type : Option TypeExpr
  value : Option Expr
  span : Span
deriving Inhabited

/-- A package-level function. -/
structure FunctionDecl where
  name : String
  params : List Parameter
  result : Option TypeExpr
  body : Block
  span : Span
deriving Inhabited

/-- A package-level declaration. -/
inductive Item where
  | var (decl : VarDecl)
  | function (decl : FunctionDecl)
deriving Inhabited

namespace Item

/-- The declared name. -/
def name : Item → String
  | var d => d.name
  | function d => d.name

/-- Where a declaration stands. -/
def span : Item → Span
  | var d => d.span
  | function d => d.span

/-- The variable that is declared, if it is one. -/
def var? : Item → Option VarDecl
  | var d => some d
  | function _ => none

/-- The function that is declared, if it is one. -/
def function? : Item → Option FunctionDecl
  | var _ => none
  | function d => some d

end Item

/-- A program: imports and declarations, in the order in which they are written. -/
structure Program where
  imports : List ImportDecl
  items : List Item
deriving Inhabited

namespace Program

/-- The package-level variables in order. -/
def vars (p : Program) : List VarDecl :=
  p.items.filterMap Item.var?

/-- The package-level functions in order. -/
def functions (p : Program) : List FunctionDecl :=
  p.items.filterMap Item.function?

end Program

end Formula
