import Formula.Package
import Formula.Program
import Formula.Scoped
import Formula.Text.Quoted

/-!
# Values

What an expression stands for when a program runs. Variables live in cells that are numbered; a
function made by a function literal keeps the cells that were in scope where it was made.

## Main definitions

* `Value`: a scalar, a function of some sort, a package, or the absence of a value.
* `Closure`: a function with the scope it was made in.
* `Kind`, `Value.kind`: what messages call a value.
* `Value.text`, `Value.description`: how a value is shown, alone and with its kind.
-/

namespace Formula

/-- The number of a cell. -/
abbrev Address := Nat

/-- The scopes that are open at a place of a running program. -/
abbrev Env := Scoped Address

/-- A function of the program: its parameters, its body, and what was in scope where it was
made. -/
structure Closure where
  name : String
  params : List Parameter
  body : Block
  env : Env
deriving Inhabited

/-- What an expression stands for. -/
inductive Value where
  | scalar (value : Scalar)
  /-- The result of a function without one, and what a variable of a function type holds before it
  is given a function. -/
  | nil
  | closure (function : Closure)
  | native (function : Native)
  | builtin (function : Builtin)
  | package (path : String)
deriving Inhabited

/-- What messages call a value. -/
inductive Kind where
  | int
  | float
  | bool
  | string
  | nil
  | function
  | package
deriving Repr, DecidableEq, Inhabited

/-- The name of a kind. -/
def Kind.name : Kind → String
  | int => "int"
  | float => "float64"
  | bool => "bool"
  | string => "string"
  | nil => "nil"
  | function => "func"
  | package => "package"

/-- The kind of the scalars of a type. -/
def Kind.ofScalar : ScalarType → Kind
  | .int => int
  | .float => float
  | .string => string
  | .bool => bool

namespace Value

/-- An integer. -/
@[match_pattern]
abbrev int (n : Int64) : Value := .scalar (.int n)

/-- A floating-point number. -/
@[match_pattern]
abbrev float (x : Float) : Value := .scalar (.float x)

/-- A truth value. -/
@[match_pattern]
abbrev bool (b : Bool) : Value := .scalar (.bool b)

/-- A text. -/
@[match_pattern]
abbrev string (s : String) : Value := .scalar (.string s)

/-- What messages call a value. -/
def kind : Value → Kind
  | scalar s => .ofScalar s.type
  | nil => .nil
  | closure _ | native _ | builtin _ => .function
  | package _ => .package

/-- The scalar that a value is. -/
def scalar? : Value → Option Scalar
  | scalar s => some s
  | _ => none

/-- Whether a value is a text. -/
def isString : Value → Bool
  | string _ => true
  | _ => false

/-- How a value is shown. -/
def text : Value → String
  | scalar s => s.text
  | nil => "<nil>"
  | closure c => "func " ++ c.name
  | native n => "func " ++ n.name
  | builtin b => "func " ++ b.name
  | package path => "package " ++ path

/-- How a value is shown together with its kind. -/
def description : Value → String
  | int n => "Int(" ++ Scalar.intText n ++ ")"
  | float x => "Float(" ++ Decimal.Layout.plain.write x ++ ")"
  | bool b => "Bool(" ++ Scalar.boolText b ++ ")"
  | string s => "String(" ++ Text.quoteShown s ++ ")"
  | nil => "Void"
  | closure c => "Function(" ++ c.name ++ ")"
  | native n => "Native(" ++ n.name ++ ")"
  | builtin b => "Builtin(" ++ b.name ++ ")"
  | package path => "Package(" ++ path ++ ")"

/-- Whether two values are equal. Two functions of the program are never taken for equal. -/
def equals : Value → Value → Bool
  | scalar s, scalar t => s == t
  | nil, nil => true
  | native m, native n => m == n
  | builtin b, builtin c => b == c
  | package p, package q => p == q
  | _, _ => false

/-- What a variable of the given type holds before it is given a value. -/
def zero : Ty → Value
  | .int => int 0
  | .float => float 0
  | .bool => bool false
  | .string => string ""
  | _ => nil

end Value

end Formula
