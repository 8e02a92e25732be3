import Formula.Scalar

/-!
# Types

The static types of expressions. Besides the four scalar types there are function types, and the
types of what is no value: a missing result, a package, and a predeclared function.

## Main definitions

* `Builtin`: the predeclared functions.
* `Ty`: types; `Ty.text` is how messages show one.
* `Ty.accepts`: which values may be used where a type is wanted.
-/

namespace Formula

/-- A predeclared function. It takes arguments of several types and is no value itself. -/
inductive Builtin where
  /-- The conversion `int(x)` of a number. -/
  | int
  /-- The conversion `float64(x)` of a number. -/
  | float
  /-- The conversion `string(s)` of a text. -/
  | string
  /-- The number of bytes `len(s)` of a text. -/
  | len
deriving Repr, DecidableEq, Inhabited

namespace Builtin

/-- All predeclared functions. -/
def all : List Builtin := [int, float, string, len]

/-- The name of a predeclared function. -/
def name : Builtin → String
  | int => "int"
  | float => "float64"
  | string => "string"
  | len => "len"

theorem mem_all (b : Builtin) : b ∈ all := by
  cases b <;> decide

end Builtin

/-- The type of an expression. -/
inductive Ty where
  | int
  | float
  | bool
  | string
  /-- The result of a function without one. -/
  | void
  /-- The parameters, the type of any number of further arguments, and the result. -/
  | function (params : List Ty) (variadic : Option Ty) (result : Ty)
  /-- An imported package, by its path. -/
  | package (path : String)
  | builtin (function : Builtin)
  /-- What takes a value of any type. -/
  | any
deriving Repr, Inhabited

namespace Ty

mutual

/-- Whether two types are the same. -/
def same : Ty → Ty → Bool
  | int, int | float, float | bool, bool | string, string | void, void | any, any => true
  | function ps v r, function qs w s => sameAll ps qs && sameOption v w && same r s
  | package p, package q => p == q
  | builtin b, builtin c => b == c
  | _, _ => false

@[inherit_doc same]
def sameAll : List Ty → List Ty → Bool
  | [], [] => true
  | t :: ts, u :: us => same t u && sameAll ts us
  | _, _ => false

@[inherit_doc same]
def sameOption : Option Ty → Option Ty → Bool
  | none, none => true
  | some t, some u => same t u
  | _, _ => false

end

mutual

theorem same_iff (t u : Ty) : same t u = true ↔ t = u := by
  cases t <;> cases u <;> simp [same, sameAll_iff, sameOption_iff, same_iff, and_assoc]

theorem sameAll_iff (ts us : List Ty) : sameAll ts us = true ↔ ts = us := by
  cases ts <;> cases us <;> simp [sameAll, same_iff, sameAll_iff]

theorem sameOption_iff (v w : Option Ty) : sameOption v w = true ↔ v = w := by
  cases v <;> cases w <;> simp [sameOption, same_iff]

end

instance : DecidableEq Ty := fun t u =>
  if h : same t u = true then isTrue ((same_iff t u).1 h)
  else isFalse fun e => h ((same_iff t u).2 e)

/-- The type of a function that takes just so many arguments. -/
def plainFunction (params : List Ty) (result : Ty) : Ty :=
  .function params none result

/-- The static type of the scalars of a type. -/
def ofScalar : ScalarType → Ty
  | .int => int
  | .float => float
  | .string => string
  | .bool => bool

/-- Whether values of the type are numbers. -/
def isNumeric : Ty → Bool
  | int | float => true
  | _ => false

/-- Whether values of the type can be ordered. -/
def isOrdered : Ty → Bool
  | int | float | string => true
  | _ => false

/-- Whether values of the type can be compared for equality. -/
def isComparable : Ty → Bool
  | int | float | string | bool => true
  | _ => false

/-- Whether something of the type can be kept in a variable. -/
def isValue : Ty → Bool
  | void | package _ | builtin _ => false
  | _ => true

/-- Whether something of the type `found` may be used where `wanted` is wanted. -/
def accepts (wanted found : Ty) : Bool :=
  match wanted with
  | any => found.isValue
  | _ => wanted = found

mutual

/-- How messages show a type. -/
def text : Ty → String
  | int => "int"
  | float => "float64"
  | bool => "bool"
  | string => "string"
  | void => "no value"
  | function ps v r =>
    let rest := match v with
      | none => []
      | some t => ["..." ++ t.text]
    let result := match r with
      | void => ""
      | _ => " " ++ r.text
    "func(" ++ ", ".intercalate (texts ps ++ rest) ++ ")" ++ result
  | package path => "package " ++ path
  | builtin b => "builtin " ++ b.name
  | any => "any"

/-- How messages show several types. -/
def texts : List Ty → List String
  | [] => []
  | t :: ts => t.text :: texts ts

end

end Ty

end Formula
