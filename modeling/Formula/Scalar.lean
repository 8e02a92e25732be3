import Formula.Decimal.Layout
import Formula.Decimal.Reading
import Formula.Text.Blank

/-!
# Scalars

The values that go into a formula and come out of it: integers, floating-point numbers, texts and
truth values, and their four types.

## Main definitions

* `Scalar`, `ScalarType`, `Scalar.type`.
* `Scalar.text`: how a value is shown.
* `ScalarType.ofName?`, `ScalarType.read?`: reading a type from its name, a value from its text.

## Main results

* `ScalarType.ofName?_name`: the name of a type is read as that type.
-/

namespace Formula

/-- The type of a scalar. -/
inductive ScalarType where
  | int
  | float
  | string
  | bool
deriving Repr, DecidableEq, Inhabited

/-- A 64-bit integer, a floating-point number, a text or a truth value. -/
inductive Scalar where
  | int (value : Int64)
  | float (value : Float)
  | string (value : String)
  | bool (value : Bool)
deriving Repr, BEq, Inhabited

namespace ScalarType

/-- The canonical name of a type. -/
def name : ScalarType → String
  | int => "int"
  | float => "float64"
  | string => "string"
  | bool => "bool"

/-- The type with the given name, which may be one of several and stand between blanks. -/
def ofName? (text : String) : Option ScalarType :=
  match Text.trim text with
  | "int" | "int64" | "i64" => some int
  | "float64" | "float" | "f64" => some float
  | "string" | "str" => some string
  | "bool" => some bool
  | _ => none

/-- The value of a variable that was given none. -/
def zero : ScalarType → Scalar
  | int => .int 0
  | float => .float 0
  | string => .string ""
  | bool => .bool false

/-- Reads a value of the type. A text is taken as it is; other values may stand between blanks. -/
def read? (t : ScalarType) (text : String) : Option Scalar :=
  match t with
  | int => (Decimal.readInt? (Text.trimList text.toList)).map .int
  | float => (Decimal.readFloat? (Text.trimList text.toList)).map .float
  | string => some (.string text)
  | bool =>
    match Text.trim text with
    | "true" => some (.bool true)
    | "false" => some (.bool false)
    | _ => none

/-- What is said of a name that stands for no type. -/
def unknownMessage (name : String) : String :=
  "unknown variable type `" ++ Text.trim name ++ "`"

/-- What is said of a text that is no value of the type. -/
def unreadableMessage (t : ScalarType) (text : String) : String :=
  "cannot parse `" ++ text ++ "` as " ++ t.name

@[simp]
theorem ofName?_name (t : ScalarType) : ofName? t.name = some t := by
  cases t <;> decide +kernel

end ScalarType

namespace Scalar

/-- The type of a value. -/
def type : Scalar → ScalarType
  | int _ => .int
  | float _ => .float
  | string _ => .string
  | bool _ => .bool

/-- Numbers are shown positionally from `0.0001` up to six digits before the point, and otherwise
with an exponent of two digits or more. -/
def floatLayout : Decimal.Layout where
  tie := .upward
  lowest := some (-4)
  highest := some 5
  marksWhole := false
  signsExponent := true
  exponentWidth := 2
  special := ("NaN", "+Inf", "-Inf")

/-- How a floating-point number is shown. -/
def floatText (x : Float) : String :=
  floatLayout.write x

/-- How an integer is shown. -/
def intText (n : Int64) : String :=
  toString n.toInt

/-- How a truth value is shown. -/
def boolText (b : Bool) : String :=
  if b then "true" else "false"

/-- How a value is shown; a text stands for itself. -/
def text : Scalar → String
  | int n => intText n
  | float x => floatText x
  | string s => s
  | bool b => boolText b

@[simp]
theorem type_zero (t : ScalarType) : t.zero.type = t := by
  cases t <;> rfl

end Scalar

end Formula
