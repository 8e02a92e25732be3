import Formula.Fault

/-!
# Operations on values

Integers wrap around at 64 bits and are divided toward zero. Values of one type alone are combined
and compared; not-a-number differs from every number, itself included.

## Main definitions

* `operate`: an operator between two values.
* `operateUnary`: an operator before one value.
* `Builtin.call`: a predeclared function.
-/

namespace Formula

/-- The order of two floating-point numbers; not-a-number has none. -/
def floatOrder? (x y : Float) : Option Ordering :=
  if x < y then some .lt
  else if x == y then some .eq
  else if y < x then some .gt
  else none

/-- The order of two texts, by their characters from the first on. -/
def textOrder (s t : String) : Ordering :=
  if s < t then .lt else if s = t then .eq else .gt

/-- The order of two values, none if one of them is not-a-number; no answer if they cannot be
compared. Truth values are only equal or not. -/
def valueOrder? (op : BinaryOp) : Value → Value → Option (Option Ordering)
  | .int m, .int n => some (some (compare m.toInt n.toInt))
  | .float x, .float y => some (floatOrder? x y)
  | .string s, .string t => some (some (textOrder s t))
  | .bool a, .bool b =>
    match op with
    | .eq | .notEq => some (some (if a = b then .eq else .lt))
    | _ => none
  | _, _ => none

/-- Whether a comparison holds between values in the given order. -/
def BinaryOp.holdsFor (op : BinaryOp) (order : Option Ordering) : Bool :=
  match op with
  | .eq => order = some .eq
  | .notEq => order ≠ some .eq
  | .lt => order = some .lt
  | .lte => order = some .lt || order = some .eq
  | .gt => order = some .gt
  | .gte => order = some .gt || order = some .eq
  | _ => false

/-- A comparison of two values. -/
def compareValues (op : BinaryOp) (left right : Value) : Except Fault Value :=
  match valueOrder? op left right with
  | some order => .ok (.bool (op.holdsFor order))
  | none => .error (.comparison left.kind op right.kind)

/-- An operator between two values. -/
def operate (op : BinaryOp) (left right : Value) : Except Fault Value :=
  if op.isComparison then compareValues op left right
  else match op, left, right with
    | .add, .int m, .int n => .ok (.int (m + n))
    | .sub, .int m, .int n => .ok (.int (m - n))
    | .mul, .int m, .int n => .ok (.int (m * n))
    | .div, .int m, .int n => if n = 0 then .error .divideByZero else .ok (.int (m / n))
    | .mod, .int m, .int n => if n = 0 then .error .divideByZero else .ok (.int (m % n))
    | .add, .float x, .float y => .ok (.float (x + y))
    | .sub, .float x, .float y => .ok (.float (x - y))
    | .mul, .float x, .float y => .ok (.float (x * y))
    | .div, .float x, .float y => .ok (.float (x / y))
    | .add, .string s, .string t => .ok (.string (s ++ t))
    | .and, .bool a, .bool b => .ok (.bool (a && b))
    | .or, .bool a, .bool b => .ok (.bool (a || b))
    | op, left, right => .error (.operands left.kind op right.kind)

/-- An operator before one value. -/
def operateUnary (op : UnaryOp) (operand : Value) : Except Fault Value :=
  match op, operand with
  | .neg, .int n => .ok (.int (-n))
  | .neg, .float x => .ok (.float (-x))
  | .not, .bool b => .ok (.bool !b)
  | _, operand => .error (.operand operand.kind)

/-- The floating-point number one, which the integer one becomes where such a number is wanted. -/
def floatOne : Float :=
  (1 : Int64).toFloat

/-- A number one up or down. -/
def stepNumber (up : Bool) : Value → Except Fault Value
  | .int n => .ok (.int (if up then n + 1 else n - 1))
  | .float x => .ok (.float (if up then x + floatOne else x - floatOne))
  | other => .error (.increment other.kind)

/-- The result of a predeclared function. A floating-point number becomes the integer toward zero
from it, or the nearest one that there is; not-a-number becomes zero. -/
def Builtin.call (b : Builtin) (args : List Value) : Except Fault Value :=
  match args with
  | [v] =>
    match b, v with
    | .int, .int n => .ok (.int n)
    | .int, .float x => .ok (.int x.toInt64)
    | .float, .int n => .ok (.float n.toFloat)
    | .float, .float x => .ok (.float x)
    | .string, .string s => .ok (.string s)
    | .len, .string s => .ok (.int (Int64.ofNat s.utf8ByteSize))
    | b, v => .error (.conversion b v.kind)
  | _ => .error (.builtinArgumentCount b)

end Formula
