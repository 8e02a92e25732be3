import Formula.Value

/-!
# What can go wrong while a program runs

## Main definitions

* `Fault`: an operation that is not defined on its operands.
* `RunError`: a fault, or a budget that is used up.
* `durationText`: how messages show a time span.
-/

namespace Formula

/-- An operation that is not defined on its operands. -/
inductive Fault where
  | undefinedName (name : String)
  | undefinedMember (target member : String)
  | noMembers (target member : String) (kind : Kind)
  | unknownType (name : String)
  | divideByZero
  | operands (left : Kind) (op : BinaryOp) (right : Kind)
  | comparison (left : Kind) (op : BinaryOp) (right : Kind)
  | operand (kind : Kind)
  | increment (kind : Kind)
  | condition (kind : Kind)
  | callNil
  | callee (kind : Kind)
  | argumentCount (name : String) (wanted found : Nat)
  | builtinArgumentCount (function : Builtin)
  | conversion (function : Builtin) (kind : Kind)
  | nativeArguments (function : Native)
  | negativeRepeat
  | longText (function : Native)
  | emptyRange (function : Native)
deriving Repr, DecidableEq

/-- The wording of a fault. -/
def Fault.message : Fault → String
  | undefinedName name => "undefined: " ++ name
  | undefinedMember target member => "undefined: " ++ target ++ "." ++ member
  | noMembers target member kind =>
    target ++ "." ++ member ++ " undefined on value of type " ++ kind.name
  | unknownType name => "undefined type: " ++ name
  | divideByZero => "integer divide by zero"
  | operands left op right =>
    "invalid operation: " ++ left.name ++ " " ++ op.text ++ " " ++ right.name
  | comparison left op right =>
    "invalid comparison: " ++ left.name ++ " " ++ op.text ++ " " ++ right.name
  | operand kind => "invalid operand of type " ++ kind.name
  | increment kind => "cannot increment value of type " ++ kind.name
  | condition kind => "non-boolean condition of type " ++ kind.name
  | callNil => "invalid memory address or nil pointer dereference"
  | callee kind => "cannot call value of type " ++ kind.name
  | argumentCount name wanted found =>
    name ++ " expects " ++ toString wanted ++ " arguments, got " ++ toString found
  | builtinArgumentCount b => b.name ++ " expects exactly 1 argument"
  | conversion b kind => "cannot apply " ++ b.name ++ " to value of type " ++ kind.name
  | nativeArguments n => "bad arguments in call to " ++ n.name
  | negativeRepeat => "strings: negative Repeat count"
  | longText n => "strings: " ++ n.name ++ " output length overflow"
  | emptyRange n => "invalid argument to " ++ n.name

/-- How messages show a number of milliseconds: in seconds with as many places as are needed, and
in milliseconds below one second. -/
def durationText (milliseconds : Nat) : String :=
  if milliseconds = 0 then "0ns"
  else if milliseconds < 1000 then toString milliseconds ++ "ms"
  else
    let places := Nat.toDigits 10 (1000 + milliseconds % 1000) |>.drop 1
    let needed := (places.reverse.dropWhile (· == '0')).reverse
    toString (milliseconds / 1000) ++
      (if needed.isEmpty then "" else String.ofList ('.' :: needed)) ++ "s"

/-- Why a run gives no result. -/
inductive RunError where
  | fault (fault : Fault)
  /-- The run took longer than so many milliseconds. -/
  | timeout (milliseconds : Nat)
  | stepLimit (limit : Nat)
  | callDepth (limit : Nat)
  | noEntryPoint (name : String)
deriving Repr, DecidableEq

/-- The wording of an error. -/
def RunError.message : RunError → String
  | fault f => "runtime error: " ++ f.message
  | timeout milliseconds => "evaluation timed out after " ++ durationText milliseconds
  | stepLimit limit => "evaluation exceeded the step limit of " ++ toString limit
  | callDepth limit => "stack overflow: call depth exceeded " ++ toString limit
  | noEntryPoint name => "entry point `" ++ name ++ "` not found"

end Formula
