import Formula.Diagnostic
import Formula.Program
import Formula.Token
import Formula.Ty.Resolve

/-!
# Type errors

## Main definitions

* `TypeCause`: what is wrong with a program.
* `TypeError`: a cause and the place it is reported at.
* `TypeError.diagnostic`: how an error is reported.
-/

namespace Formula

/-- Where a condition stands. -/
inductive ConditionPlace where
  | choice
  | loop
deriving Repr, DecidableEq

/-- How messages name the place of a condition. -/
def ConditionPlace.text : ConditionPlace → String
  | choice => "if statement"
  | loop => "for statement"

/-- Where a value is used. -/
inductive ValuePlace where
  | declaration
  | assignment
  | result
  | argument
deriving Repr, DecidableEq

/-- How messages name the place of a value. -/
def ValuePlace.text : ValuePlace → String
  | declaration => "variable declaration"
  | assignment => "assignment"
  | result => "return statement"
  | argument => "argument"

/-- What is wrong with a program. -/
inductive TypeCause where
  | unknownPackage (path : String)
  | unknownType (name : String)
  | undefined (name : String)
  | undefinedMember (target member : String)
  | noMembers (target member : String) (type : Ty)
  | redeclared (name : String)
  | duplicateArgument (name : String)
  | nothingNew
  | postDeclaration
  | noTypeNoValue
  | notAssignable (name : String)
  | noEntryPoint (name : String)
  | entryArguments (name : String)
  | missingReturn
  | manyResults
  | noResult
  | differentResults (name : String) (first other : Ty)
  | outsideLoop (keyword : Keyword)
  | unusedValue
  | notBoolean (place : ConditionPlace) (type : Ty)
  | notAccepted (found wanted : Ty) (place : ValuePlace)
  | voidValue
  | packageValue (name : String)
  | builtinValue (function : Builtin)
  | unaryOperand (op : UnaryOp) (type : Ty)
  | differentOperands (left right : Ty) (op : BinaryOp)
  | operands (op : BinaryOp) (type : Ty)
  | increment (target : String) (up : Bool) (type : Ty)
  | notFunction (type : Ty)
  | fewArguments (callee : String) (wanted found : Nat)
  | manyArguments (callee : String) (wanted found : Nat)
  | builtinArguments (function : Builtin) (found : Nat)
  | lengthOf (type : Ty)
  | conversion (type wanted : Ty)
deriving Repr, DecidableEq

namespace TypeCause

/-- The wording of a wrong number of arguments. -/
def countText (callee : String) (wanted found : Nat) : String :=
  " arguments in call to " ++ callee ++ " (expected " ++ toString wanted ++ ", found " ++
    toString found ++ ")"

/-- The wording of a cause. -/
def message : TypeCause → String
  | unknownPackage path => "package " ++ path ++ " is not in std"
  | unknownType name => "undefined type: " ++ name
  | undefined name => "undefined: " ++ name
  | undefinedMember target member => "undefined: " ++ target ++ "." ++ member
  | noMembers target member type =>
    target ++ "." ++ member ++ " undefined (type " ++ type.text ++ " has no field or method " ++
      member ++ ")"
  | redeclared name => name ++ " redeclared in this block"
  | duplicateArgument name => "duplicate argument " ++ name
  | nothingNew => "no new variables on left side of :="
  | postDeclaration => "cannot declare in post statement of for loop"
  | noTypeNoValue => "missing type or initializer"
  | notAssignable name => "cannot assign to " ++ name
  | noEntryPoint name => "function " ++ name ++ " is undeclared"
  | entryArguments name => "func " ++ name ++ " must have no arguments"
  | missingReturn => "missing return"
  | manyResults => "too many return values"
  | noResult => "not enough return values"
  | differentResults name first other =>
    "inconsistent result types in " ++ name ++ ": " ++ first.text ++ " and " ++ other.text
  | outsideLoop k => k.text ++ " is not in a loop"
  | unusedValue => "expression result is not used"
  | notBoolean place type =>
    "non-boolean condition in " ++ place.text ++ " (type " ++ type.text ++ ")"
  | notAccepted found wanted place =>
    "cannot use value of type " ++ found.text ++ " as " ++ wanted.text ++ " value in " ++ place.text
  | voidValue => "function call (no value) used as value"
  | packageValue name => "use of package " ++ name ++ " without selector"
  | builtinValue b => b.name ++ " (built-in function) must be called"
  | unaryOperand .neg type =>
    "invalid operation: operator - not defined on value of type " ++ type.text
  | unaryOperand .not type =>
    "invalid operation: operator ! not defined on value of type " ++ type.text
  | differentOperands left right op =>
    "invalid operation: mismatched types " ++ left.text ++ " and " ++ right.text ++
      " for operator " ++ op.text
  | operands op type =>
    "invalid operation: operator " ++ op.text ++ " not defined on values of type " ++ type.text
  | increment target up type =>
    "invalid operation: " ++ target ++ (if up then "++" else "--") ++ " (non-numeric type " ++
      type.text ++ ")"
  | notFunction type => "invalid operation: cannot call non-function of type " ++ type.text
  | fewArguments callee wanted found => "not enough" ++ countText callee wanted found
  | manyArguments callee wanted found => "too many" ++ countText callee wanted found
  | builtinArguments b found => b.name ++ " expects exactly 1 argument, found " ++ toString found
  | lengthOf type => "invalid argument for len: value of type " ++ type.text
  | conversion type wanted => "cannot convert value of type " ++ type.text ++ " to " ++ wanted.text

/-- The code of a cause. What concerns written types and the program as a whole has none. -/
def code? : TypeCause → Option String
  | unknownType _ | noEntryPoint _ => none
  | _ => some "E0200"

end TypeCause

/-- A cause and the place it is reported at, if it has one. -/
structure TypeError where
  cause : TypeCause
  span : Option Span
deriving Repr, DecidableEq

namespace TypeError

/-- The error of a name that stands for no type. -/
def ofUnknownType (u : UnknownType) : TypeError :=
  ⟨.unknownType u.name, some u.span⟩

/-- How an error is reported. -/
def diagnostic (e : TypeError) : Diagnostic where
  code := e.cause.code?
  message := e.cause.message
  primary := e.span.map fun s => ⟨s, none⟩

end TypeError

end Formula
