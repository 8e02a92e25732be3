import Formula.Registry
import Formula.Text.Blank

/-!
# What declarations must satisfy

## Main definitions

* `ValidationError`: why declarations cannot be built.
* `Registry.validate`: the first reason there is.
-/

namespace Formula

/-- Why declarations cannot be built. -/
inductive ValidationError where
  | missingName
  | invalidKind
  | emptyFormula
  | complexKind
  | defaultType (name : String) (declared found : ScalarType)
deriving Repr, DecidableEq

/-- The wording of an error. -/
def ValidationError.message : ValidationError → String
  | missingName => "name is mandatory"
  | invalidKind => "evaluationType is invalid"
  | emptyFormula => "evaluation formula cannot be empty"
  | complexKind => "currently complex evaluation is still not supported"
  | defaultType name declared found =>
    "default value of variable " ++ name ++ " (type " ++ declared.name ++ ") has type " ++
      found.name

/-- Whether a text holds nothing but blanks. -/
def isBlankText (s : String) : Bool :=
  s.toList.all Text.isBlank

/-- What is wrong with the default value of a variable. -/
def Variable.defaultError? (v : Variable) : Option ValidationError :=
  match v.default with
  | none => none
  | some value =>
    if value.type = v.type then none else some (.defaultType v.name v.type value.type)

/-- Looks for the first reason why declarations cannot be built. -/
def Registry.validate (r : Registry) : Except ValidationError Unit :=
  if isBlankText r.name then .error .missingName
  else if !r.kind.isKnown then .error .invalidKind
  else if isBlankText r.formula then .error .emptyFormula
  else if r.kind ≠ .simple then .error .complexKind
  else match r.vars.findSome? Variable.defaultError? with
    | some e => .error e
    | none => .ok ()

end Formula
