import Formula.Registry
import Formula.Scoped
import Formula.Text.Blank

/-!
# Written overrides

On a command line the value of a variable is written as `NAME=VALUE`. The value is read as one of
the type of the variable.

## Main definitions

* `splitEquals`: the two sides of the first equals sign.
* `Registry.readOverride`, `Registry.readOverrides`: reading written overrides.

## Main results

* `splitEquals_append`: a name without an equals sign is what stands before the first one.
-/

namespace Formula

/-- Why a written override is of no use. -/
inductive OverrideError where
  | noEquals (text : String)
  | unknownVariable (name : String)
  | unreadable (type : ScalarType) (text : String)
deriving Repr, DecidableEq

/-- The wording of an error. -/
def OverrideError.message : OverrideError → String
  | noEquals text => "expected NAME=VALUE, got `" ++ text ++ "`"
  | unknownVariable name => "unknown variable " ++ name
  | unreadable type text => type.unreadableMessage text

/-- What stands before and behind the first equals sign. -/
def splitEquals : List Char → Option (List Char × List Char)
  | [] => none
  | c :: cs =>
    if c = '=' then some ([], cs)
    else (splitEquals cs).map fun (before, behind) => (c :: before, behind)

theorem splitEquals_append {name : List Char} (h : '=' ∉ name) (value : List Char) :
    splitEquals (name ++ '=' :: value) = some (name, value) := by
  induction name with
  | nil => rfl
  | cons c cs ih =>
    simp only [List.mem_cons, not_or] at h
    simp [splitEquals, Ne.symm h.1, ih h.2]

namespace Registry

/-- The variable and the value of a written override. Blanks around the name have no meaning. -/
def readOverride (r : Registry) (text : String) : Except OverrideError (String × Scalar) :=
  match splitEquals text.toList with
  | none => .error (.noEquals text)
  | some (before, behind) =>
    let name := String.ofList (Text.trimList before)
    match r.declared? name with
    | none => .error (.unknownVariable name)
    | some v =>
      let written := String.ofList behind
      match v.type.read? written with
      | none => .error (.unreadable v.type written)
      | some value => .ok (name, value)

/-- Written overrides put into `values`; of several for one variable the last one counts. -/
def readOverridesInto (r : Registry) (values : Bindings Scalar) :
    List String → Except OverrideError (Bindings Scalar)
  | [] => .ok values
  | text :: texts =>
    match r.readOverride text with
    | .error e => .error e
    | .ok (name, value) => r.readOverridesInto (values.set name value) texts

/-- The values that written overrides give to variables. -/
def readOverrides (r : Registry) (texts : List String) : Except OverrideError (Bindings Scalar) :=
  r.readOverridesInto [] texts

end Registry

end Formula
