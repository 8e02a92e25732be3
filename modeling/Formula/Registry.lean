import Formula.Scalar

/-!
# Declarations

What is declared of a formula before it is built: its inputs, its helper functions, the packages it
imports, and the formula itself. A declaration never fails; a later one of the same name takes the
place of the earlier one.

## Main definitions

* `Variable`, `Helper`, `EvaluationKind`, `Registry`.
* `Registry.defineVariable`, `Registry.defineHelper`, `Registry.importPackage`.
* `Registry.declared?`: the declaration of a variable.

## Main results

* `find?_putBy`: what a name stands for after a declaration.
-/

namespace Formula

/-- A list in which each name stands once, with a new entry for the name of `a`: in the place of
the old one, or at the end. -/
def putBy {α : Type} (name : α → String) (a : α) : List α → List α
  | [] => [a]
  | b :: bs => if name b = name a then a :: bs else b :: putBy name a bs

theorem find?_putBy {α : Type} (name : α → String) (a : α) (l : List α) (other : String) :
    (putBy name a l).find? (name · == other) =
      if name a = other then some a else l.find? (name · == other) := by
  induction l with
  | nil => by_cases h : name a = other <;> simp [putBy, h]
  | cons b bs ih =>
    simp only [putBy]
    split
    · rename_i hb
      by_cases h : name a = other <;> simp [hb, h]
    · rename_i hb
      by_cases h : name b = other
      · have hne : name a ≠ other := fun ha => hb (h.trans ha.symm)
        simp [h, hne]
      · simp [h, ih]

/-- An input of a formula. -/
structure Variable where
  name : String
  type : ScalarType
  default : Option Scalar := none
deriving Repr, BEq, Inhabited

/-- The value of a variable that is given none. -/
def Variable.initialValue (v : Variable) : Scalar :=
  v.default.getD v.type.zero

/-- A function that a formula may call; the body is the text of a function without a name. -/
structure Helper where
  name : String
  body : String
deriving Repr, DecidableEq, Inhabited

/-- What sort of evaluation is asked for. Only simple ones can be built. -/
inductive EvaluationKind where
  | simple
  | complex
  | unknown (code : UInt8)
deriving Repr, DecidableEq, Inhabited

namespace EvaluationKind

/-- The kind with the given code. -/
def ofCode (code : UInt8) : EvaluationKind :=
  if code = 0 then simple else if code = 1 then complex else unknown code

/-- Whether a kind is one of those that have a name. -/
def isKnown : EvaluationKind → Bool
  | unknown _ => false
  | _ => true

/-- The code of a kind. -/
def code : EvaluationKind → UInt8
  | simple => 0
  | complex => 1
  | unknown code => code

@[simp]
theorem code_ofCode (code : UInt8) : (ofCode code).code = code := by
  unfold ofCode
  split
  · subst_vars; rfl
  · split
    · subst_vars; rfl
    · rfl

end EvaluationKind

/-- All that is declared of a formula. -/
structure Registry where
  name : String := ""
  kind : EvaluationKind := .simple
  formula : String := ""
  imports : List String := []
  vars : List Variable := []
  helpers : List Helper := []
  /-- The directory that builds go to; none is a private one. -/
  buildPath : Option String := none
deriving Repr, BEq, Inhabited

namespace Registry

/-- Declares a variable. -/
def defineVariable (r : Registry) (v : Variable) : Registry :=
  { r with vars := putBy Variable.name v r.vars }

/-- Declares a helper function. -/
def defineHelper (r : Registry) (h : Helper) : Registry :=
  { r with helpers := putBy Helper.name h r.helpers }

/-- Declares an import; one that is there already is not repeated. -/
def importPackage (r : Registry) (path : String) : Registry :=
  if path ∈ r.imports then r else { r with imports := r.imports ++ [path] }

/-- The declaration of a variable. -/
def declared? (r : Registry) (name : String) : Option Variable :=
  r.vars.find? (·.name == name)

end Registry

end Formula
