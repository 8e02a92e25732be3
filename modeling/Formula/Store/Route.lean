import Formula.Store.Failure

/-!
# Written paths

A route is a path as it is written, step by step. Where it leads depends on what is there: a step
can only be taken in a directory, so `a/../b` leads nowhere without a directory `a`.

## Main definitions

* `Route`, `Route.ofText`, `Route.text`: written paths and their texts.
* `Route.parents`: the routes that end earlier.
* `joinPath`: the text of the path of something in a directory.

## Main results

* `PathStep.text_ofText`: no part of a text is lost.
-/

namespace Formula

/-- A part of a written path, between slashes. -/
inductive PathStep where
  /-- Nothing, as between two slashes or after the last one. -/
  | empty
  /-- A dot: the directory itself. -/
  | here
  /-- Two dots: the directory above. -/
  | above
  | enter (name : String)
deriving Repr, DecidableEq, Inhabited

namespace PathStep

/-- The step with the given text. -/
def ofText (part : String) : PathStep :=
  if part = "" then empty
  else if part = "." then here
  else if part = ".." then above
  else enter part

/-- The text of a step. -/
def text : PathStep → String
  | empty => ""
  | here => "."
  | above => ".."
  | enter name => name

@[simp] theorem text_ofText (part : String) : (ofText part).text = part := by
  unfold ofText
  split
  · simp_all [text]
  · split
    · simp_all [text]
    · split <;> simp_all [text]

/-- Whether a step stays where it is. -/
def isIdle : PathStep → Bool
  | empty | here => true
  | above | enter _ => false

end PathStep

/-- A path as it is written. -/
structure Route where
  /-- Whether it begins at the root, and not in the working directory. -/
  fromRoot : Bool := false
  steps : List PathStep := []
deriving Repr, DecidableEq, Inhabited

namespace Route

/-- The path with the given text. A slash at its beginning stands for the root. -/
def ofText (text : String) : Route :=
  if text = "" then {}
  else
    let steps := (text.splitOn "/").map .ofText
    if text.startsWith "/" then ⟨true, steps.drop 1⟩ else ⟨false, steps⟩

/-- The text of a path. -/
def text (r : Route) : String :=
  (if r.fromRoot then "/" else "") ++ "/".intercalate (r.steps.map (·.text))

/-- Whether nothing is written at all. -/
def isEmpty (r : Route) : Bool :=
  !r.fromRoot && r.steps.isEmpty

/-- The steps to a directory that stand before what is entered in it. A slash at the end of the path
is the one before the name. -/
def approachSteps (r : Route) : List PathStep :=
  if r.steps.getLast? = some .empty then r.steps.dropLast else r.steps

/-- The path of something in the directory at a path. -/
def enter (r : Route) (name : String) : Route :=
  { r with steps := r.approachSteps ++ [.enter name] }

@[simp] theorem enter_empty (name : String) : enter {} name = ⟨false, [.enter name]⟩ := rfl

/-- A path without the slashes at its end. -/
def withoutSlashes (r : Route) : Route :=
  { r with steps := (r.steps.reverse.dropWhile (· = .empty)).reverse }

/-- The ends of a list of steps that begin with one which leads elsewhere. -/
def movingTails : List PathStep → List (List PathStep)
  | [] => []
  | step :: steps => if step.isIdle then movingTails steps else (step :: steps) :: movingTails steps

/-- The paths that lack the last step, the last two, and so on; steps that stay where they are go
with the one before them. -/
def parents (r : Route) : List Route :=
  ((movingTails r.steps.reverse).drop 1).map fun steps => { r with steps := steps.reverse }

/-- How many bytes the text of a path may have. -/
def maxBytes : Nat := 4095

/-- The failure that a path brings about wherever it leads: its text cannot be handed to the
system. -/
def failure? (r : Route) : Option FileFailure :=
  if r.text.toList.contains '\x00' then some .nulInPath
  else if maxBytes < r.text.utf8ByteSize then some .nameTooLong
  else none

end Route

/-- The text of the path of something in a directory. A name that begins with a slash is a path of
its own. -/
def joinPath (directory name : String) : String :=
  if name.startsWith "/" then name
  else if directory = "" ∨ directory.endsWith "/" then directory ++ name
  else directory ++ "/" ++ name

end Formula
