/-!
# Names of files

The name of an evaluator may be any text. In the name of a file only its letters and digits of
ASCII are kept, in lower case; whatever stands between them becomes one hyphen.

## Main definitions

* `runsOf`: the runs of letters and digits of a text.
* `slug`: the part of a file name that stands for a name.
-/

namespace Formula

/-- The runs of letters and digits of ASCII in `cs` in lower case, where `run` is the run that is
being read, from its last character to its first. -/
def runsFrom (run : List Char) : List Char → List (List Char)
  | [] => if run.isEmpty then [] else [run.reverse]
  | c :: cs =>
    if c.isAlphanum then runsFrom (c.toLower :: run) cs
    else if run.isEmpty then runsFrom [] cs
    else run.reverse :: runsFrom [] cs

/-- The runs of letters and digits of ASCII in a text, in lower case. -/
def runsOf (name : String) : List (List Char) :=
  runsFrom [] name.toList

/-- What a file name has for a name without letters and digits. -/
def defaultSlug : String := "evaluator"

/-- The part of a file name that stands for a name: its runs, with hyphens between them. -/
def slug (name : String) : String :=
  match runsOf name with
  | [] => defaultSlug
  | runs => String.ofList (List.intercalate ['-'] runs)

end Formula
