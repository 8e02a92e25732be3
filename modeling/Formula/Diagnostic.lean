import Formula.Source.File

/-!
# Diagnostics

What is reported about a formula: a message with a severity, perhaps a code, the places it is
about, and notes. A diagnostic has a text of one line, and one of several lines that shows the
source line with a marker under the place.

## Main definitions

* `Diagnostic`, `Label`, `Severity`.
* `Diagnostic.text`: everything in one line.
* `Diagnostic.render`: the source line with a marker.
-/

namespace Formula

/-- How serious a diagnostic is. -/
inductive Severity where
  | error
  | warning
  | note
deriving Repr, DecidableEq, Inhabited

/-- The word that a diagnostic begins with. -/
def Severity.text : Severity → String
  | .error => "error"
  | .warning => "warning"
  | .note => "note"

/-- A place with a remark. -/
structure Label where
  span : Span
  message : Option String := none
deriving Repr, DecidableEq, Inhabited

/-- A message about a formula. -/
structure Diagnostic where
  severity : Severity := .error
  code : Option String := none
  message : String
  primary : Option Label := none
  secondary : List Label := []
  notes : List String := []
deriving Repr, DecidableEq, Inhabited

namespace Diagnostic

/-- An error at a place. -/
def errorAt (span : Span) (message : String) : Diagnostic where
  message := message
  primary := some ⟨span, none⟩

/-- Severity, code and message. -/
def headline (d : Diagnostic) : String :=
  match d.code with
  | some code => d.severity.text ++ "[" ++ code ++ "]: " ++ d.message
  | none => d.severity.text ++ ": " ++ d.message

/-- What the one-line text says about the primary place. -/
def primaryText (label : Label) : String :=
  " at " ++ label.span.start.text ++
    match label.message with
    | some message => " (" ++ message ++ ")"
    | none => ""

/-- What the one-line text says about a further place. -/
def secondaryText (label : Label) : String :=
  "; " ++ label.message.getD "related location" ++ " at " ++ label.span.start.text

/-- Everything in one line. -/
def text (d : Diagnostic) : String :=
  d.headline ++ (d.primary.map primaryText).getD "" ++
    String.join (d.secondary.map secondaryText) ++
    String.join (d.notes.map fun note => "; note: " ++ note)

/-- `n` copies of a character. -/
def copies (n : Nat) (c : Char) : String :=
  String.ofList (List.replicate n c)

/-- How many markers stand under a span: one for each byte column, at least one, and one alone
under a span of several lines. -/
def markerWidth (span : Span) : Nat :=
  if span.stop.line = span.start.line then max (span.stop.column - span.start.column) 1 else 1

/-- The source line of a label, and below it the markers and the remark. -/
def excerpt (label : Label) (line : String) : String :=
  let gutter := toString label.span.start.line
  let pad := copies gutter.length ' '
  "\n" ++ pad ++ " |\n" ++ gutter ++ " | " ++ line ++ "\n" ++ pad ++ " | " ++
    copies (label.span.start.column - 1) ' ' ++ copies (markerWidth label.span) '^' ++
    match label.message with
    | some message => " " ++ message
    | none => ""

/-- The place of a label, and its source line if there is one. -/
def renderLabel (sources : Sources) (label : Label) : String :=
  match sources.get? label.span.file with
  | none => ""
  | some file =>
    "\n --> " ++ file.name ++ ":" ++ label.span.start.text ++
      ((file.lineText? label.span.start.line).map (excerpt label)).getD ""

/-- The headline, the source line with a marker under the primary place, and the notes. -/
def render (d : Diagnostic) (sources : Sources) : String :=
  d.headline ++ (d.primary.map (renderLabel sources)).getD "" ++
    String.join (d.notes.map fun note => "\n  = note: " ++ note)

end Diagnostic

end Formula
