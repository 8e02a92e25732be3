import Formula.Source.Position

/-!
# Source files

A named text with the places where its lines start, and a numbered collection of such files.

## Main definitions

* `SourceFile`: a file; `SourceFile.position` turns a byte offset into a position, and
  `SourceFile.lineText?` gives the text of a line.
* `Sources`: files numbered in the order in which they were added, one for each name.
-/

namespace Formula

/-- The offsets at which lines start after the first one, in a text that begins at `offset`. -/
def lineStartsAfter (offset : Nat) : List Char → List Nat
  | [] => []
  | c :: cs =>
    let next := offset + c.utf8Size
    if c = '\n' then next :: lineStartsAfter next cs else lineStartsAfter next cs

/-- The offsets at which the lines of a text start. -/
def lineStartsOf (text : String) : List Nat :=
  0 :: lineStartsAfter 0 text.toList

/-- The lines of a text, without the line feeds between them. -/
def linesOf : List Char → List (List Char)
  | [] => [[]]
  | c :: cs =>
    if c = '\n' then [] :: linesOf cs
    else match linesOf cs with
      | [] => [[c]]
      | line :: lines => (c :: line) :: lines

/-- A line without the carriage returns at its end. -/
def withoutReturns (line : List Char) : List Char :=
  (line.reverse.dropWhile (· = '\r')).reverse

/-- A text with a name and a number, and the offsets at which its lines start. -/
structure SourceFile where
  id : Nat
  name : String
  text : String
  lineStarts : List Nat
  lineStarts_eq : lineStarts = lineStartsOf text

namespace SourceFile

/-- The file with the given number, name and text. -/
def ofText (id : Nat) (name text : String) : SourceFile :=
  ⟨id, name, text, lineStartsOf text, rfl⟩

instance : Inhabited SourceFile := ⟨ofText 0 "" ""⟩

/-- The number of bytes of the text. -/
def size (f : SourceFile) : Nat :=
  f.text.utf8ByteSize

/-- The position of a byte offset: its line is the last one that starts at or before it. -/
def position (f : SourceFile) (offset : Nat) : Position :=
  let reached := f.lineStarts.filter (· ≤ offset)
  ⟨reached.length, offset - reached.getLastD 0 + 1, offset⟩

/-- The span between two byte offsets. -/
def span (f : SourceFile) (start stop : Nat) : Span :=
  ⟨f.id, f.position start, f.position stop⟩

/-- The text of a line, counted from one, without its end. -/
def lineText? (f : SourceFile) : Nat → Option String
  | 0 => none
  | n + 1 => (linesOf f.text.toList)[n]?.map fun line => String.ofList (withoutReturns line)

@[simp]
theorem position_offset (f : SourceFile) (offset : Nat) : (f.position offset).offset = offset :=
  rfl

@[simp]
theorem span_file (f : SourceFile) (start stop : Nat) : (f.span start stop).file = f.id := rfl

end SourceFile

/-- Files numbered in the order in which they were added, one for each name. -/
structure Sources where
  files : List SourceFile := []

namespace Sources

/-- The file with the given number. -/
def get? (s : Sources) (id : Nat) : Option SourceFile :=
  s.files[id]?

/-- Adds a file and gives its number. A name that is taken keeps its file. -/
def add (s : Sources) (name text : String) : Nat × Sources :=
  match s.files.find? (·.name == name) with
  | some f => (f.id, s)
  | none =>
    let id := s.files.length
    (id, ⟨s.files ++ [SourceFile.ofText id name text]⟩)

/-- One file alone. -/
def single (name text : String) : Sources :=
  ⟨[SourceFile.ofText 0 name text]⟩

@[simp]
theorem get?_single_zero (name text : String) :
    (single name text).get? 0 = some (SourceFile.ofText 0 name text) := rfl

end Sources

end Formula
