import Formula.Decimal.Layout
import Formula.Text.Quoted

/-!
# JSON trees

What a JSON text says, as a tree. A text that is not well formed has a tree as well: it ends where
the text ceases to be well formed, in a node that says what is wrong there. Whoever goes through the
tree in the order of the text meets an error of the content before an error of the form that comes
after it.

Some errors of the form matter only where a value is wanted, and not where it is passed over, so
`ReadError`s come in pairs.

## Main definitions

* `JsonTree`, with `JsonItems` and `JsonEntries`.
* `JsonTree.skip`: passing over a value.
* `JsonTree.check`: going through a value of which all is wanted.
-/

namespace Formula

/-- What is wrong with the form of a text: something stands there that should not, or the text ends
too early. -/
inductive ReadError where
  | malformed
  | truncated
deriving Repr, DecidableEq

/-- What is wrong with a text at one place: where the value is wanted, and where it is passed
over. -/
structure Flaw where
  wanted : ReadError
  skipped : ReadError
deriving Repr, DecidableEq

namespace Flaw

/-- An error that matters everywhere. -/
def always (e : ReadError) : Flaw := ⟨e, e⟩

end Flaw

/-- A number in a text. -/
inductive JsonNumber where
  | integer (value : Int)
  | float (value : Float)
deriving Repr, BEq, Inhabited

mutual

/-- What a text says. -/
inductive JsonTree where
  | null
  | bool (value : Bool)
  | number (value : JsonNumber)
  | string (value : String)
  | array (items : JsonItems)
  | object (entries : JsonEntries)
  /-- A value of the right form that stands for nothing. -/
  | unreadable (error : ReadError)
  /-- The text ceases to be well formed. -/
  | broken (flaw : Flaw)

/-- The items of an array. -/
inductive JsonItems where
  | nil
  /-- The text ceases to be well formed where an item should end. -/
  | stop (error : ReadError)
  | cons (item : JsonTree) (items : JsonItems)

/-- The entries of an object; a key may have the right form and stand for nothing. -/
inductive JsonEntries where
  | nil
  /-- The text ceases to be well formed where an entry should end or a key should stand. -/
  | stop (flaw : Flaw)
  | cons (key : Except ReadError String) (value : JsonTree) (entries : JsonEntries)

end

instance : Inhabited JsonTree := ⟨.null⟩

namespace JsonItems

/-- The items of a list. -/
def ofList : List JsonTree → JsonItems
  | [] => nil
  | t :: ts => cons t (ofList ts)

end JsonItems

namespace JsonEntries

/-- The entries of a list. -/
def ofList : List (String × JsonTree) → JsonEntries
  | [] => nil
  | (key, t) :: ts => cons (.ok key) t (ofList ts)

end JsonEntries

mutual

/-- Passes over a value: only what is broken matters. -/
def JsonTree.skip : JsonTree → Except ReadError Unit
  | .null | .bool _ | .number _ | .string _ | .unreadable _ => .ok ()
  | .broken flaw => .error flaw.skipped
  | .array items => items.skip
  | .object entries => entries.skip

@[inherit_doc JsonTree.skip]
def JsonItems.skip : JsonItems → Except ReadError Unit
  | .nil => .ok ()
  | .stop e => .error e
  | .cons item items =>
    match item.skip with
    | .error e => .error e
    | .ok () => items.skip

@[inherit_doc JsonTree.skip]
def JsonEntries.skip : JsonEntries → Except ReadError Unit
  | .nil => .ok ()
  | .stop flaw => .error flaw.skipped
  | .cons _ value entries =>
    match value.skip with
    | .error e => .error e
    | .ok () => entries.skip

end

mutual

/-- Goes through a value of which all is wanted, and in which so many arrays and objects may lie
within each other. -/
def JsonTree.check (levels : Nat) : JsonTree → Except ReadError Unit
  | .null | .bool _ | .number _ | .string _ => .ok ()
  | .unreadable e => .error e
  | .broken flaw => .error flaw.wanted
  | .array items => if levels = 0 then .error .malformed else items.check (levels - 1)
  | .object entries => if levels = 0 then .error .malformed else entries.check (levels - 1)

@[inherit_doc JsonTree.check]
def JsonItems.check (levels : Nat) : JsonItems → Except ReadError Unit
  | .nil => .ok ()
  | .stop e => .error e
  | .cons item items =>
    match item.check levels with
    | .error e => .error e
    | .ok () => items.check levels

@[inherit_doc JsonTree.check]
def JsonEntries.check (levels : Nat) : JsonEntries → Except ReadError Unit
  | .nil => .ok ()
  | .stop flaw => .error flaw.wanted
  | .cons (.error e) _ _ => .error e
  | .cons (.ok _) value entries =>
    match value.check levels with
    | .error e => .error e
    | .ok () => entries.check levels

end

namespace JsonNumber

/-- Floating-point numbers are written positionally from `0.00001` up to sixteen digits before the
point, and always with a point or an exponent. -/
def layout : Decimal.Layout where
  tie := .toEven
  lowest := some (-5)
  highest := some 15
  marksWhole := true
  signsExponent := true
  exponentWidth := 1
  special := ("null", "null", "null")

/-- The text of a number. -/
def text : JsonNumber → String
  | integer n => toString n
  | float x => layout.write x

/-- What messages call a number. -/
def description : JsonNumber → String
  | integer n => "integer `" ++ toString n ++ "`"
  | float x => "floating point `" ++ layout.write x ++ "`"

end JsonNumber

/-- What messages call a value that is not broken; `none` stands for one that is. -/
def JsonTree.description : JsonTree → Except ReadError String
  | .null => .ok "null"
  | .bool b => .ok ("boolean `" ++ (if b then "true" else "false") ++ "`")
  | .number n => .ok n.description
  | .string s => .ok ("string " ++ Text.quoteShown s)
  | .array _ => .ok "sequence"
  | .object _ => .ok "map"
  | .unreadable e => .error e
  | .broken flaw => .error flaw.wanted

end Formula
