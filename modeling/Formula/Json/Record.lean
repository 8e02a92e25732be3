import Formula.Json.Tree

/-!
# Decoding records

A record is written as an object with its fields in any order, or as an array of its fields in
order. Decoding goes through the tree in the order of the text and ends at the first error.

## Main definitions

* `Mismatch`, `JsonError`: why a tree cannot be decoded.
* `decodeString`, `decodeList`, `decodeOption`, `decodeByte`: decoding values.
* `Field`, `Schema`, `Schema.decode`: decoding records.
-/

namespace Formula

/-- Why a well-formed value is not the one that is wanted. -/
inductive Mismatch where
  | type (found expected : String)
  | value (found expected : String)
  | length (found : Nat) (expected : String)
  | unknownField (name : String) (known : List String)
  | duplicateField (name : String)
  | missingField (name : String)
  | noAlternative (name : String)
  | custom (message : String)
deriving Repr, DecidableEq

/-- A name in a message. -/
def codeQuoted (name : String) : String :=
  "`" ++ name ++ "`"

/-- The wording of a mismatch. -/
def Mismatch.message : Mismatch → String
  | type found expected => "invalid type: " ++ found ++ ", expected " ++ expected
  | value found expected => "invalid value: " ++ found ++ ", expected " ++ expected
  | length found expected =>
    "invalid length " ++ toString found ++ ", expected " ++ expected
  | unknownField name known =>
    "unknown field " ++ codeQuoted name ++ ", expected one of " ++
      ", ".intercalate (known.map codeQuoted)
  | duplicateField name => "duplicate field " ++ codeQuoted name
  | missingField name => "missing field " ++ codeQuoted name
  | noAlternative name => "data did not match any variant of untagged enum " ++ name
  | custom message => message

/-- Why a tree cannot be decoded. -/
inductive JsonError where
  | form (error : ReadError)
  | content (mismatch : Mismatch)
deriving Repr, DecidableEq

/-- Computations that end at the first error. -/
abbrev Decoded (α : Type) := Except JsonError α

/-- A value is not of the type that is wanted. -/
def wrongType {α : Type} (t : JsonTree) (expected : String) : Decoded α :=
  match t.description with
  | .error e => .error (.form e)
  | .ok found => .error (.content (.type found expected))

/-- A text; `expected` is what messages call it. -/
def decodeString (expected : String) : JsonTree → Decoded String
  | .string s => .ok s
  | t => wrongType t expected

/-- The values of items. -/
def decodeItems {α : Type} (decode : JsonTree → Decoded α) : JsonItems → Decoded (List α)
  | .nil => .ok []
  | .stop e => .error (.form e)
  | .cons item items =>
    match decode item with
    | .error e => .error e
    | .ok a =>
      match decodeItems decode items with
      | .error e => .error e
      | .ok as => .ok (a :: as)

/-- A list of values. -/
def decodeList {α : Type} (decode : JsonTree → Decoded α) : JsonTree → Decoded (List α)
  | .array items => decodeItems decode items
  | t => wrongType t "a sequence"

/-- A value that may be missing. -/
def decodeOption {α : Type} (decode : JsonTree → Decoded α) : JsonTree → Decoded (Option α)
  | .null => .ok none
  | t => (decode t).map some

/-- An integer from zero to 255. -/
def decodeByte (t : JsonTree) : Decoded UInt8 :=
  match t with
  | .number (.integer n) =>
    if 0 ≤ n ∧ n < 256 then .ok (UInt8.ofNat n.toNat)
    else .error (.content (.value (JsonNumber.integer n).description "u8"))
  | t => wrongType t "u8"

/-- A field of a record `σ`. -/
structure Field (σ : Type) where
  name : String
  isRequired : Bool
  /-- Puts the value of a tree into a record. -/
  read : σ → JsonTree → Decoded σ

/-- How a record `σ` is written. -/
structure Schema (σ : Type) where
  /-- What messages call the record. -/
  title : String
  fields : List (Field σ)
  /-- Whether there may be entries of other names; they are passed over. -/
  allowsOthers : Bool
  /-- The record before any field was read. -/
  blank : σ

namespace Schema

variable {σ : Type}

/-- The fields of an object put into a record; `seen` are the names that were there. -/
def decodeEntries (s : Schema σ) (seen : List String) (r : σ) : JsonEntries → Decoded σ
  | .nil =>
    match s.fields.find? fun f => f.isRequired && !seen.contains f.name with
    | some f => .error (.content (.missingField f.name))
    | none => .ok r
  | .stop flaw => .error (.form flaw.wanted)
  | .cons (.error e) _ _ => .error (.form e)
  | .cons (.ok name) value entries =>
    match s.fields.find? (·.name == name) with
    | none =>
      if s.allowsOthers then
        match value.skip with
        | .error e => .error (.form e)
        | .ok () => s.decodeEntries seen r entries
      else .error (.content (.unknownField name (s.fields.map (·.name))))
    | some f =>
      if seen.contains name then .error (.content (.duplicateField name))
      else match f.read r value with
        | .error e => .error e
        | .ok r => s.decodeEntries (name :: seen) r entries

/-- What messages call a record that is written as an array. -/
def arrayTitle (s : Schema σ) : String :=
  s.title ++ " with " ++ toString s.fields.length ++ " elements"

/-- The items of an array put into a record, of which `index` were read. Fields at the end may be
missing, if they are not required. -/
def decodeItems (s : Schema σ) (index : Nat) (r : σ) : List (Field σ) → JsonItems → Decoded σ
  | [], .nil => .ok r
  | [], .stop e => .error (.form e)
  | [], .cons _ _ => .error (.form .malformed)
  | f :: fields, .nil =>
    if f.isRequired then .error (.content (.length index s.arrayTitle))
    else s.decodeItems (index + 1) r fields .nil
  | _ :: _, .stop e => .error (.form e)
  | f :: fields, .cons item items =>
    match f.read r item with
    | .error e => .error e
    | .ok r => s.decodeItems (index + 1) r fields items

/-- A record. -/
def decode (s : Schema σ) : JsonTree → Decoded σ
  | .object entries => s.decodeEntries [] s.blank entries
  | .array items => s.decodeItems 0 s.blank s.fields items
  | t => wrongType t s.title

end Schema

end Formula
