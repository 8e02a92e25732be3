import Formula.Json.Reading
import Formula.Json.Record
import Formula.Json.Writing
import Formula.Registry

/-!
# Definitions

The declarations of a formula as they are written in JSON.

## Main definitions

* `Definition`: declarations as they are written.
* `Definition.ofText`, `Definition.text`: reading and writing.
* `Definition.registry`: the declarations that are made.
-/

namespace Formula

/-- Declarations as they are written; names may stand more than once. -/
structure Definition where
  name : String := ""
  kind : EvaluationKind := .simple
  imports : List String := []
  vars : List Variable := []
  helpers : List Helper := []
  formula : String := ""
  buildPath : Option String := none
deriving Repr, BEq, Inhabited

/-- How many arrays and objects may lie within each other in a text. -/
def maxJsonDepth : Nat := 127

/-- How many arrays and objects lie around the default value of a variable. -/
def defaultValueDepth : Nat := 3

namespace Scalar

/-- The integer of 64 bits that an integer is, if it fits. -/
def int? (n : Int) : Option Scalar :=
  if -Decimal.intBound ≤ n ∧ n < Decimal.intBound then some (.int (Int64.ofInt n)) else none

/-- The floating-point number nearest to an integer. -/
def floatOfInteger (n : Int) : Float :=
  Decimal.floatOfDecimal (n < 0) n.natAbs 0

/-- A value. An integer beyond 64 bits is a floating-point number. All of a tree must be well formed,
also if it is no value. -/
def decode (t : JsonTree) : Decoded Scalar :=
  match t with
  | .bool b => .ok (.bool b)
  | .string s => .ok (.string s)
  | .number (.integer n) => .ok ((int? n).getD (.float (floatOfInteger n)))
  | .number (.float x) => .ok (.float x)
  | t =>
    match t.check (maxJsonDepth - defaultValueDepth) with
    | .error e => .error (.form e)
    | .ok () => .error (.content (.noAlternative "Value"))

/-- The tree of a value; a number that is not finite has none of its own. -/
def tree : Scalar → JsonTree
  | int n => .number (.integer n.toInt)
  | float x => if Decimal.isFinite x then .number (.float x) else .null
  | bool b => .bool b
  | string s => .string s

end Scalar

/-- A type, by its name. -/
def ScalarType.decode (t : JsonTree) : Decoded ScalarType :=
  match decodeString "a string" t with
  | .error e => .error e
  | .ok name =>
    match ScalarType.ofName? name with
    | some type => .ok type
    | none => .error (.content (.custom (ScalarType.unknownMessage name)))

/-- How a variable is written. -/
def Variable.schema : Schema Variable where
  title := "struct Var"
  fields := [
    ⟨"name", true, fun v t => (decodeString "a string" t).map fun name => { v with name }⟩,
    ⟨"type", true, fun v t => (ScalarType.decode t).map fun type => { v with type }⟩,
    ⟨"default", false, fun v t => (decodeOption Scalar.decode t).map fun d => { v with default := d }⟩]
  allowsOthers := true
  blank := ⟨"", .int, none⟩

/-- The tree of a variable. -/
def Variable.tree (v : Variable) : JsonTree :=
  let value := match v.default with
    | none => []
    | some value => [("default", value.tree)]
  .object (.ofList ([("name", .string v.name), ("type", .string v.type.name)] ++ value))

/-- How a helper function is written. -/
def Helper.schema : Schema Helper where
  title := "struct Func"
  fields := [
    ⟨"name", true, fun h t => (decodeString "a string" t).map fun name => { h with name }⟩,
    ⟨"body", true, fun h t => (decodeString "a string" t).map fun body => { h with body }⟩]
  allowsOthers := true
  blank := ⟨"", ""⟩

/-- The tree of a helper function. -/
def Helper.tree (h : Helper) : JsonTree :=
  .object (.ofList [("name", .string h.name), ("body", .string h.body)])

namespace Definition

/-- How a definition is written. -/
def schema : Schema Definition where
  title := "struct Definition"
  fields := [
    ⟨"name", false, fun d t => (decodeString "a string" t).map fun name => { d with name }⟩,
    ⟨"kind", false, fun d t => (decodeByte t).map fun code => { d with kind := .ofCode code }⟩,
    ⟨"imports", false, fun d t =>
      (decodeList (decodeString "a string") t).map fun imports => { d with imports }⟩,
    ⟨"variables", false, fun d t =>
      (decodeList Variable.schema.decode t).map fun vars => { d with vars }⟩,
    ⟨"functions", false, fun d t =>
      (decodeList Helper.schema.decode t).map fun helpers => { d with helpers }⟩,
    ⟨"formula", false, fun d t => (decodeString "a string" t).map fun formula => { d with formula }⟩,
    ⟨"base_build_path", false, fun d t =>
      (decodeOption (decodeString "path string") t).map fun path => { d with buildPath := path }⟩]
  allowsOthers := false
  blank := {}

/-- Reads a definition; nothing may follow it. -/
def ofText (text : String) : Decoded Definition :=
  let (tree, isFollowed) := JsonTree.ofText text
  match schema.decode tree with
  | .error e => .error e
  | .ok d => if isFollowed then .error (.form .malformed) else .ok d

/-- The tree of a definition. -/
def tree (d : Definition) : JsonTree :=
  let path := match d.buildPath with
    | none => []
    | some path => [("base_build_path", .string path)]
  .object (.ofList ([
    ("name", .string d.name),
    ("kind", .number (.integer d.kind.code.toNat)),
    ("imports", .array (.ofList (d.imports.map .string))),
    ("variables", .array (.ofList (d.vars.map Variable.tree))),
    ("functions", .array (.ofList (d.helpers.map Helper.tree))),
    ("formula", .string d.formula)] ++ path))

/-- The text of a definition. -/
def text (d : Definition) : String :=
  d.tree.text

/-- A variable whose default is a number of its type: in JSON a whole number may stand for a
floating-point number. -/
def normalVariable (v : Variable) : Variable :=
  match v.type, v.default with
  | .float, some (.int n) => { v with default := some (.float (Scalar.floatOfInteger n.toInt)) }
  | _, _ => v

/-- The declarations that a definition makes, in order. -/
def registry (d : Definition) : Registry :=
  let start : Registry :=
    { name := d.name, kind := d.kind, formula := d.formula, buildPath := d.buildPath }
  let imported := d.imports.foldl Registry.importPackage start
  let declared := (d.vars.map normalVariable).foldl Registry.defineVariable imported
  d.helpers.foldl Registry.defineHelper declared

end Definition

end Formula
