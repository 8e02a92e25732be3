import Formula.Json.Text

/-!
# Writing JSON

The text of a tree. Every item and every entry stands on a line of its own, indented by two blanks
for each array and object around it.

## Main definitions

* `JsonTree.text`: the text of a tree.
-/

namespace Formula

/-- The end of a line, and the indentation of the next one. -/
def lineBreak (depth : Nat) : String :=
  "\n" ++ String.ofList (List.replicate (2 * depth) ' ')

mutual

/-- The text of a value around which lie so many arrays and objects. What has no value has no
text. -/
def JsonTree.write (depth : Nat) : JsonTree → String
  | .null => "null"
  | .bool b => if b then "true" else "false"
  | .number n => n.text
  | .string s => Json.writeText s
  | .array .nil => "[]"
  | .array items => "[" ++ items.write (depth + 1) "" ++ lineBreak depth ++ "]"
  | .object .nil => "\x7b\x7d"
  | .object entries => "\x7b" ++ entries.write (depth + 1) "" ++ lineBreak depth ++ "\x7d"
  | .unreadable _ | .broken _ => ""

/-- The text of items, where `separator` stands before the first one. -/
def JsonItems.write (depth : Nat) (separator : String) : JsonItems → String
  | .nil | .stop _ => ""
  | .cons item items =>
    separator ++ lineBreak depth ++ item.write depth ++ items.write depth ","

/-- The text of entries, where `separator` stands before the first one. -/
def JsonEntries.write (depth : Nat) (separator : String) : JsonEntries → String
  | .nil | .stop _ => ""
  | .cons key value entries =>
    separator ++ lineBreak depth ++
      (match key with
        | .ok name => Json.writeText name
        | .error _ => "") ++ ": " ++ value.write depth ++ entries.write depth ","

end

/-- The text of a tree. -/
def JsonTree.text (t : JsonTree) : String :=
  t.write 0

end Formula
