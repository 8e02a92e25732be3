import Formula.Json.Number

/-!
# Reading JSON

Every text has a tree. Reading goes on as long as the text is well formed; an array or an object
that is not ended properly ends in a node that says what is wrong.

Every step gives what it leaves as a shorter text, so reading ends.

## Main definitions

* `nextChar?`: the first character that is not blank.
* `readValue`: the value at the head of a text.
* `JsonTree.ofText`: the tree of a text, and whether something follows the value.
-/

namespace Formula.Json

/-- Whether a character may stand between the parts of a text. -/
def isBlank (c : Char) : Bool :=
  c = ' ' || c = '\n' || c = '\t' || c = '\r'

/-- A text without the blanks at its head. -/
def skipBlanks (cs : List Char) : List Char :=
  cs.dropWhile isBlank

/-- The first character that is not blank, and what follows it. -/
def nextChar? (cs : List Char) : Option (Char × Rest cs) :=
  match h : skipBlanks cs with
  | [] => none
  | c :: rest => some (c, ⟨rest, by
      have hl : (skipBlanks cs).length ≤ cs.length := (List.dropWhile_sublist _).length_le
      rw [h, List.length_cons] at hl
      omega⟩)

/-- What is left of what is left of a text. -/
def Rest.through {cs : List Char} (r : Rest cs) (s : Rest r.1) : Rest cs :=
  ⟨s.1, Nat.lt_trans s.2 r.2⟩

/-- Reads the letters of a word. -/
def readLetters : List Char → (cs : List Char) → Except ReadError (Tail cs)
  | [], cs => .ok ⟨cs, Nat.le_refl _⟩
  | _ :: _, [] => .error .truncated
  | letter :: letters, c :: cs =>
    if c = letter then
      match readLetters letters cs with
      | .error e => .error e
      | .ok rest => .ok ⟨rest.1, by have := rest.2; simp only [List.length_cons]; omega⟩
    else .error .malformed

/-- A value that is told by its letters, the first of which was read. -/
def wordNode (letters : String) (value : JsonTree) {cs : List Char} (r : Rest cs) :
    JsonTree × Option (Rest cs) :=
  match readLetters letters.toList r.1 with
  | .error e => (.broken (.always e), none)
  | .ok rest => (value, some ⟨rest.1, Nat.lt_of_le_of_lt rest.2 r.2⟩)

/-- A text behind its opening quote. -/
def textNode {cs : List Char} (r : Rest cs) : JsonTree × Option (Rest cs) :=
  match textAt r.1 with
  | (.ok s, .ok rest) => (.string s, some (r.through rest))
  | (.ok s, .error _) => (.string s, none)
  | (.error e, .ok rest) => (.unreadable e, some (r.through rest))
  | (.error e, .error skipped) => (.broken ⟨e, skipped⟩, none)

/-- A number that begins with `c`. -/
def numberNode (c : Char) {cs : List Char} (r : Rest cs) : JsonTree × Option (Rest cs) :=
  match readNumber (c :: r.1) with
  | .error flaw => (.broken flaw, none)
  | .ok (n, rest) =>
    (match n with
      | .ok n => .number n
      | .error e => .unreadable e, some ⟨rest.1, Nat.lt_of_lt_of_le rest.2 r.2⟩)

mutual

/-- Reads a value. There is no rest where reading stops. -/
def readValue (cs : List Char) : JsonTree × Option (Rest cs) :=
  match nextChar? cs with
  | none => (.broken (.always .truncated), none)
  | some (c, r) =>
    have := r.2
    if c = '"' then textNode r
    else if c = '[' then
      let (items, left) := readFirstItem r.1
      (.array items, left.map r.through)
    else if c = '\x7b' then
      let (entries, left) := readFirstEntry r.1
      (.object entries, left.map r.through)
    else if c = '-' ∨ c.isDigit then numberNode c r
    else if c = 'n' then wordNode "ull" .null r
    else if c = 't' then wordNode "rue" (.bool true) r
    else if c = 'f' then wordNode "alse" (.bool false) r
    else (.broken (.always .malformed), none)
termination_by (cs.length, 0)

/-- Reads the items of an array behind its bracket. -/
def readFirstItem (cs : List Char) : JsonItems × Option (Rest cs) :=
  match nextChar? cs with
  | none => (.stop .truncated, none)
  | some (c, r) => if c = ']' then (.nil, some r) else readItem cs
termination_by (cs.length, 2)

/-- Reads an item and those after it. -/
def readItem (cs : List Char) : JsonItems × Option (Rest cs) :=
  match readValue cs with
  | (t, none) => (.cons t .nil, none)
  | (t, some r) =>
    have := r.2
    let (items, left) := readMoreItems r.1
    (.cons t items, left.map r.through)
termination_by (cs.length, 1)

/-- Reads the items of an array behind one of them. -/
def readMoreItems (cs : List Char) : JsonItems × Option (Rest cs) :=
  match nextChar? cs with
  | none => (.stop .truncated, none)
  | some (c, r) =>
    have := r.2
    if c = ']' then (.nil, some r)
    else if c = ',' then
      let (items, left) := readItem r.1
      (items, left.map r.through)
    else (.stop .malformed, none)
termination_by (cs.length, 2)

/-- Reads the entries of an object behind its brace. -/
def readFirstEntry (cs : List Char) : JsonEntries × Option (Rest cs) :=
  match nextChar? cs with
  | none => (.stop (.always .truncated), none)
  | some (c, r) => if c = '\x7d' then (.nil, some r) else readEntry cs
termination_by (cs.length, 2)

/-- Reads an entry and those after it. -/
def readEntry (cs : List Char) : JsonEntries × Option (Rest cs) :=
  match nextChar? cs with
  | none => (.stop (.always .truncated), none)
  | some (c, r) =>
    if c = '"' then
      match textAt r.1 with
      | (.ok _, .error e) => (.stop (.always e), none)
      | (.error e, .error skipped) => (.stop ⟨e, skipped⟩, none)
      | (key, .ok more) =>
        have := r.2
        have := more.2
        let (entries, left) := readKeyed key more.1
        (entries, left.map (r.through more).through)
    else (.stop (.always .malformed), none)
termination_by (cs.length, 1)

/-- Reads the rest of an entry behind its key, and the entries after it. -/
def readKeyed (key : Except ReadError String) (cs : List Char) :
    JsonEntries × Option (Rest cs) :=
  match nextChar? cs with
  | none => (.cons key (.broken (.always .truncated)) .nil, none)
  | some (c, r) =>
    have := r.2
    if c = ':' then
      match readValue r.1 with
      | (t, none) => (.cons key t .nil, none)
      | (t, some more) =>
        have := more.2
        let (entries, left) := readMoreEntries more.1
        (.cons key t entries, left.map (r.through more).through)
    else (.cons key (.broken (.always .malformed)) .nil, none)
termination_by (cs.length, 2)

/-- Reads the entries of an object behind one of them. -/
def readMoreEntries (cs : List Char) : JsonEntries × Option (Rest cs) :=
  match nextChar? cs with
  | none => (.stop (.always .truncated), none)
  | some (c, r) =>
    have := r.2
    if c = '\x7d' then (.nil, some r)
    else if c = ',' then
      let (entries, left) := readEntry r.1
      (entries, left.map r.through)
    else (.stop (.always .malformed), none)
termination_by (cs.length, 2)

end

end Formula.Json

namespace Formula

/-- The tree of a text, and whether something else than blanks follows the value. -/
def JsonTree.ofText (text : String) : JsonTree × Bool :=
  match Json.readValue text.toList with
  | (t, none) => (t, false)
  | (t, some r) => (t, !(Json.skipBlanks r.1).isEmpty)

end Formula
