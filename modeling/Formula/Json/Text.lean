import Formula.Json.Tree

/-!
# Texts in JSON

A text stands between double quotes. Some characters are written as escapes, and one beyond the
first plane may be written as a pair of escapes.

## Main definitions

* `Rest`: what is left after something was read.
* `readText`: a text that is wanted; `skipText`: a text that is passed over.
* `writeText`: a text between quotes.
-/

namespace Formula.Json

/-- What is left of `cs` after something at its head was read. -/
abbrev Rest (cs : List Char) := { rest : List Char // rest.length < cs.length }

namespace Rest

/-- What is left of a text is left of a longer one. -/
def within {cs ds : List Char} (h : cs.length ≤ ds.length) (r : Rest cs) : Rest ds :=
  ⟨r.1, Nat.lt_of_lt_of_le r.2 h⟩

end Rest

/-- The value of a hexadecimal digit. -/
def hexValue? (c : Char) : Option Nat :=
  if c.isDigit then some (c.toNat - 48)
  else if 'a' ≤ c ∧ c ≤ 'f' then some (c.toNat - 87)
  else if 'A' ≤ c ∧ c ≤ 'F' then some (c.toNat - 55)
  else none

/-- The number that four hexadecimal digits stand for. A text of less than four bytes ends too
early. -/
def readHex4 : (cs : List Char) → Except ReadError (Nat × Rest cs)
  | a :: b :: c :: d :: rest =>
    match hexValue? a, hexValue? b, hexValue? c, hexValue? d with
    | some a, some b, some c, some d =>
      .ok (((a * 16 + b) * 16 + c) * 16 + d, ⟨rest, by simp only [List.length_cons]; omega⟩)
    | _, _, _, _ => .error .malformed
  | cs => .error (if (String.ofList cs).utf8ByteSize < 4 then .truncated else .malformed)

/-- Whether a number is the first one of a pair that stands for a character. -/
def isLead (n : Nat) : Bool :=
  0xD800 ≤ n && n ≤ 0xDBFF

/-- Whether a number is the second one of a pair that stands for a character. -/
def isTrail (n : Nat) : Bool :=
  0xDC00 ≤ n && n ≤ 0xDFFF

/-- The character that a pair of numbers stands for. -/
def pairChar (lead trail : Nat) : Char :=
  Char.ofNat (0x10000 + (lead - 0xD800) * 0x400 + (trail - 0xDC00))

/-- The character that an escape of one letter stands for. -/
def simpleEscape? : Char → Option Char
  | '"' => some '"'
  | '\\' => some '\\'
  | '/' => some '/'
  | 'b' => some '\x08'
  | 'f' => some '\x0c'
  | 'n' => some '\n'
  | 'r' => some '\r'
  | 't' => some '\t'
  | _ => none

/-- The second number of a pair, which follows the first one as an escape of its own. -/
def readTrail : (cs : List Char) → Except ReadError (Nat × Rest cs)
  | [] => .error .truncated
  | ['\\'] => .error .truncated
  | '\\' :: 'u' :: cs =>
    match readHex4 cs with
    | .error e => .error e
    | .ok (n, rest) =>
      if isTrail n then .ok (n, rest.within (by simp only [List.length_cons]; omega))
      else .error .malformed
  | _ => .error .malformed

/-- The character of an escape, behind its backslash. -/
def readEscape : (cs : List Char) → Except ReadError (Char × Rest cs)
  | [] => .error .truncated
  | 'u' :: cs =>
    match readHex4 cs with
    | .error e => .error e
    | .ok (n, rest) =>
      if isTrail n then .error .malformed
      else if isLead n then
        match readTrail rest.1 with
        | .error e => .error e
        | .ok (m, more) =>
          .ok (pairChar n m, more.within (by
            have := rest.2
            simp only [List.length_cons]
            omega))
      else .ok (Char.ofNat n, rest.within (by simp only [List.length_cons]; omega))
  | c :: cs =>
    match simpleEscape? c with
    | some d => .ok (d, ⟨cs, by simp only [List.length_cons]; omega⟩)
    | none => .error .malformed

/-- Passes over an escape, behind its backslash. Any four hexadecimal digits will do. -/
def skipEscape : (cs : List Char) → Except ReadError (Rest cs)
  | [] => .error .truncated
  | 'u' :: cs =>
    match readHex4 cs with
    | .error e => .error e
    | .ok (_, rest) => .ok (rest.within (by simp only [List.length_cons]; omega))
  | c :: cs =>
    match simpleEscape? c with
    | some _ => .ok ⟨cs, by simp only [List.length_cons]; omega⟩
    | none => .error .malformed

/-- Whether a character may not stand for itself in a text. -/
def isControl (c : Char) : Bool :=
  c.toNat < 32

/-- Reads a text behind its opening quote; `read` are the characters read, from the last one to the
first. -/
def readFrom (read : List Char) (cs : List Char) : Except ReadError (String × Rest cs) :=
  match cs with
  | [] => .error .truncated
  | c :: cs =>
    if c = '"' then .ok (String.ofList read.reverse, ⟨cs, by simp only [List.length_cons]; omega⟩)
    else if c = '\\' then
      match readEscape cs with
      | .error e => .error e
      | .ok (d, rest) =>
        have := rest.2
        match readFrom (d :: read) rest.1 with
        | .error e => .error e
        | .ok (s, more) => .ok (s, more.within (by simp only [List.length_cons]; omega))
    else if isControl c then .error .malformed
    else
      match readFrom (c :: read) cs with
      | .error e => .error e
      | .ok (s, more) => .ok (s, more.within (by simp only [List.length_cons]; omega))
termination_by cs.length

/-- Reads a text behind its opening quote. -/
def readText (cs : List Char) : Except ReadError (String × Rest cs) :=
  readFrom [] cs

/-- Passes over a text behind its opening quote. -/
def skipText (cs : List Char) : Except ReadError (Rest cs) :=
  match cs with
  | [] => .error .truncated
  | c :: cs =>
    if c = '"' then .ok ⟨cs, by simp only [List.length_cons]; omega⟩
    else if c = '\\' then
      match skipEscape cs with
      | .error e => .error e
      | .ok rest =>
        have := rest.2
        match skipText rest.1 with
        | .error e => .error e
        | .ok more => .ok (more.within (by simp only [List.length_cons]; omega))
    else if isControl c then .error .malformed
    else
      match skipText cs with
      | .error e => .error e
      | .ok more => .ok (more.within (by simp only [List.length_cons]; omega))
termination_by cs.length

/-- A text behind its opening quote: what it stands for, and what is left when it has the right
form. -/
def textAt (cs : List Char) : Except ReadError String × Except ReadError (Rest cs) :=
  match readText cs with
  | .ok (s, rest) => (.ok s, .ok rest)
  | .error e => (.error e, skipText cs)

/-- How one character is written. -/
def writeChar (c : Char) : List Char :=
  if c = '"' then ['\\', '"']
  else if c = '\\' then ['\\', '\\']
  else if c = '\x08' then ['\\', 'b']
  else if c = '\x0c' then ['\\', 'f']
  else if c = '\n' then ['\\', 'n']
  else if c = '\r' then ['\\', 'r']
  else if c = '\t' then ['\\', 't']
  else if isControl c then
    let ds := Text.hexDigits c.toNat
    ['\\', 'u'] ++ List.replicate (4 - ds.length) '0' ++ ds
  else [c]

/-- A text between quotes. -/
def writeText (s : String) : String :=
  String.ofList ('"' :: s.toList.flatMap writeChar ++ ['"'])

end Formula.Json
