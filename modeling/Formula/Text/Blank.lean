/-!
# Blanks

The characters with the Unicode property White_Space, and what is cut off or split at them.

## Main definitions

* `isBlank`: membership of a character.
* `trim`: a text without the blanks at its two ends.
* `words`: the pieces of a text between blanks.

## Main results

* `isBlank_of_isWhitespace`: every blank of ASCII that `Char.isWhitespace` knows is a blank.
-/

namespace Formula.Text

/-- Whether a character has the property White_Space. -/
def isBlank (c : Char) : Bool :=
  let n := c.toNat
  (9 ≤ n && n ≤ 13) || n == 0x20 || n == 0x85 || n == 0xA0 || n == 0x1680 ||
    (0x2000 ≤ n && n ≤ 0x200A) || n == 0x2028 || n == 0x2029 || n == 0x202F || n == 0x205F ||
    n == 0x3000

theorem isBlank_of_isWhitespace {c : Char} (h : c.isWhitespace = true) : isBlank c = true := by
  simp only [Char.isWhitespace, Bool.or_eq_true, decide_eq_true_eq] at h
  rcases h with ((rfl | rfl) | rfl) | rfl <;> rfl

/-- The characters without the blanks at their two ends. -/
def trimList (cs : List Char) : List Char :=
  ((cs.dropWhile isBlank).reverse.dropWhile isBlank).reverse

/-- A text without the blanks at its two ends. -/
def trim (s : String) : String :=
  String.ofList (trimList s.toList)

/-- The non-empty pieces of `cs` between blanks, where `word` is the piece being read, from its
last character to its first. -/
def wordsFrom (word : List Char) : List Char → List String
  | [] => if word.isEmpty then [] else [String.ofList word.reverse]
  | c :: cs =>
    if isBlank c then
      if word.isEmpty then wordsFrom [] cs
      else String.ofList word.reverse :: wordsFrom [] cs
    else wordsFrom (c :: word) cs

/-- The non-empty pieces of a text between blanks. -/
def words (s : String) : List String :=
  wordsFrom [] s.toList

end Formula.Text
