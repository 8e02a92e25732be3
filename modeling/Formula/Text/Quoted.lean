import Formula.Text.Printable

/-!
# Quoted text

A text shown between double quotes, in which every character that is not printable is written as
an escape.

## Main definitions

* `escapeShown`: how one character is shown.
* `quoteShown`: a text between quotes.
-/

namespace Formula.Text

/-- The digits of a number in lower-case hexadecimal, without leading zeros. -/
def hexDigits (n : Nat) : List Char :=
  Nat.toDigits 16 n

/-- One character of a quoted text: the usual short escapes, the character itself when it is
printable, and otherwise its code point in braces. -/
def escapeShown (c : Char) : List Char :=
  if c = '\x00' then ['\\', '0']
  else if c = '\t' then ['\\', 't']
  else if c = '\r' then ['\\', 'r']
  else if c = '\n' then ['\\', 'n']
  else if c = '\\' then ['\\', '\\']
  else if c = '"' then ['\\', '"']
  else if isPrintable c then [c]
  else ['\\', 'u', '\x7b'] ++ hexDigits c.toNat ++ ['\x7d']

/-- A text between double quotes, with escapes. -/
def quoteShown (s : String) : String :=
  String.ofList ('"' :: s.toList.flatMap escapeShown ++ ['"'])

end Formula.Text
