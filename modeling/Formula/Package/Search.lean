/-!
# Searching and repeating

## Main definitions

* `holds`: whether a text occurs in another one.
* `replaceAll`: every occurrence replaced, from the left and without overlap.
* `repeatText`: a text several times.

## Main results

* `utf8ByteSize_repeatAfter`: how long a repeated text is.
-/

namespace Formula.Text

/-- What is left of a text behind the given start, if the text starts so. -/
def dropStart? : List Char → List Char → Option (List Char)
  | [], cs => some cs
  | _ :: _, [] => none
  | p :: ps, c :: cs => if p = c then dropStart? ps cs else none

theorem eq_of_dropStart? {start cs rest : List Char} (h : dropStart? start cs = some rest) :
    cs = start ++ rest := by
  fun_induction dropStart? start cs with
  | case1 => cases h; rfl
  | case2 => cases h
  | case3 _ _ _ ih => simp [ih h]
  | case4 => cases h

@[simp]
theorem dropStart?_append (start rest : List Char) :
    dropStart? start (start ++ rest) = some rest := by
  induction start with
  | nil => rfl
  | cons p ps ih => simp [dropStart?, ih]

/-- Whether the text `part` occurs in a text. -/
def holds (part : List Char) : List Char → Bool
  | [] => part.isEmpty
  | c :: cs => (dropStart? part (c :: cs)).isSome || holds part cs

/-- Replaces every occurrence of a text that is not empty, from the left and without overlap. -/
def replaceFrom (first : Char) (more replacement : List Char) (cs : List Char) : List Char :=
  match cs with
  | [] => []
  | c :: rest =>
    match h : dropStart? (first :: more) (c :: rest) with
    | some left =>
      have : left.length < rest.length + 1 := by
        have := congrArg List.length (eq_of_dropStart? h)
        simp at this
        omega
      replacement ++ replaceFrom first more replacement left
    | none => c :: replaceFrom first more replacement rest
termination_by cs.length

/-- Puts a text before every character and at the end. -/
def interleave (replacement : List Char) : List Char → List Char
  | [] => replacement
  | c :: cs => replacement ++ c :: interleave replacement cs

/-- Replaces every occurrence of the text `old`, from the left and without overlap. The empty text
occurs before every character and at the end. -/
def replaceAll (text old replacement : String) : String :=
  String.ofList <| match old.toList with
    | [] => interleave replacement.toList text.toList
    | first :: more => replaceFrom first more replacement.toList text.toList

/-- `n` times the same text, behind the text `done`. -/
def repeatAfter (text : String) (done : String) : Nat → String
  | 0 => done
  | n + 1 => repeatAfter text (done ++ text) n

/-- `n` times the same text. -/
def repeatText (text : String) (n : Nat) : String :=
  if text.isEmpty then "" else repeatAfter text "" n

theorem utf8ByteSize_repeatAfter (text done : String) (n : Nat) :
    (repeatAfter text done n).utf8ByteSize = done.utf8ByteSize + n * text.utf8ByteSize := by
  induction n generalizing done with
  | zero => simp [repeatAfter]
  | succ n ih =>
    rw [repeatAfter, ih, String.utf8ByteSize_append, Nat.succ_mul]
    omega

end Formula.Text
