/-!
# Places in a text

## Main definitions

* `Place`: the characters that are left of a text, and how many bytes stand before them.
* `Place.takeWhile`, `Place.eat?`: reading on from a place.

## Main results

* `Place.length_takeWhile`: what is read and what is left make up the text.
-/

namespace Formula

/-- The characters `rest` that are left of a text after its first `offset` bytes. -/
structure Place where
  offset : Nat
  rest : List Char
deriving Repr, DecidableEq, Inhabited

namespace Place

/-- The start of a text. -/
def ofText (text : String) : Place :=
  ⟨0, text.toList⟩

/-- The place behind the character `c`, where `rest` is left. -/
def behind (p : Place) (c : Char) (rest : List Char) : Place :=
  ⟨p.offset + c.utf8Size, rest⟩

/-- The place behind the given character, if that comes next. -/
def eat? (p : Place) (c : Char) : Option Place :=
  match p.rest with
  | [] => none
  | d :: rest => if d = c then some (p.behind d rest) else none

/-- The characters from a place on that satisfy a condition, and the place of the first one that
does not. -/
def takeWhileFrom (keep : Char → Bool) (offset : Nat) : List Char → List Char × Place
  | [] => ([], ⟨offset, []⟩)
  | c :: rest =>
    if keep c then
      let (taken, p) := takeWhileFrom keep (offset + c.utf8Size) rest
      (c :: taken, p)
    else ([], ⟨offset, c :: rest⟩)

@[inherit_doc takeWhileFrom]
def takeWhile (p : Place) (keep : Char → Bool) : List Char × Place :=
  takeWhileFrom keep p.offset p.rest

@[simp]
theorem behind_rest (p : Place) (c : Char) (rest : List Char) : (p.behind c rest).rest = rest :=
  rfl

@[simp]
theorem behind_offset (p : Place) (c : Char) (rest : List Char) :
    (p.behind c rest).offset = p.offset + c.utf8Size :=
  rfl

theorem takeWhileFrom_append (keep : Char → Bool) (offset : Nat) (cs : List Char) :
    (takeWhileFrom keep offset cs).1 ++ (takeWhileFrom keep offset cs).2.rest = cs := by
  induction cs generalizing offset with
  | nil => rfl
  | cons c cs ih =>
    simp only [takeWhileFrom]
    split
    · simp [ih]
    · rfl

theorem takeWhile_append (p : Place) (keep : Char → Bool) :
    (p.takeWhile keep).1 ++ (p.takeWhile keep).2.rest = p.rest :=
  takeWhileFrom_append ..

theorem length_takeWhile (p : Place) (keep : Char → Bool) :
    (p.takeWhile keep).1.length + (p.takeWhile keep).2.rest.length = p.rest.length := by
  rw [← List.length_append, takeWhile_append]

theorem length_takeWhile_le (p : Place) (keep : Char → Bool) :
    (p.takeWhile keep).2.rest.length ≤ p.rest.length := by
  have := length_takeWhile p keep
  omega

theorem length_of_eat? {p q : Place} {c : Char} (h : p.eat? c = some q) :
    q.rest.length + 1 = p.rest.length := by
  simp only [eat?] at h
  split at h
  · simp at h
  · rename_i d rest heq
    split at h
    · cases h
      simp [heq]
    · simp at h

end Place

end Formula
