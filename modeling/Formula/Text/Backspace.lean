import Formula.Text.Grapheme

/-!
# Backspaces

What is left of a typed line when each backspace takes the character before it away. A character is
here a grapheme cluster: a letter goes with its marks.

## Main definitions

* `Typed`: what is left so far.
* `Typed.append`, `Typed.erase`: the effect of a cluster and of a backspace.
* `applyBackspaces`: what is left of a line.

## Main results

* `Typed.erase_append`: a backspace undoes the cluster before it, if that has at most 255 bytes.
* `applyBackspaces_eq_self`: a line without backspaces is left as it is.
-/

namespace Formula.Text

/-- The length of a text in bytes. -/
def byteLength (cs : List Char) : Nat :=
  cs.foldr (fun c n => c.utf8Size + n) 0

@[simp] theorem byteLength_nil : byteLength [] = 0 := rfl

@[simp] theorem byteLength_cons (c : Char) (cs : List Char) :
    byteLength (c :: cs) = c.utf8Size + byteLength cs := rfl

@[simp] theorem byteLength_append (cs ds : List Char) :
    byteLength (cs ++ ds) = byteLength cs + byteLength ds := by
  induction cs with
  | nil => simp
  | cons c cs ih => simp [ih, Nat.add_assoc]

@[simp] theorem byteLength_reverse (cs : List Char) : byteLength cs.reverse = byteLength cs := by
  induction cs with
  | nil => rfl
  | cons c cs ih => simp [ih, Nat.add_comm]

/-- The characters without the first ones that fill `n` bytes; a character in which the count ends
goes too. -/
def dropBytes (n : Nat) : List Char → List Char
  | [] => []
  | c :: cs => if n = 0 then c :: cs else dropBytes (n - c.utf8Size) cs

@[simp] theorem dropBytes_zero (cs : List Char) : dropBytes 0 cs = cs := by
  cases cs <;> simp [dropBytes]

theorem dropBytes_byteLength_append (cs ds : List Char) :
    dropBytes (byteLength cs) (cs ++ ds) = ds := by
  induction cs with
  | nil => simp
  | cons c cs ih =>
    have hc := c.utf8Size_pos
    rw [byteLength_cons, List.cons_append, dropBytes, if_neg (by omega), Nat.add_sub_cancel_left,
      ih]

/-- What is left of a line so far. -/
structure Typed where
  /-- The characters, the last one first. -/
  text : List Char := []
  /-- The sizes of the clusters in bytes, the last one first; a size is kept in one byte. -/
  sizes : List UInt8 := []
deriving Repr, DecidableEq, Inhabited

/-- A cluster is typed. -/
def Typed.append (t : Typed) (cluster : List Char) : Typed where
  text := cluster.reverse ++ t.text
  sizes := (byteLength cluster).toUInt8 :: t.sizes

/-- A backspace is typed: the last cluster goes, that is, as many bytes as its size says. -/
def Typed.erase (t : Typed) : Typed :=
  match t.sizes with
  | [] => t
  | size :: sizes => ⟨dropBytes size.toNat t.text, sizes⟩

theorem Typed.erase_append {t : Typed} {cluster : List Char} (h : byteLength cluster < 256) :
    (t.append cluster).erase = t := by
  have hs : (byteLength cluster).toUInt8.toNat = byteLength cluster.reverse := by
    rw [byteLength_reverse, UInt8.toNat_ofNat', Nat.mod_eq_of_lt h]
  simp only [append, erase, hs, dropBytes_byteLength_append]

/-- A cluster or a backspace is typed. -/
def Typed.key (t : Typed) (cluster : List Char) : Typed :=
  if cluster = ['\x08'] then t.erase else t.append cluster

/-- What is left of a line when its backspaces are applied. -/
def applyBackspaces (line : String) : String :=
  String.ofList ((graphemes line.toList).foldl Typed.key {}).text.reverse

theorem text_foldl_key {clusters : List (List Char)} (h : ['\x08'] ∉ clusters) (t : Typed) :
    (clusters.foldl Typed.key t).text.reverse = t.text.reverse ++ clusters.flatten := by
  induction clusters generalizing t with
  | nil => simp
  | cons cluster clusters ih =>
    rw [List.mem_cons, not_or] at h
    rw [List.foldl_cons, ih h.2, Typed.key, if_neg (Ne.symm h.1)]
    simp [Typed.append]

theorem applyBackspaces_eq_self {line : String} (h : '\x08' ∉ line.toList) :
    applyBackspaces line = line := by
  have hc : ['\x08'] ∉ graphemes line.toList := fun hm =>
    h (flatten_graphemes line.toList ▸ List.mem_flatten_of_mem hm (List.mem_singleton_self _))
  simp [applyBackspaces, text_foldl_key hc]

end Formula.Text
