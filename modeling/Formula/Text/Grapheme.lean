import Formula.Text.GraphemeClass

/-!
# Grapheme clusters

The division of a text into extended grapheme clusters: a letter with its marks, a syllable, a flag,
a group of joined pictographs.

## Main definitions

* `joins`: whether a character continues a cluster.
* `Division`: a text divided so far.
* `graphemes`: the clusters of a text.

## Main results

* `flatten_graphemes`: the clusters join to the text.
* `nil_notMem_graphemes`: no cluster is empty.
-/

namespace Formula.Text

/-- Whether the characters, the last one first, end in a pictograph and marks on it. -/
def endsInPictograph (before : List Char) : Bool :=
  ((before.dropWhile fun c => GraphemeClass.ofChar c == .extend).head?.map GraphemeClass.ofChar) ==
    some .pictographic

/-- Whether the characters, the last one first, end in a consonant and signs of which one or more
are linkers. -/
def endsInLinkedConsonant (before : List Char) : Bool :=
  (before.takeWhile linksThrough).any isLinker &&
    ((before.dropWhile linksThrough).head?.map GraphemeClass.ofChar) == some .consonant

/-- Whether the characters, the last one first, end in a half of a flag that lacks its other
half. -/
def endsInHalfFlag (before : List Char) : Bool :=
  (before.takeWhile fun c => GraphemeClass.ofChar c == .regionalIndicator).length % 2 == 1

/-- Whether `next` continues the cluster that ends in `last`, where `before` are the characters of
the cluster ahead of `last`, from its end. -/
def joins (before : List Char) (last next : Char) : Bool :=
  match GraphemeClass.ofChar last, GraphemeClass.ofChar next with
  | .carriageReturn, .lineFeed => true
  | .carriageReturn, _ | .lineFeed, _ | .control, _ => false
  | _, .carriageReturn | _, .lineFeed | _, .control => false
  | .leading, .leading | .leading, .vowel | .leading, .openSyllable
  | .leading, .closedSyllable => true
  | .openSyllable, .vowel | .openSyllable, .trailing | .vowel, .vowel | .vowel, .trailing => true
  | .closedSyllable, .trailing | .trailing, .trailing => true
  | _, .extend | _, .zeroWidthJoiner | _, .spacingMark => true
  | .prepend, _ => true
  | _, .consonant => endsInLinkedConsonant (last :: before)
  | .zeroWidthJoiner, .pictographic => endsInPictograph before
  | .regionalIndicator, .regionalIndicator => endsInHalfFlag (last :: before)
  | _, _ => false

/-- A text divided so far. -/
structure Division where
  /-- The complete clusters, the last one first. -/
  finished : List (List Char) := []
  /-- The cluster that the next character may continue, its last character first. -/
  current : List Char := []
deriving Repr, DecidableEq, Inhabited

/-- The text that was divided. -/
def Division.text (d : Division) : List Char :=
  d.finished.reverse.flatten ++ d.current.reverse

/-- All clusters, the last one first, when no character follows. -/
def Division.clusters (d : Division) : List (List Char) :=
  if d.current.isEmpty then d.finished else d.current.reverse :: d.finished

/-- One more character. -/
def Division.push (d : Division) (c : Char) : Division :=
  match d.current with
  | [] => ⟨d.finished, [c]⟩
  | last :: before =>
    if joins before last c then ⟨d.finished, c :: last :: before⟩
    else ⟨(last :: before).reverse :: d.finished, [c]⟩

@[simp] theorem Division.text_push (d : Division) (c : Char) : (d.push c).text = d.text ++ [c] := by
  obtain ⟨finished, current⟩ := d
  cases current with
  | nil => simp [push, text]
  | cons last before => by_cases h : joins before last c <;> simp [push, text, h]

theorem Division.text_foldl_push (d : Division) (cs : List Char) :
    (cs.foldl push d).text = d.text ++ cs := by
  induction cs generalizing d with
  | nil => simp
  | cons c cs ih => simp [ih]

@[simp] theorem Division.flatten_reverse_clusters (d : Division) :
    d.clusters.reverse.flatten = d.text := by
  obtain ⟨finished, current⟩ := d
  cases current <;> simp [clusters, text]

theorem Division.nil_notMem_finished_push {d : Division} (h : [] ∉ d.finished) (c : Char) :
    [] ∉ (d.push c).finished := by
  obtain ⟨finished, current⟩ := d
  cases current with
  | nil => simpa [push] using h
  | cons last before => by_cases hj : joins before last c <;> simpa [push, hj] using h

theorem Division.nil_notMem_finished_foldl_push {d : Division} (h : [] ∉ d.finished)
    (cs : List Char) : [] ∉ (cs.foldl push d).finished := by
  induction cs generalizing d with
  | nil => exact h
  | cons c cs ih => exact ih (nil_notMem_finished_push h c)

/-- The extended grapheme clusters of a text. -/
def graphemes (cs : List Char) : List (List Char) :=
  (cs.foldl Division.push {}).clusters.reverse

@[simp] theorem flatten_graphemes (cs : List Char) : (graphemes cs).flatten = cs := by
  rw [graphemes, Division.flatten_reverse_clusters, Division.text_foldl_push]
  simp [Division.text]

@[simp] theorem nil_notMem_graphemes (cs : List Char) : [] ∉ graphemes cs := by
  have h : [] ∉ (cs.foldl Division.push {}).finished :=
    Division.nil_notMem_finished_foldl_push List.not_mem_nil cs
  rw [graphemes, List.mem_reverse, Division.clusters]
  split
  · exact h
  · rename_i hc
    simpa using ⟨by simpa using hc, h⟩

end Formula.Text
