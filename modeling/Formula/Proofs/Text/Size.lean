import Formula.Package.Search
import Formula.Proofs.Text.Blank
import Formula.Text.LetterCase
import Mathlib.Algebra.GroupWithZero.Nat

/-!
# The bytes of texts

How many bytes a text has that is put in another letter case, freed of the blanks at its ends, repeated,
or searched for another text that is replaced.

## Main definitions

* `upperBytes`, `lowerBytes`: what the characters of a text come to in another letter case
* `occurrences old text`: how often a text occurs in another one, from the left and without overlap

## Main results

* `size_toUpper`, `size_toLower`: the letter cases, of which the final sigma takes no other bytes
* `size_toUpper_le`, `size_toLower_le`: how much longer a text gets in another letter case
* `size_trim_le`: no text gets longer without its blanks
* `size_repeatText`: a text several times
* `size_replaceAll`: a replacement trades the bytes of each occurrence for its own
-/

namespace Formula.Text

/-- The bytes of a text are those of its characters. -/
theorem size_ofList (cs : List Char) : (String.ofList cs).utf8ByteSize = byteLength cs := by
  rw [← byteLength_toList, String.toList_ofList]

theorem byteLength_replicate (n : Nat) (c : Char) :
    byteLength (List.replicate n c) = n * c.utf8Size := by
  induction n with
  | zero => rw [Nat.zero_mul, List.replicate_zero, byteLength_nil]
  | succ n ih => rw [List.replicate_succ, byteLength_cons, ih, Nat.succ_mul, Nat.add_comm]

/-! ## Letter cases -/

/-- The bytes of the upper cases of the characters. -/
def upperBytes (s : String) : Nat :=
  (s.toList.map fun c => byteLength (upperOf c)).sum

/-- The bytes of the lower cases of the characters, each out of context. -/
def lowerBytes (s : String) : Nat :=
  (s.toList.map fun c => byteLength (lowerOf c)).sum

theorem size_toUpper (s : String) : (toUpper s).utf8ByteSize = upperBytes s := by
  have hflat : ∀ cs : List Char, byteLength (cs.flatMap upperOf) =
      (cs.map fun c => byteLength (upperOf c)).sum := by
    intro cs
    induction cs with
    | nil => rfl
    | cons c cs ih =>
      rw [List.flatMap_cons, byteLength_append, ih, List.map_cons, List.sum_cons]
  rw [toUpper, size_ofList, hflat, upperBytes]

/-- The two lower cases of a capital sigma have equally many bytes. -/
theorem byteLength_lowerOf_sigma :
    byteLength (lowerOf (Char.ofNat 0x3A3)) = (Char.ofNat 0x3C3).utf8Size ∧
      (Char.ofNat 0x3C2).utf8Size = (Char.ofNat 0x3C3).utf8Size := by
  decide +kernel

/-- The lower case of a character has the same bytes in every context. -/
theorem byteLength_lowerAfter (before cs : List Char) :
    byteLength (lowerAfter before cs) = (cs.map fun c => byteLength (lowerOf c)).sum := by
  induction cs generalizing before with
  | nil => rfl
  | cons c cs ih =>
    rw [lowerAfter, byteLength_append, ih, List.map_cons, List.sum_cons, Nat.add_right_cancel_iff]
    -- only for a capital sigma does the context matter
    split
    · rename_i hc
      obtain ⟨hsigma, hfinal⟩ := byteLength_lowerOf_sigma
      rw [← Char.ofNat_toNat c, hc, hsigma]
      split
      · rw [byteLength_cons, byteLength_nil, hfinal, Nat.add_zero]
      · rw [byteLength_cons, byteLength_nil, Nat.add_zero]
    · rfl

theorem size_toLower (s : String) : (toLower s).utf8ByteSize = lowerBytes s := by
  rw [toLower, size_ofList, byteLength_lowerAfter, lowerBytes]

/-! ## How much longer letter cases are -/

/-- What a character beyond ASCII is mapped to: the expansion of a table, the partner in a run, or
itself. -/
theorem mapBeyondAscii_cases (expansions : List (Nat × List Nat)) (runs : List CaseRun) (c : Char) :
    (∃ ns, (c.toNat, ns) ∈ expansions ∧ mapBeyondAscii expansions runs c = ns.map Char.ofNat) ∨
    (∃ run ∈ runs, ∃ n, run.partner? c.toNat = some n ∧
      mapBeyondAscii expansions runs c = [Char.ofNat n]) ∨
    mapBeyondAscii expansions runs c = [c] := by
  rw [mapBeyondAscii]
  split
  · rename_i ns hns
    obtain ⟨before, after, hsplit, -⟩ := List.lookup_eq_some_iff.mp hns
    exact .inl ⟨ns, by simp [hsplit], rfl⟩
  · split
    · rename_i n hn
      obtain ⟨run, hrun, hpartner⟩ := List.exists_of_findSome?_eq_some hn
      exact .inr (.inl ⟨run, hrun, n, hpartner, rfl⟩)
    · exact .inr (.inr rfl)

/-- The expansions of the tables take at most three times the bytes, and one and a half times. -/
theorem byteLength_expansions :
    (∀ p ∈ upperExpansions, byteLength (p.2.map Char.ofNat) ≤ 3 * (Char.ofNat p.1).utf8Size) ∧
    ∀ p ∈ lowerExpansions, 2 * byteLength (p.2.map Char.ofNat) ≤ 3 * (Char.ofNat p.1).utf8Size := by
  decide +kernel

/-- A letter of ASCII stays one. -/
theorem utf8Size_case_of_ascii :
    ∀ n < 0x80, (Char.ofNat n).toUpper.utf8Size = 1 ∧ (Char.ofNat n).toLower.utf8Size = 1 := by
  decide +kernel

/-- A lower case of a character of at most two bytes has at most three. -/
theorem lowerRuns_short :
    ∀ run ∈ lowerRuns, run.first < 0x800 → (run.last : Int) + run.shift < 0x10000 := by
  decide +kernel

/-- The bytes of a character, by its code point. -/
theorem utf8Size_eq (c : Char) : c.utf8Size =
    if c.toNat ≤ 0x7F then 1 else if c.toNat ≤ 0x7FF then 2
    else if c.toNat ≤ 0xFFFF then 3 else 4 := by
  simp only [Char.utf8Size, UInt32.le_iff_toNat_le, Char.toNat]
  rfl

theorem two_le_utf8Size {c : Char} (h : ¬ c.toNat < 0x80) : 2 ≤ c.utf8Size := by
  rw [utf8Size_eq]
  grind

theorem three_le_utf8Size {c : Char} (h : 0x800 ≤ c.toNat) : 3 ≤ c.utf8Size := by
  rw [utf8Size_eq]
  grind

theorem utf8Size_ofNat_le_three {n : Nat} (h : n < 0x10000) : (Char.ofNat n).utf8Size ≤ 3 := by
  have hle : (Char.ofNat n).toNat ≤ 0xFFFF := by
    by_cases hn : n.isValidChar
    · have heq : Char.ofNat n = Char.ofNatAux n hn := dif_pos hn
      rw [heq]
      exact Nat.le_of_lt_succ h
    · have heq : Char.ofNat n = Char.ofNat 0 := dif_neg hn
      rw [heq]
      decide
  rw [utf8Size_eq]
  grind

/-- **An upper case takes at most three times the bytes.** -/
theorem byteLength_upperOf_le (c : Char) : byteLength (upperOf c) ≤ 3 * c.utf8Size := by
  rw [upperOf]
  split
  · rename_i hc
    have hone := (utf8Size_case_of_ascii c.toNat hc).1
    rw [Char.ofNat_toNat] at hone
    rw [byteLength_cons, byteLength_nil, hone]
    have := c.utf8Size_pos
    omega
  · rename_i hc
    have htwo := two_le_utf8Size hc
    rcases mapBeyondAscii_cases upperExpansions upperRuns c with ⟨ns, hns, heq⟩ |
      ⟨-, -, n, -, heq⟩ | heq
    · have hbytes := byteLength_expansions.1 _ hns
      rw [Char.ofNat_toNat] at hbytes
      rw [heq]
      exact hbytes
    · have := (Char.ofNat n).utf8Size_le_four
      rw [heq, byteLength_cons, byteLength_nil]
      omega
    · rw [heq, byteLength_cons, byteLength_nil]
      omega

/-- **A lower case takes at most one and a half times the bytes.** -/
theorem byteLength_lowerOf_le (c : Char) : 2 * byteLength (lowerOf c) ≤ 3 * c.utf8Size := by
  rw [lowerOf]
  split
  · rename_i hc
    have hone := (utf8Size_case_of_ascii c.toNat hc).2
    rw [Char.ofNat_toNat] at hone
    rw [byteLength_cons, byteLength_nil, hone]
    have := c.utf8Size_pos
    omega
  · rename_i hc
    have htwo := two_le_utf8Size hc
    rcases mapBeyondAscii_cases lowerExpansions lowerRuns c with ⟨ns, hns, heq⟩ |
      ⟨run, hrun, n, hpartner, heq⟩ | heq
    · have hbytes := byteLength_expansions.2 _ hns
      rw [Char.ofNat_toNat] at hbytes
      rw [heq]
      exact hbytes
    · rw [heq, byteLength_cons, byteLength_nil]
      -- two bytes may become three, and four are never too many for a character of three
      rcases Nat.lt_or_ge c.toNat 0x800 with hlt | hge
      · have hthree : (Char.ofNat n).utf8Size ≤ 3 := by
          rw [CaseRun.partner?] at hpartner
          split at hpartner
          · rename_i hreach
            obtain rfl := Option.some.inj hpartner
            have hshort := lowerRuns_short run hrun (Nat.lt_of_le_of_lt hreach.1 hlt)
            exact utf8Size_ofNat_le_three (by omega)
          · cases hpartner
        omega
      · have hthree := three_le_utf8Size hge
        have := (Char.ofNat n).utf8Size_le_four
        omega
    · rw [heq, byteLength_cons, byteLength_nil]
      omega

section

variable {f : Char → List Char} {a b : Nat}

/-- What holds of the bytes of each character holds of those of a text. -/
theorem mul_sum_byteLength_le (h : ∀ c, a * byteLength (f c) ≤ b * c.utf8Size) (cs : List Char) :
    a * (cs.map fun c => byteLength (f c)).sum ≤ b * byteLength cs := by
  induction cs with
  | nil => exact Nat.le_refl _
  | cons c cs ih =>
    have := h c
    rw [List.map_cons, List.sum_cons, byteLength_cons, Nat.mul_add, Nat.mul_add]
    omega

end

/-- **No text gets more than three times as long in upper case.** -/
theorem size_toUpper_le (s : String) : (toUpper s).utf8ByteSize ≤ 3 * s.utf8ByteSize := by
  have hle (c : Char) : 1 * byteLength (upperOf c) ≤ 3 * c.utf8Size := by
    rw [Nat.one_mul]
    exact byteLength_upperOf_le c
  have hsum := mul_sum_byteLength_le hle s.toList
  rw [Nat.one_mul, byteLength_toList] at hsum
  rw [size_toUpper]
  exact hsum

/-- **No text gets more than one and a half times as long in lower case.** -/
theorem size_toLower_le (s : String) : 2 * (toLower s).utf8ByteSize ≤ 3 * s.utf8ByteSize := by
  have hsum := mul_sum_byteLength_le byteLength_lowerOf_le s.toList
  rw [byteLength_toList] at hsum
  rw [size_toLower]
  exact hsum

/-! ## Blanks -/

/-- No text gets longer without the blanks at its ends. -/
theorem size_trim_le (s : String) : (trim s).utf8ByteSize ≤ s.utf8ByteSize := by
  obtain ⟨front, back, hs, -, -⟩ := exists_trimList s.toList
  have hbytes := congrArg byteLength hs
  rw [byteLength_append, byteLength_append, byteLength_toList] at hbytes
  rw [trim, size_ofList]
  omega

/-! ## Repeating and replacing -/

theorem size_repeatText (s : String) (n : Nat) :
    (repeatText s n).utf8ByteSize = s.utf8ByteSize * n := by
  rw [repeatText]
  split
  · rename_i hempty
    rw [String.isEmpty_iff.mp hempty, String.utf8ByteSize_empty, Nat.zero_mul]
  · rw [utf8ByteSize_repeatAfter, String.utf8ByteSize_empty, Nat.zero_add, Nat.mul_comm]

/-- How often a text that is not empty occurs in another one, from the left and without overlap. -/
def occurrencesFrom (first : Char) (more cs : List Char) : Nat :=
  match cs with
  | [] => 0
  | c :: rest =>
    match h : dropStart? (first :: more) (c :: rest) with
    | some left =>
      have : left.length < rest.length + 1 := by
        have := congrArg List.length (eq_of_dropStart? h)
        simp at this
        omega
      occurrencesFrom first more left + 1
    | none => occurrencesFrom first more rest
termination_by cs.length

/-- How often a text occurs in another one, from the left and without overlap. The empty text occurs
before every character and at the end. -/
def occurrences (old text : String) : Nat :=
  match old.toList with
  | [] => text.length + 1
  | first :: more => occurrencesFrom first more text.toList

section

variable {first : Char} {more rest left : List Char} {c : Char}

theorem occurrencesFrom_of_some (h : dropStart? (first :: more) (c :: rest) = some left) :
    occurrencesFrom first more (c :: rest) = occurrencesFrom first more left + 1 := by
  rw [occurrencesFrom]
  split
  · rename_i hsome
    obtain rfl := Option.some.inj (hsome.symm.trans h)
    rfl
  · rename_i hnone
    cases hnone.symm.trans h

theorem occurrencesFrom_of_none (h : dropStart? (first :: more) (c :: rest) = none) :
    occurrencesFrom first more (c :: rest) = occurrencesFrom first more rest := by
  rw [occurrencesFrom]
  split
  · rename_i hsome
    cases hsome.symm.trans h
  · rfl

end

theorem byteLength_replaceFrom (first : Char) (more replacement cs : List Char) :
    byteLength (replaceFrom first more replacement cs) +
        occurrencesFrom first more cs * byteLength (first :: more) =
      byteLength cs + occurrencesFrom first more cs * byteLength replacement := by
  fun_induction replaceFrom first more replacement cs with
  | case1 => rw [occurrencesFrom, Nat.zero_mul, Nat.zero_mul]
  | case2 c rest left hdrop _ ih =>
    -- the occurrence at the head is one more, and what is left of it is behind `first :: more`
    rw [occurrencesFrom_of_some hdrop, eq_of_dropStart? hdrop, byteLength_append,
      byteLength_append, Nat.succ_mul, Nat.succ_mul]
    omega
  | case3 c rest hdrop ih =>
    -- a character that begins no occurrence stays on both sides
    rw [occurrencesFrom_of_none hdrop, byteLength_cons c, byteLength_cons c]
    omega

theorem byteLength_interleave (replacement cs : List Char) :
    byteLength (interleave replacement cs) =
      byteLength cs + (cs.length + 1) * byteLength replacement := by
  induction cs with
  | nil => rw [interleave, byteLength_nil, List.length_nil, Nat.zero_add, Nat.zero_add, Nat.one_mul]
  | cons c cs ih =>
    rw [interleave, byteLength_append, byteLength_cons, byteLength_cons, ih, List.length_cons,
      Nat.succ_mul (cs.length + 1)]
    omega

/-- **A replacement trades the bytes of each occurrence for its own.** -/
theorem size_replaceAll (text old replacement : String) :
    (replaceAll text old replacement).utf8ByteSize + occurrences old text * old.utf8ByteSize =
      text.utf8ByteSize + occurrences old text * replacement.utf8ByteSize := by
  rw [replaceAll, size_ofList, occurrences, ← byteLength_toList old, ← byteLength_toList text,
    ← byteLength_toList replacement]
  cases old.toList with
  | nil =>
    dsimp only
    rw [byteLength_interleave, byteLength_nil, Nat.mul_zero, Nat.add_zero, String.length_toList]
  | cons first more => exact byteLength_replaceFrom first more replacement.toList text.toList

end Formula.Text
