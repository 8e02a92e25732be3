import Formula.Proofs.Token.Row

/-!
# Blanks around and between words

Nothing is cut off a text without blanks. The blanks at the two ends of a line have no part in its
words, and words that were put together with a space between them come apart again where they were
joined.

## Main results

* `isBlank_of_continuesName`: no character of a name is a blank
* `trimList_eq_self`: nothing is cut off a text without blanks
* `words_trim`: a text has the same words without the blanks at its ends
* `words_intercalate`: words that are put together come apart again
-/

namespace Formula.Text

variable {cs : List Char}

/-! ## Characters that are no blanks -/

/-- A text is looked through for blanks. -/
theorem forall_not_isBlank (h : cs.all (fun c => !isBlank c) = true) :
    ∀ c ∈ cs, isBlank c = false := by
  simpa using h

/-- The code points of the blanks. -/
def blankPoints : List Nat :=
  [9, 10, 11, 12, 13, 0x20, 0x85, 0xA0, 0x1680, 0x2000, 0x2001, 0x2002, 0x2003, 0x2004, 0x2005,
    0x2006, 0x2007, 0x2008, 0x2009, 0x200A, 0x2028, 0x2029, 0x202F, 0x205F, 0x3000]

theorem mem_blankPoints {c : Char} (h : isBlank c = true) : c.toNat ∈ blankPoints := by
  simp only [isBlank, Bool.or_eq_true, Bool.and_eq_true, decide_eq_true_eq, beq_iff_eq] at h
  simp only [blankPoints, List.mem_cons, List.not_mem_nil, or_false]
  omega

theorem covers_alphanumericRanges_of_mem_blankPoints :
    ∀ n ∈ blankPoints, alphanumericRanges.covers n = false := by
  decide +kernel

theorem isBlank_of_isAlphanum {c : Char} (h : c.isAlphanum = true) : isBlank c = false := by
  rw [Char.isAlphanum, Bool.or_eq_true, isAlpha_iff_toNat, Char.isDigit_iff_toNat] at h
  have hdigits : '0'.toNat = 48 ∧ '9'.toNat = 57 := ⟨rfl, rfl⟩
  simp only [isBlank, Bool.or_eq_false_iff, Bool.and_eq_false_iff, decide_eq_false_iff_not,
    beq_eq_false_iff_ne]
  omega

theorem isBlank_of_isDigit {c : Char} (h : c.isDigit = true) : isBlank c = false :=
  isBlank_of_isAlphanum (by rw [Char.isAlphanum, h, Bool.or_true])

/-- No character of a name is a blank. -/
theorem isBlank_of_continuesName {c : Char} (h : continuesName c = true) : isBlank c = false := by
  rw [continuesName, isAlphanumeric, Bool.or_eq_true, Bool.or_eq_true, Bool.and_eq_true,
    beq_iff_eq] at h
  rcases h with (h | ⟨-, h⟩) | rfl
  · exact isBlank_of_isAlphanum h
  · rw [← Bool.not_eq_true]
    intro hblank
    have := covers_alphanumericRanges_of_mem_blankPoints _ (mem_blankPoints hblank)
    exact Bool.false_ne_true (this.symm.trans h)
  · rfl

/-! ## Cutting blanks off -/

/-- Nothing is cut off a text without blanks. -/
theorem trimList_eq_self (h : ∀ c ∈ cs, isBlank c = false) : trimList cs = cs := by
  have hdrop : ∀ ds : List Char, (∀ c ∈ ds, isBlank c = false) → ds.dropWhile isBlank = ds := by
    rintro (_ | ⟨d, ds⟩) hds
    · rfl
    · exact List.dropWhile_cons_of_neg (by simp [hds d])
  rw [trimList, hdrop cs h, hdrop _ (by simpa using h), List.reverse_reverse]

/-- What is cut off at the two ends is a row of blanks at each. -/
theorem exists_trimList (cs : List Char) : ∃ front back : List Char,
    cs = front ++ (trimList cs ++ back) ∧ (∀ c ∈ front, isBlank c = true) ∧
      ∀ c ∈ back, isBlank c = true := by
  obtain ⟨rest, hrest⟩ : ∃ rest, rest = (cs.dropWhile isBlank).reverse := ⟨_, rfl⟩
  have hfront : cs.takeWhile isBlank ++ rest.reverse = cs := by
    rw [hrest, List.reverse_reverse, List.takeWhile_append_dropWhile]
  have hback : (rest.dropWhile isBlank).reverse ++ (rest.takeWhile isBlank).reverse =
      rest.reverse := by
    rw [← List.reverse_append, List.takeWhile_append_dropWhile]
  refine ⟨cs.takeWhile isBlank, (rest.takeWhile isBlank).reverse, ?_,
    List.all_eq_true.mp List.all_takeWhile,
    fun c hc => List.all_eq_true.mp List.all_takeWhile c (List.mem_reverse.mp hc)⟩
  rw [trimList, ← hrest, hback, hfront]

/-! ## Words -/

theorem wordsFrom_cons_of_blank {c : Char} (hc : isBlank c = true) (word cs : List Char) :
    wordsFrom word (c :: cs) = wordsFrom word [] ++ wordsFrom [] cs := by
  simp only [wordsFrom, hc, if_true]
  split <;> rfl

theorem wordsFrom_cons_of_not_blank {c : Char} (hc : isBlank c = false) (word cs : List Char) :
    wordsFrom word (c :: cs) = wordsFrom (c :: word) cs := by
  simp only [wordsFrom, hc, Bool.false_eq_true, if_false]

/-- A blank ends a word. -/
theorem wordsFrom_append_of_blank {c : Char} (hc : isBlank c = true) (word cs ds : List Char) :
    wordsFrom word (cs ++ c :: ds) = wordsFrom word cs ++ wordsFrom [] ds := by
  induction cs generalizing word with
  | nil => exact wordsFrom_cons_of_blank hc word ds
  | cons d cs ih =>
    rw [List.cons_append]
    cases hd : isBlank d with
    | false => rw [wordsFrom_cons_of_not_blank hd, wordsFrom_cons_of_not_blank hd, ih]
    | true =>
      rw [wordsFrom_cons_of_blank hd, wordsFrom_cons_of_blank hd, ih, List.append_assoc]

/-- Characters without a blank go on with the word that is being read. -/
theorem wordsFrom_of_forall (hcs : ∀ c ∈ cs, isBlank c = false) (word : List Char) :
    wordsFrom word cs = wordsFrom (cs.reverse ++ word) [] := by
  induction cs generalizing word with
  | nil => rfl
  | cons c cs ih =>
    obtain ⟨hc, hcs⟩ := List.forall_mem_cons.mp hcs
    rw [wordsFrom_cons_of_not_blank hc, ih hcs, List.reverse_cons, List.append_assoc,
      List.singleton_append]

/-- A text without blanks is its only word. -/
theorem wordsFrom_eq_singleton (hne : cs ≠ []) (hcs : ∀ c ∈ cs, isBlank c = false) :
    wordsFrom [] cs = [String.ofList cs] := by
  rw [wordsFrom_of_forall hcs, wordsFrom, if_neg (by simpa using hne), List.append_nil,
    List.reverse_reverse]

/-- Blanks before a text do not belong to its words. -/
theorem wordsFrom_blanks_append {front : List Char} (hfront : ∀ c ∈ front, isBlank c = true)
    (cs : List Char) : wordsFrom [] (front ++ cs) = wordsFrom [] cs := by
  induction front with
  | nil => rfl
  | cons c front ih =>
    obtain ⟨hc, hfront⟩ := List.forall_mem_cons.mp hfront
    rw [List.cons_append, wordsFrom_cons_of_blank hc, ih hfront]
    rfl

/-- Blanks behind a text do not belong to its words. -/
theorem wordsFrom_append_blanks {back : List Char} (hback : ∀ c ∈ back, isBlank c = true)
    (cs : List Char) : wordsFrom [] (cs ++ back) = wordsFrom [] cs := by
  cases back with
  | nil => rw [List.append_nil]
  | cons c back =>
    obtain ⟨hc, hback⟩ := List.forall_mem_cons.mp hback
    have hnone : wordsFrom [] back = [] := by
      simpa only [List.append_nil, wordsFrom, List.isEmpty_nil, if_true] using
        wordsFrom_blanks_append hback []
    rw [wordsFrom_append_of_blank hc, hnone, List.append_nil]

/-- A text has the same words without the blanks at its ends. -/
theorem words_trim (s : String) : words (trim s) = words s := by
  obtain ⟨front, back, htext, hfront, hback⟩ := exists_trimList s.toList
  rw [words, words, trim, String.toList_ofList]
  calc wordsFrom [] (trimList s.toList)
      = wordsFrom [] (trimList s.toList ++ back) := (wordsFrom_append_blanks hback _).symm
    _ = wordsFrom [] (front ++ (trimList s.toList ++ back)) :=
        (wordsFrom_blanks_append hfront _).symm
    _ = wordsFrom [] s.toList := by rw [← htext]

/-- Words that are put together with a space between them come apart again. -/
theorem words_intercalate {texts : List String} (hne : ∀ t ∈ texts, t ≠ "")
    (hblank : ∀ t ∈ texts, ∀ c ∈ t.toList, isBlank c = false) :
    words (" ".intercalate texts) = texts := by
  have hword : ∀ t ∈ texts, wordsFrom [] t.toList = [t] := fun t ht => by
    rw [wordsFrom_eq_singleton (by simpa using hne t ht) (hblank t ht), String.ofList_toList]
  induction texts with
  | nil => rfl
  | cons t texts ih =>
    obtain ⟨ht, htexts⟩ := List.forall_mem_cons.mp hword
    cases texts with
    | nil => rw [String.intercalate_singleton, words, ht]
    | cons t' texts =>
      rw [String.intercalate_cons_cons, words, String.toList_append, String.toList_append,
        List.append_assoc, show " ".toList = [' '] from rfl, List.singleton_append,
        wordsFrom_append_of_blank rfl, ht, List.singleton_append]
      exact congrArg (t :: ·) (ih (List.forall_mem_cons.mp hne).2
        (List.forall_mem_cons.mp hblank).2 htexts)

end Formula.Text
