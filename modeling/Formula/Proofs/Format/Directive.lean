import Formula.Package.Format
import Formula.Proofs.Decimal.Numeral

/-!
# Directives

What a format that is one directive is read as, and what it makes of one argument.

## Main definitions

* `Spec.flagged`: the flags of a directive, as they are written
* `directive flags width verb`: a directive with flags, a width and a verb

## Main results

* `readDirective?_directive`: a directive is read as it was written
* `sprintf_eq`: a format that is one directive formats its argument
* `Spec.length_pad`: a text is filled up to the width
-/

namespace Formula.Format

open Decimal

/-! ## Reading a directive -/

/-- The directive with the given flags as well. -/
def Spec.flagged (s : Spec) (flags : List Char) : Spec :=
  { s with
    minus := s.minus || flags.contains '-'
    plus := s.plus || flags.contains '+'
    space := s.space || flags.contains ' '
    zero := s.zero || flags.contains '0' }

/-- Whether a character is a flag. -/
def isFlag (c : Char) : Bool :=
  c == '-' || c == '+' || c == ' ' || c == '0'

theorem isFlag_eq_false {c : Char} (hdigit : c.isDigit = true) (hzero : c ≠ '0') :
    isFlag c = false := by
  simp only [isFlag, Bool.or_eq_false_iff, beq_eq_false_iff_ne]
  refine ⟨⟨⟨?_, ?_⟩, ?_⟩, hzero⟩ <;>
    · rintro rfl
      exact absurd hdigit (by decide)

/-- **Flags are read up to the first character that is none.** -/
theorem readFlags_append (s : Spec) {flags rest : List Char} (hflags : ∀ c ∈ flags, isFlag c = true)
    (hrest : ∀ c ∈ rest.head?, isFlag c = false) :
    readFlags s (flags ++ rest) = (s.flagged flags, rest) := by
  induction flags generalizing s with
  | nil =>
    rcases rest with _ | ⟨c, rest⟩
    · simp [readFlags, Spec.flagged]
    · have hc := hrest c rfl
      rw [List.nil_append, readFlags.eq_def]
      split <;> simp_all [isFlag, Spec.flagged]
  | cons c flags ih =>
    obtain ⟨hc, hmore⟩ := List.forall_mem_cons.mp hflags
    have hcases : c = '-' ∨ c = '+' ∨ c = ' ' ∨ c = '0' := by
      simpa [isFlag, or_assoc] using hc
    rcases hcases with rfl | rfl | rfl | rfl <;>
      rw [List.cons_append, readFlags, ih _ hmore] <;> simp [Spec.flagged]

/-- The number that has been read when the digits `ds` come behind the number `n`. -/
def extend (n : Nat) (ds : List Char) : Nat :=
  ds.foldl (fun n c => 10 * n + digitValue c) n

theorem le_extend (n : Nat) (ds : List Char) : n ≤ extend n ds := by
  induction ds generalizing n with
  | nil => exact Nat.le_refl n
  | cons c ds ih => exact Nat.le_trans (by omega) (ih (10 * n + digitValue c))

/-- **A number is read up to its last digit** if it does not get too large. -/
theorem readNumber?_append (n : Nat) {ds rest : List Char} (hds : ∀ c ∈ ds, c.isDigit = true)
    (hrest : ∀ c ∈ rest.head?, c.isDigit = false) (hle : extend n ds ≤ maxNumber) :
    readNumber? (some n) (ds ++ rest) = some (some (extend n ds), rest) := by
  induction ds generalizing n with
  | nil =>
    rcases rest with _ | ⟨c, rest⟩
    · rfl
    · simp [readNumber?, hrest c rfl, extend]
  | cons c ds ih =>
    obtain ⟨hc, hds⟩ := List.forall_mem_cons.mp hds
    have hn : ¬ maxNumber < n := Nat.not_lt.mpr ((le_extend n (c :: ds)).trans hle)
    rw [List.cons_append, readNumber?, if_pos hc, Option.getD_some, if_neg hn]
    exact ih (10 * n + digitValue c) hds hle

/-- How a width is written: a missing one is zero. -/
def widthText (width : Nat) : List Char :=
  if width = 0 then [] else Nat.toDigits 10 width

theorem readNumber?_widthText {width : Nat} (hwidth : width ≤ maxNumber) {rest : List Char}
    (hrest : ∀ c ∈ rest.head?, c.isDigit = false) :
    ∃ w, readNumber? none (widthText width ++ rest) = some (w, rest) ∧ w.getD 0 = width := by
  rw [widthText]
  split
  · rename_i hzero
    refine ⟨none, ?_, hzero.symm⟩
    rcases rest with _ | ⟨c, rest⟩
    · rfl
    · simp [readNumber?, hrest c rfl]
  · have hvalue : extend 0 (Nat.toDigits 10 width) = width := natOfDigits_toDigits width
    have hread := readNumber?_append 0 (fun c hc => isDigit_of_mem_toDigits hc) hrest
      (hvalue.trans_le hwidth)
    rw [hvalue] at hread
    -- a first digit makes no difference between no number and zero
    have hne : Nat.toDigits 10 width ≠ [] := Nat.toDigits_ne_nil
    obtain ⟨c, ds, hdigits⟩ := List.exists_cons_of_ne_nil hne
    have hc : c.isDigit = true := isDigit_of_mem_toDigits (hdigits ▸ List.mem_cons_self)
    refine ⟨some width, ?_, rfl⟩
    rw [← hread, hdigits, List.cons_append, readNumber?, readNumber?, if_pos hc, if_pos hc]
    rfl

/-- A directive with flags, a width and a verb; the width may be missing. -/
def directive (flags : List Char) (width : Nat) (verb : Char) : String :=
  String.ofList ('%' :: (flags ++ (widthText width ++ [verb])))

/-- A character that can be the verb of a directive. -/
def isVerb (c : Char) : Bool :=
  !isFlag c && !c.isDigit && c != '.' && c != '%'

/-- **A directive is read as it was written.** -/
theorem readDirective?_directive {flags : List Char} {width : Nat} (verb : Char)
    (hflags : ∀ c ∈ flags, isFlag c = true) (hwidth : width ≤ maxNumber)
    (hverb : isVerb verb = true) :
    ∃ w, readDirective? (flags ++ (widthText width ++ [verb])) =
      some ({ Spec.flagged {} flags with width := w }, verb, []) ∧ w.getD 0 = width := by
  simp only [isVerb, Bool.and_eq_true, Bool.not_eq_true', bne_iff_ne] at hverb
  obtain ⟨⟨⟨hflag, hdigit⟩, hpoint⟩, -⟩ := hverb
  -- the flags end before the width, which starts with no zero, or before the verb
  have hends : ∀ c ∈ (widthText width ++ [verb]).head?, isFlag c = false := by
    intro c hc
    rcases Nat.eq_zero_or_pos width with rfl | hpos
    · cases hc
      exact hflag
    · rw [widthText, if_neg hpos.ne', List.head?_append_of_ne_nil _ Nat.toDigits_ne_nil] at hc
      have hzero : c ≠ '0' := by
        rintro rfl
        have hvalue := natOfDigits_toDigits width
        rw [toDigits_eq_zero_of_head hc] at hvalue
        exact hpos.ne hvalue
      exact isFlag_eq_false (isDigit_of_mem_toDigits (List.mem_of_mem_head? hc)) hzero
  have hverb : ∀ c ∈ [verb].head?, c.isDigit = false := by
    rintro c ⟨⟩
    exact hdigit
  obtain ⟨w, hnumber, hw⟩ := readNumber?_widthText hwidth hverb
  have hprecision : readPrecision? [verb] = some (none, [verb]) := by
    rw [readPrecision?.eq_def]
    split <;> simp_all
  refine ⟨w, ?_, hw⟩
  simp only [readDirective?, readFlags_append {} hflags hends, hnumber, hprecision]
  rfl

/-! ## One directive -/

/-- **A format that is one directive formats its argument.** -/
theorem sprintf_eq {format : String} {cs : List Char} {s : Spec} {verb : Char} (v : Value)
    (hformat : format.toList = '%' :: cs) (hread : readDirective? cs = some (s, verb, []))
    (hverb : verb ≠ '%') : sprintf format [v] = formatValue s verb v := by
  have hpieces : pieces ('%' :: cs) [v] = ([formatValue s verb v], []) := by
    rw [pieces, if_pos rfl]
    split
    · rename_i hnone
      cases hread.symm.trans hnone
    · rename_i s' verb' rest' hsome
      cases hread.symm.trans hsome
      rw [if_neg hverb]
      simp [pieces]
  rw [sprintf, hformat, hpieces]
  simp [extraText]

/-! ## Filling up -/

namespace Spec

theorem splitSign_append (body : String) :
    (splitSign body).1.toList ++ (splitSign body).2.toList = body.toList := by
  unfold splitSign
  split <;> simp_all

/-- **What stands around a text that is filled up**: blanks behind it, zeros behind its sign, or
blanks before it. -/
theorem toList_pad (s : Spec) (body : String) : (s.pad body).toList =
    if s.minus then body.toList ++ List.replicate (s.width.getD 0 - body.length) ' '
    else if s.zero then (splitSign body).1.toList ++
      (List.replicate (s.width.getD 0 - body.length) '0' ++ (splitSign body).2.toList)
    else List.replicate (s.width.getD 0 - body.length) ' ' ++ body.toList := by
  rw [pad]
  split
  · rename_i hfill
    simp [hfill, splitSign_append]
  · split
    · simp [copies]
    · split <;> simp [copies]

/-- **A text is filled up to the width.** -/
theorem length_pad (s : Spec) (body : String) :
    (s.pad body).length = max (s.width.getD 0) body.length := by
  have hbody := congrArg List.length (splitSign_append body)
  rw [← String.length_toList, ← String.length_toList, toList_pad, ← String.length_toList]
  simp only [List.length_append] at hbody
  split
  · rw [List.length_append, List.length_replicate]
    omega
  · split
    · rw [List.length_append, List.length_append, List.length_replicate]
      omega
    · rw [List.length_append, List.length_replicate]
      omega

end Spec

end Formula.Format
