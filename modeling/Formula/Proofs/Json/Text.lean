import Formula.Json.Text
import Mathlib.Tactic.IntervalCases

/-!
# Texts read back

A text that was written between quotes is read as itself, whatever follows it.

## Main results

* `writeChar_cases`: an escape is read as the character it was written for
* `textAt_writeText`: so is a whole text
-/

namespace Formula.Json

variable {s : String} {c : Char} {cs rest : List Char}

/-- **What is read at the head of a text**: a value, and then `rest` is left. -/
def ReadsTo {ε α : Type} (read : Except ε (α × Rest cs)) (a : α) (rest : List Char) : Prop :=
  ∃ h, read = .ok (a, ⟨rest, h⟩)

/-- A control character is written as four hexadecimal digits, which are read as its number. -/
theorem readHex4_hexDigits {n : Nat} (hn : n < 32) (cs : List Char) :
    ReadsTo (readHex4 (List.replicate (4 - (Text.hexDigits n).length) '0' ++ Text.hexDigits n ++ cs))
      n cs := by
  have hdigits : ∃ a b, List.replicate (4 - (Text.hexDigits n).length) '0' ++ Text.hexDigits n =
      ['0', '0', a, b] ∧ hexValue? a = some (n / 16) ∧ hexValue? b = some (n % 16) := by
    interval_cases n <;> exact ⟨_, _, rfl, by decide, by decide⟩
  obtain ⟨a, b, htext, ha, hb⟩ := hdigits
  have hzero : hexValue? '0' = some 0 := by decide
  rw [htext]
  refine ⟨by simp only [List.cons_append, List.nil_append, List.length_cons]; omega, ?_⟩
  simp only [List.cons_append, List.nil_append, readHex4, hzero, ha, hb]
  congr 2
  omega

/-- An escape of one letter is read as what it stands for. -/
theorem readEscape_of_simple {d : Char} (h : simpleEscape? d = some c) (hu : d ≠ 'u')
    (cs : List Char) : ReadsTo (readEscape (d :: cs)) c cs := by
  refine ⟨Nat.lt_succ_self _, ?_⟩
  rw [readEscape]
  · simp only [h]
  · exact hu

/-- A control character is read from the escape that gives its number. -/
theorem readEscape_hexDigits (hc : isControl c = true) (cs : List Char) :
    ReadsTo (readEscape ('u' ::
      (List.replicate (4 - (Text.hexDigits c.toNat).length) '0' ++ Text.hexDigits c.toNat ++ cs))) c cs := by
  have hlt : c.toNat < 32 := by simpa [isControl] using hc
  obtain ⟨h, hread⟩ := readHex4_hexDigits hlt cs
  have htrail : isTrail c.toNat = false := by
    simp only [isTrail, Bool.and_eq_false_iff, decide_eq_false_iff_not]
    omega
  have hlead : isLead c.toNat = false := by
    simp only [isLead, Bool.and_eq_false_iff, decide_eq_false_iff_not]
    omega
  refine ⟨h.trans (Nat.lt_succ_self _), ?_⟩
  simp only [readEscape, hread, htrail, hlead, Bool.false_eq_true, if_false, Char.ofNat_toNat]
  rfl

/-- A character is written as itself, or as a backslash with an escape that is read as it. -/
theorem writeChar_cases (c : Char) :
    (writeChar c = [c] ∧ c ≠ '"' ∧ c ≠ '\\' ∧ isControl c = false) ∨
      ∃ ds, writeChar c = '\\' :: ds ∧ ∀ cs, ReadsTo (readEscape (ds ++ cs)) c cs := by
  have hsimple : ∀ d, simpleEscape? d = some c → d ≠ 'u' →
      ∃ ds, ['\\', d] = '\\' :: ds ∧ ∀ cs, ReadsTo (readEscape (ds ++ cs)) c cs :=
    fun d hd hu => ⟨[d], rfl, readEscape_of_simple hd hu⟩
  unfold writeChar
  split
  · subst_vars; exact .inr (hsimple _ rfl (by decide))
  split
  · subst_vars; exact .inr (hsimple _ rfl (by decide))
  split
  · subst_vars; exact .inr (hsimple _ rfl (by decide))
  split
  · subst_vars; exact .inr (hsimple _ rfl (by decide))
  split
  · subst_vars; exact .inr (hsimple _ rfl (by decide))
  split
  · subst_vars; exact .inr (hsimple _ rfl (by decide))
  split
  · subst_vars; exact .inr (hsimple _ rfl (by decide))
  split
  · rename_i hc
    exact .inr ⟨_, rfl, readEscape_hexDigits hc⟩
  · rename_i hquote hslash _ _ _ _ _ hc
    exact .inl ⟨rfl, hquote, hslash, by simpa using hc⟩

/-- **The characters of a text are read from the way they are written**, up to the closing quote. -/
theorem readFrom_writeChar (read : List Char) (ds : List Char) (rest : List Char) :
    ReadsTo (readFrom read (ds.flatMap writeChar ++ '"' :: rest)) (String.ofList (read.reverse ++ ds))
      rest := by
  induction ds generalizing read with
  | nil =>
    change ReadsTo (readFrom read ('"' :: rest)) _ rest
    refine ⟨Nat.lt_succ_self _, ?_⟩
    rw [readFrom, if_pos rfl, List.append_nil]
  | cons c ds ih =>
    obtain ⟨hlt, hread⟩ := ih (c :: read)
    rw [List.reverse_cons, List.append_assoc, List.singleton_append] at hread
    rw [List.flatMap_cons, List.append_assoc]
    rcases writeChar_cases c with ⟨hc, hquote, hslash, hcontrol⟩ | ⟨es, hc, hescape⟩
    · rw [hc, List.singleton_append]
      refine ⟨hlt.trans (Nat.lt_succ_self _), ?_⟩
      rw [readFrom]
      simp only [hquote, hslash, hcontrol, Bool.false_eq_true, if_false, hread]
      rfl
    · rw [hc, List.cons_append]
      obtain ⟨hless, hescaped⟩ := hescape (ds.flatMap writeChar ++ '"' :: rest)
      refine ⟨(hlt.trans hless).trans (Nat.lt_succ_self _), ?_⟩
      rw [readFrom]
      simp only [show '\\' ≠ '"' by decide, if_false, if_true, hescaped, hread]
      rfl

/-- A written text begins with its opening quote. -/
theorem toList_writeText (s : String) :
    (writeText s).toList = '"' :: (s.toList.flatMap writeChar ++ ['"']) := by
  simp [writeText]

/-- **A text that was written is read as itself.** -/
theorem textAt_writeText (s : String) (rest : List Char) :
    ∃ h, textAt (s.toList.flatMap writeChar ++ '"' :: rest) = (.ok s, .ok ⟨rest, h⟩) := by
  obtain ⟨h, hread⟩ := readFrom_writeChar [] s.toList rest
  refine ⟨h, ?_⟩
  simp only [textAt, readText, hread, List.reverse_nil, List.nil_append, String.ofList_toList]

end Formula.Json
