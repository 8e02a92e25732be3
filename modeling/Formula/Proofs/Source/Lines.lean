import Formula.Proofs.Shift.Scanning
import Mathlib.Data.List.Induction

/-!
# Lines of a text

The line of an offset is that of the characters that begin before it: their line breaks are counted,
and what stands behind the last one is on the same line.

## Main definitions

* `wholeLines`, `lastLine`: the characters up to the last line break, and those behind it
* `EndsIn cs offset`: the characters `cs` are those that begin before the offset
* `Stretch`: the characters that begin between two offsets

## Main results

* `SourceFile.position_eq`: the position of an offset
* `SourceFile.lineText?_eq`: the text of the line of an offset
-/

namespace Formula

open Text

variable {cs ds : List Char} {offset start : Nat}

/-! ## The last line -/

/-- The characters up to the last line break. -/
def wholeLines (cs : List Char) : List Char :=
  (cs.reverse.dropWhile (· ≠ '\n')).reverse

/-- The characters behind the last line break. -/
def lastLine (cs : List Char) : List Char :=
  (cs.reverse.takeWhile (· ≠ '\n')).reverse

theorem wholeLines_append_lastLine (cs : List Char) : wholeLines cs ++ lastLine cs = cs := by
  rw [wholeLines, lastLine, ← List.reverse_append, List.takeWhile_append_dropWhile,
    List.reverse_reverse]

theorem notMem_lastLine (cs : List Char) : '\n' ∉ lastLine cs := by
  intro h
  simpa using List.all_eq_true.mp List.all_takeWhile _ (List.mem_reverse.mp h)

theorem getLast?_wholeLines (cs : List Char) : ∀ c ∈ (wholeLines cs).getLast?, c = '\n' := by
  intro c hc
  rw [wholeLines, List.getLast?_reverse] at hc
  have hhead := List.head?_dropWhile_not (· ≠ '\n') cs.reverse
  rw [hc] at hhead
  simpa using hhead

/-- The last character is on the last line, or it is a line break. -/
theorem getLast?_eq_or (cs : List Char) : ∀ c ∈ cs.getLast?, c ∈ lastLine cs ∨ c = '\n' := by
  intro c hc
  rw [← wholeLines_append_lastLine cs, List.getLast?_append] at hc
  cases hline : (lastLine cs).getLast? with
  | none => exact .inr (getLast?_wholeLines cs c (by simpa [hline] using hc))
  | some d =>
    obtain rfl : d = c := by simpa [hline] using hc
    exact .inl (List.mem_of_getLast? hline)

theorem lastLine_append (h : '\n' ∉ ds) : lastLine (cs ++ ds) = lastLine cs ++ ds := by
  have hds : ∀ c ∈ ds.reverse, decide (c ≠ '\n') = true := by
    intro c hc
    exact decide_eq_true fun hbreak => h (hbreak ▸ List.mem_reverse.mp hc)
  rw [lastLine, List.reverse_append, List.takeWhile_append_of_pos hds, List.reverse_append,
    List.reverse_reverse, lastLine]

theorem wholeLines_append (h : '\n' ∉ ds) : wholeLines (cs ++ ds) = wholeLines cs := by
  have hcs := wholeLines_append_lastLine (cs ++ ds)
  rw [lastLine_append h, ← List.append_assoc] at hcs
  have := List.append_cancel_right hcs
  rw [← List.append_cancel_right_eq _ (lastLine cs), this, wholeLines_append_lastLine]

theorem count_wholeLines (cs : List Char) : (wholeLines cs).count '\n' = cs.count '\n' := by
  have hcount := congrArg (List.count '\n') (wholeLines_append_lastLine cs)
  rwa [List.count_append, List.count_eq_zero.mpr (notMem_lastLine cs), Nat.add_zero] at hcount

/-! ## Where lines start -/

theorem length_lineStartsAfter (offset : Nat) (cs : List Char) :
    (lineStartsAfter offset cs).length = cs.count '\n' := by
  induction cs generalizing offset with
  | nil => rfl
  | cons c cs ih =>
    simp only [lineStartsAfter, List.count_cons, beq_iff_eq]
    split <;> simp [ih]

theorem lineStartsAfter_of_notMem (h : '\n' ∉ cs) (offset : Nat) :
    lineStartsAfter offset cs = [] := by
  rw [← List.length_eq_zero_iff, length_lineStartsAfter, List.count_eq_zero.mpr h]

theorem lt_of_mem_lineStartsAfter (h : start ∈ lineStartsAfter offset cs) : offset < start := by
  induction cs generalizing offset with
  | nil => cases h
  | cons c cs ih =>
    have hc := c.utf8Size_pos
    simp only [lineStartsAfter] at h
    split at h
    · rcases List.mem_cons.mp h with rfl | h
      · omega
      · exact Nat.lt_trans (by omega) (ih h)
    · exact Nat.lt_trans (by omega) (ih h)

/-- The last line starts behind the whole ones. -/
theorem getLastD_lineStarts (cs : List Char) :
    (0 :: lineStartsAfter 0 cs).getLastD 0 = byteLength (wholeLines cs) := by
  have hstarts := congrArg (lineStartsAfter 0) (wholeLines_append_lastLine cs)
  rw [lineStartsAfter_append, lineStartsAfter_of_notMem (notMem_lastLine cs),
    List.append_nil] at hstarts
  rw [← hstarts, getLastD_lineStartsAfter (getLast?_wholeLines cs)]

/-! ## Offsets -/

/-- **The characters are those that begin before the offset**, at the start of a text. -/
structure EndsIn (cs : List Char) (offset : Nat) : Prop where
  le : offset ≤ byteLength cs
  lt : ∀ init c, cs = init ++ [c] → byteLength init < offset

/-- Where characters end, another one begins or none. -/
theorem endsIn_of_eq (h : byteLength cs = offset) : EndsIn cs offset := by
  refine ⟨Nat.le_of_eq h.symm, ?_⟩
  rintro init c rfl
  subst h
  have hc := c.utf8Size_pos
  rw [byteLength_append, byteLength_cons, byteLength_nil]
  omega

/-- Every offset of a text is that of the characters before it. -/
theorem exists_endsIn (cs : List Char) (h : offset ≤ byteLength cs) :
    ∃ before behind, cs = before ++ behind ∧ EndsIn before offset := by
  induction cs using List.reverseRecOn with
  | nil => exact ⟨[], [], rfl, h, by simp⟩
  | append_singleton cs c ih =>
    rcases Nat.lt_or_ge (byteLength cs) offset with hlt | hle
    · refine ⟨cs ++ [c], [], (List.append_nil _).symm, h, fun init d hinit => ?_⟩
      rw [(List.append_inj' hinit rfl).1] at hlt
      exact hlt
    · obtain ⟨before, behind, rfl, hends⟩ := ih hle
      exact ⟨before, behind ++ [c], List.append_assoc .., hends⟩

/-- **The characters `inside` are those that begin between two offsets** of the text `cs`. -/
structure Stretch (cs before inside behind : List Char) (start stop : Nat) : Prop where
  text : cs = before ++ inside ++ behind
  start : EndsIn before start
  stop : EndsIn (before ++ inside) stop

/-- Between any two offsets of a text there is such a stretch of it. -/
theorem exists_stretch {stop : Nat} (cs : List Char) (hle : start ≤ stop)
    (hstop : stop ≤ byteLength cs) :
    ∃ before inside behind, Stretch cs before inside behind start stop := by
  obtain ⟨upto, behind, rfl, hupto⟩ := exists_endsIn cs hstop
  obtain ⟨before, inside, rfl, hbefore⟩ := exists_endsIn upto (Nat.le_trans hle hupto.le)
  exact ⟨before, inside, behind, rfl, hbefore, hupto⟩

/-- An offset does not lie in a character of one byte. -/
theorem EndsIn.eq_byteLength (h : EndsIn cs offset) (hlast : ∀ c ∈ cs.getLast?, c.utf8Size = 1) :
    offset = byteLength cs := by
  have hle := h.le
  rcases List.eq_nil_or_concat cs with rfl | ⟨init, c, rfl⟩
  · exact Nat.le_zero.mp hle
  · rw [List.concat_eq_append] at *
    have hlt := h.lt init c rfl
    have hc := hlast c (by simp)
    simp only [byteLength_append, byteLength_cons, byteLength_nil] at hle ⊢
    omega

/-- The last line starts at the offset or before it. -/
theorem EndsIn.wholeLines_le (h : EndsIn cs offset) : byteLength (wholeLines cs) ≤ offset := by
  have hcs := wholeLines_append_lastLine cs
  rcases List.eq_nil_or_concat (lastLine cs) with hnil | ⟨line, c, hline⟩
  · rw [hnil, List.append_nil] at hcs
    have hlast : ∀ c ∈ cs.getLast?, c.utf8Size = 1 := by
      intro c hc
      rw [← hcs] at hc
      rw [getLast?_wholeLines cs c hc]
      rfl
    rw [hcs]
    exact Nat.le_of_eq (h.eq_byteLength hlast).symm
  · rw [hline, List.concat_eq_append, ← List.append_assoc] at hcs
    have := h.lt _ c hcs.symm
    rw [byteLength_append] at this
    omega

/-- Characters of one byte each are as many as their bytes. -/
theorem byteLength_of_ascii (h : ∀ c ∈ cs, c.utf8Size = 1) : byteLength cs = cs.length := by
  induction cs with
  | nil => rfl
  | cons c cs ih =>
    obtain ⟨hc, hcs⟩ := List.forall_mem_cons.mp h
    rw [byteLength_cons, hc, ih hcs, List.length_cons, Nat.add_comm]

/-- The lines that start up to an offset are those that start before its characters end. -/
theorem filter_lineStarts (h : EndsIn cs offset) :
    (0 :: lineStartsAfter 0 (cs ++ ds)).filter (· ≤ offset) = 0 :: lineStartsAfter 0 cs := by
  have hhere : ∀ start ∈ lineStartsAfter 0 cs, start ≤ offset := by
    rcases List.eq_nil_or_concat cs with rfl | ⟨init, c, rfl⟩
    · simp [lineStartsAfter]
    · rw [List.concat_eq_append] at h ⊢
      have hlt := h.lt init c rfl
      intro start hstart
      rw [lineStartsAfter_append, Nat.zero_add] at hstart
      rcases List.mem_append.mp hstart with hstart | hstart
      · have := le_of_mem_lineStartsAfter hstart
        omega
      · simp only [lineStartsAfter] at hstart
        split at hstart
        · subst_vars
          rw [List.mem_singleton.mp hstart]
          exact hlt
        · cases hstart
  have hthere : ∀ start ∈ lineStartsAfter (0 + byteLength cs) ds, ¬start ≤ offset := by
    intro start hstart
    have := lt_of_mem_lineStartsAfter hstart
    have := h.le
    omega
  rw [lineStartsAfter_append, ← List.cons_append, List.filter_append, List.filter_eq_self.mpr,
    List.filter_eq_nil_iff.mpr, List.append_nil]
  · simpa using hthere
  · simpa using hhere

namespace SourceFile

variable {f : SourceFile}

/-- **The position of an offset**: the line breaks before it are counted, and the bytes behind the
last one. -/
theorem position_eq (htext : f.text.toList = cs ++ ds) (h : EndsIn cs offset) :
    f.position offset =
      ⟨cs.count '\n' + 1, offset - byteLength (wholeLines cs) + 1, offset⟩ := by
  have hreached : f.lineStarts.filter (· ≤ offset) = 0 :: lineStartsAfter 0 cs := by
    rw [f.lineStarts_eq, lineStartsOf, htext, filter_lineStarts h]
  rw [position, hreached, getLastD_lineStarts, List.length_cons, length_lineStartsAfter]

end SourceFile

/-! ## Lines as texts -/

theorem linesOf_ne_nil (cs : List Char) : linesOf cs ≠ [] := by
  cases cs with
  | nil => simp [linesOf]
  | cons c cs =>
    rw [linesOf]
    split
    · simp
    · split <;> simp

/-- A line break parts the lines before it from those behind it. -/
theorem linesOf_append (cs ds : List Char) :
    linesOf (cs ++ '\n' :: ds) = linesOf cs ++ linesOf ds := by
  induction cs with
  | nil => simp [linesOf]
  | cons c cs ih =>
    simp only [List.cons_append, linesOf, ih]
    split
    · rfl
    · obtain ⟨line, lines, hlines⟩ := List.exists_cons_of_ne_nil (linesOf_ne_nil cs)
      rw [hlines]
      rfl

theorem length_linesOf (cs : List Char) : (linesOf cs).length = cs.count '\n' + 1 := by
  induction cs with
  | nil => rfl
  | cons c cs ih =>
    simp only [linesOf, List.count_cons, beq_iff_eq]
    split
    · simp [ih]
    · obtain ⟨line, lines, hlines⟩ := List.exists_cons_of_ne_nil (linesOf_ne_nil cs)
      rw [hlines] at ih ⊢
      simpa using ih

/-- The first line ends before the first line break. -/
theorem head?_linesOf (cs : List Char) : (linesOf cs).head? = some (cs.takeWhile (· ≠ '\n')) := by
  induction cs with
  | nil => rfl
  | cons c cs ih =>
    rw [linesOf]
    split
    · subst_vars
      rfl
    · rename_i hc
      obtain ⟨line, lines, hlines⟩ := List.exists_cons_of_ne_nil (linesOf_ne_nil cs)
      rw [hlines, List.head?_cons, Option.some.injEq] at ih
      simp [hlines, ih, hc]

/-- Behind whole lines the next one goes up to the next line break. -/
theorem getElem?_linesOf_of_whole (h : ∀ c ∈ cs.getLast?, c = '\n') (ds : List Char) :
    (linesOf (cs ++ ds))[cs.count '\n']? = some (ds.takeWhile (· ≠ '\n')) := by
  rw [← head?_linesOf]
  rcases List.eq_nil_or_concat cs with rfl | ⟨init, c, rfl⟩
  · exact List.head?_eq_getElem?.symm
  · rw [List.concat_eq_append] at h ⊢
    obtain rfl : c = '\n' := h c (by simp)
    rw [List.append_assoc, List.singleton_append, linesOf_append, List.count_append,
      List.count_singleton_self, ← length_linesOf, List.getElem?_append_right (Nat.le_refl _),
      Nat.sub_self, List.head?_eq_getElem?]

/-- The line that characters end in goes on up to the next line break. -/
theorem getElem?_linesOf (cs ds : List Char) :
    (linesOf (cs ++ ds))[cs.count '\n']? = some (lastLine cs ++ ds.takeWhile (· ≠ '\n')) := by
  have hlast : ∀ c ∈ lastLine cs, decide (c ≠ '\n') = true := by
    intro c hc
    exact decide_eq_true fun hbreak => notMem_lastLine cs (hbreak ▸ hc)
  have hline := getElem?_linesOf_of_whole (getLast?_wholeLines cs) (lastLine cs ++ ds)
  rwa [← List.append_assoc, wholeLines_append_lastLine, count_wholeLines,
    List.takeWhile_append_of_pos hlast] at hline

/-- **The text of the line of an offset** does not depend on where in the line the offset is. -/
theorem SourceFile.lineText?_eq {f : SourceFile} (htext : f.text.toList = cs ++ ds) :
    f.lineText? (cs.count '\n' + 1) =
      some (String.ofList (withoutReturns (lastLine cs ++ ds.takeWhile (· ≠ '\n')))) := by
  rw [lineText?, htext, getElem?_linesOf, Option.map_some]

end Formula
