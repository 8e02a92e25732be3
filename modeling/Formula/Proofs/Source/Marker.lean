import Formula.Compilation
import Formula.Proofs.Source.Lines

/-!
# The marker under a source line

The marker of a diagnostic stands under the source line behind as many blanks as there are bytes
before the span, and is as wide as the span has bytes. The line above it is made of characters. So
the marker stands under the span as long as what stands in the line up to the end of the span is
ASCII; behind a letter of two bytes it stands one place too far to the right.

## Main definitions

* `Diagnostic.marked`: a diagnostic with a marker of a given width behind a given indent

## Main results

* `Diagnostic.render_eq_marked`: what is rendered, in terms of the characters of the file
* `Diagnostic.marker_counts_bytes`: the marker stands under the span exactly if bytes and characters
  are as many
-/

namespace Formula

open Text

namespace Diagnostic

variable {f : SourceFile} {before inside behind : List Char} {start stop : Nat}

/-- The place of a label and the line that it is in, and the gutter before the marker. -/
def aboveMarker (file : String) (line column : Nat) (text : String) : String :=
  "\n --> " ++ file ++ ":" ++ toString line ++ ":" ++ toString column ++
    "\n" ++ copies (toString line).length ' ' ++ " |\n" ++ toString line ++ " | " ++ text ++
    "\n" ++ copies (toString line).length ' ' ++ " | "

/-- **A diagnostic with its marker**, under the line of a file in which the characters `inside`
begin: one sign if they are on several lines, else `width` of them but at least one, behind `indent`
blanks. -/
def marked (d : Diagnostic) (f : SourceFile) (before inside behind : List Char) (start : Nat)
    (remark : Option String) (indent width : Nat) : String :=
  d.headline ++
    aboveMarker f.name (before.count '\n' + 1) (start - byteLength (wholeLines before) + 1)
      (String.ofList (withoutReturns
        (lastLine before ++ (inside ++ behind).takeWhile (· ≠ '\n')))) ++
    (copies indent ' ' ++ copies (if '\n' ∈ inside then 1 else max width 1) '^' ++
      (remark.elim "" (" " ++ ·) ++ String.join (d.notes.map fun note => "\n  = note: " ++ note)))

/-- An excerpt puts the marker at the column, with the width of the span. -/
theorem renderLabel_eq {sources : Sources} {label : Label} {line : String}
    (hfile : sources.get? label.span.file = some f)
    (hline : f.lineText? label.span.start.line = some line) :
    renderLabel sources label =
      aboveMarker f.name label.span.start.line label.span.start.column line ++
        (copies (label.span.start.column - 1) ' ' ++ copies (markerWidth label.span) '^' ++
          label.message.elim "" (" " ++ ·)) := by
  obtain ⟨span, message⟩ := label
  -- Both are unfolded by `rfl`: their equations are long rows of texts, which `simp` is slow on.
  have habove : aboveMarker f.name span.start.line span.start.column line =
      "\n --> " ++ f.name ++ ":" ++ toString span.start.line ++ ":" ++ toString span.start.column ++
        "\n" ++ copies (toString span.start.line).length ' ' ++ " |\n" ++
        toString span.start.line ++ " | " ++ line ++ "\n" ++
        copies (toString span.start.line).length ' ' ++ " | " := rfl
  have hexcerpt : excerpt ⟨span, message⟩ line =
      "\n" ++ copies (toString span.start.line).length ' ' ++ " |\n" ++
        toString span.start.line ++ " | " ++ line ++ "\n" ++
        copies (toString span.start.line).length ' ' ++ " | " ++
        copies (span.start.column - 1) ' ' ++ copies (markerWidth span) '^' ++
        message.elim "" (" " ++ ·) := by
    cases message <;> rfl
  simp only [renderLabel, hfile, hline, Option.map_some, Option.getD_some, hexcerpt, habove,
    Position.text, String.append_assoc]

/-- Blanks and signs can be told apart. -/
theorem copies_append_inj {a b a' b' : Nat} (hb : 0 < b) (hb' : 0 < b') (tail : String) :
    copies a ' ' ++ copies b '^' ++ tail = copies a' ' ' ++ copies b' '^' ++ tail ↔
      a = a' ∧ b = b' := by
  refine ⟨fun h => ?_, by rintro ⟨rfl, rfl⟩; rfl⟩
  have hlist := congrArg String.toList h
  simp only [copies, String.toList_append, String.toList_ofList] at hlist
  have hlist := List.append_cancel_right hlist
  have hblanks : ∀ a b, 0 < b →
      (List.replicate a ' ' ++ List.replicate b '^').takeWhile (· = ' ') =
        List.replicate a ' ' := by
    intro a b hb
    obtain ⟨b, rfl⟩ := Nat.exists_eq_succ_of_ne_zero (Nat.ne_of_gt hb)
    rw [List.takeWhile_append_of_pos (by simp), List.replicate_succ]
    simp
  have hindent : a = a' := by
    simpa [hblanks a b hb, hblanks a' b' hb'] using
      congrArg (fun cs => (cs.takeWhile (· = ' ')).length) hlist
  have hlength := congrArg List.length hlist
  simp only [List.length_append, List.length_replicate] at hlength
  omega

theorem marked_inj {d : Diagnostic} {remark : Option String} {indent width indent' width' : Nat} :
    d.marked f before inside behind start remark indent width =
        d.marked f before inside behind start remark indent' width' ↔
      indent = indent' ∧ ('\n' ∉ inside → max width 1 = max width' 1) := by
  have hpos (width : Nat) : 0 < if '\n' ∈ inside then 1 else max width 1 := by
    split <;> omega
  rw [marked, marked, String.append_right_inj, copies_append_inj (hpos _) (hpos _)]
  by_cases hbreak : '\n' ∈ inside <;> simp [hbreak]

/-- The width of the marker: the bytes between the offsets, if there is no line break. -/
theorem markerWidth_span {text : List Char} (htext : f.text.toList = text)
    (h : Stretch text before inside behind start stop) :
    markerWidth (f.span start stop) = if '\n' ∈ inside then 1 else max (stop - start) 1 := by
  have hbehind : f.text.toList = before ++ (inside ++ behind) := by
    rw [htext, h.text, List.append_assoc]
  have hbefore := f.position_eq hbehind h.start
  have hupto := f.position_eq (htext.trans h.text) h.stop
  have hline : (f.span start stop).stop.line = (f.span start stop).start.line ↔ '\n' ∉ inside := by
    simp only [SourceFile.span, hbefore, hupto, List.count_append, ← List.count_eq_zero]
    omega
  have hle := h.start.wholeLines_le
  simp only [markerWidth, hline]
  split
  · rename_i hno
    simp only [SourceFile.span, hbefore, hupto, wholeLines_append hno]
    congr 1
    omega
  · rename_i hbreak
    rw [if_pos (not_not.mp hbreak)]

/-- **What is rendered** about a stretch of a file: the line that it begins in, and a marker that is
placed by bytes. -/
theorem render_eq_marked (d : Diagnostic) {sources : Sources} {remark : Option String}
    (hfile : sources.get? f.id = some f)
    (hprimary : d.primary = some ⟨f.span start stop, remark⟩)
    (h : Stretch f.text.toList before inside behind start stop) :
    d.render sources = d.marked f before inside behind start remark
      (start - byteLength (wholeLines before)) (stop - start) := by
  have htext : f.text.toList = before ++ (inside ++ behind) := by
    rw [← List.append_assoc]
    exact h.text
  have hstart := f.position_eq htext h.start
  have hline := f.lineText?_eq htext
  have hwidth := markerWidth_span rfl h
  have hplace : (f.span start stop).start = _ := hstart
  have hlabel : renderLabel sources ⟨f.span start stop, remark⟩ = _ :=
    renderLabel_eq hfile (by rwa [hplace])
  simp only [render, hprimary, Option.map_some, Option.getD_some, hlabel, hplace, hwidth, marked,
    Nat.add_sub_cancel, String.append_assoc]

/-- **The marker of a diagnostic is placed by bytes.** So for a span that lies in the text it stands
behind as many blanks as there are characters before the span in its line, and is as wide as the
span has characters, exactly if there are as many bytes; this is so if they are ASCII. -/
theorem marker_counts_bytes (d : Diagnostic) {sources : Sources} {remark : Option String}
    (hfile : sources.get? f.id = some f) (hle : start ≤ stop) (hsize : stop ≤ f.size)
    (hprimary : d.primary = some ⟨f.span start stop, remark⟩) :
    (∃ before inside behind, Stretch f.text.toList before inside behind start stop) ∧
      ∀ before inside behind, Stretch f.text.toList before inside behind start stop →
        d.render sources = d.marked f before inside behind start remark
          (start - byteLength (wholeLines before)) (stop - start) ∧
        (d.render sources = d.marked f before inside behind start remark
            (lastLine before).length inside.length ↔
          start - byteLength (wholeLines before) = (lastLine before).length ∧
            ('\n' ∉ inside → max (stop - start) 1 = max inside.length 1)) ∧
        ((∀ c ∈ lastLine before, c.utf8Size = 1) →
          ('\n' ∉ inside → ∀ c ∈ inside, c.utf8Size = 1) →
          d.render sources = d.marked f before inside behind start remark
            (lastLine before).length inside.length) := by
  refine ⟨exists_stretch _ hle (byteLength_toList f.text ▸ hsize), fun before inside behind h => ?_⟩
  have hrender := d.render_eq_marked hfile hprimary h
  refine ⟨hrender, hrender ▸ marked_inj, fun hbefore hinside => ?_⟩
  have hone : ∀ c ∈ before.getLast?, c.utf8Size = 1 := by
    intro c hc
    rcases getLast?_eq_or before c hc with hline | rfl
    · exact hbefore c hline
    · rfl
  have hstart := h.start.eq_byteLength hone
  have hwhole := congrArg byteLength (wholeLines_append_lastLine before)
  rw [byteLength_append, byteLength_of_ascii hbefore] at hwhole
  rw [hrender, marked_inj]
  refine ⟨by omega, fun hbreak => ?_⟩
  have hascii := hinside hbreak
  have hstop : stop = byteLength (before ++ inside) := h.stop.eq_byteLength fun c hc => by
    rw [Option.mem_def, List.getLast?_append, Option.or_eq_some_iff] at hc
    rcases hc with hc | ⟨-, hc⟩
    · exact hascii c (List.mem_of_getLast? hc)
    · exact hone c hc
  rw [byteLength_append, byteLength_of_ascii hascii] at hstop
  congr 1
  omega

/-- A file in ASCII. -/
def starred : SourceFile :=
  .ofText 0 "formula" "x := 1\ny := x +* 2\n"

/-- A report on an operator of the second line. -/
def unexpectedStar : Diagnostic where
  message := "unexpected operator"
  primary := some ⟨starred.span 14 15, some "here"⟩

theorem marker_counts_bytes_starred : unexpectedStar.render ⟨[starred]⟩ =
    unexpectedStar.marked starred "x := 1\ny := x ".toList ['+'] "* 2\n".toList 14 (some "here")
      7 1 := by
  have hstretch : Stretch starred.text.toList "x := 1\ny := x ".toList ['+'] "* 2\n".toList 14 15 :=
    ⟨by decide, endsIn_of_eq (by decide), endsIn_of_eq (by decide)⟩
  have hfile : (⟨[starred]⟩ : Sources).get? starred.id = some starred := rfl
  have hprimary : unexpectedStar.primary = some ⟨starred.span 14 15, some "here"⟩ := rfl
  have hmarked := (unexpectedStar.marker_counts_bytes hfile (by decide) (by decide) hprimary).2
    _ _ _ hstretch
  have hindent : (lastLine "x := 1\ny := x ".toList).length = 7 := by decide
  have hascii : (lastLine "x := 1\ny := x ".toList).all (·.utf8Size == 1) = true := by decide
  rw [← hindent]
  refine hmarked.2.2 (fun c hc => ?_) fun _ c hc => ?_
  · simpa using List.all_eq_true.mp hascii c hc
  · rw [List.mem_singleton.mp hc]
    rfl

/-- A file in which a letter of two bytes stands before an undefined name. -/
def accented : SourceFile :=
  .ofText 0 "formula" "func evaluate() string \x7b\nreturn \"é\" + x\n\x7d"

/-- Behind a letter of two bytes the marker stands one place too far to the right: there are
thirteen characters before the undefined name, and fourteen blanks before the marker. -/
theorem marker_displaced : ∃ d before behind, accented.compile defaultEntryPoint = .error d ∧
    d.primary = some ⟨accented.span 39 40, none⟩ ∧
    Stretch accented.text.toList before ['x'] behind 39 40 ∧ (lastLine before).length = 13 ∧
    d.render ⟨[accented]⟩ = "error[E0200]: undefined: x\n --> formula:2:15\n" ++
      "  |\n2 | return \"é\" + x\n  |               ^" ∧
    d.render ⟨[accented]⟩ ≠ d.marked accented before ['x'] behind 39 none
      (lastLine before).length 1 := by
  obtain ⟨d, hd⟩ : ∃ d : Diagnostic, d = ⟨.error, some "E0200", "undefined: x",
      some ⟨accented.span 39 40, none⟩, [], []⟩ := ⟨_, rfl⟩
  have hcompile : (((accented.compile defaultEntryPoint).map fun _ => none).tryCatch
      fun e => .ok (some e)).toOption = some (some d) := by
    rw [hd]
    decide +kernel
  refine ⟨d, "func evaluate() string \x7b\nreturn \"é\" + ".toList, "\n\x7d".toList, ?_, by rw [hd], ?_,
    by decide, ?_, ?_⟩
  · cases hc : accented.compile defaultEntryPoint with
    | error e =>
      rw [hc] at hcompile
      exact congrArg Except.error (Option.some.inj (Option.some.inj hcompile))
    | ok c =>
      rw [hc] at hcompile
      cases hcompile
  · exact ⟨by decide, endsIn_of_eq (by decide), endsIn_of_eq (by decide)⟩
  · rw [hd]
    decide +kernel
  · rw [hd]
    decide +kernel

end Diagnostic

end Formula
