import Formula.Proofs.Program.Layout
import Formula.Proofs.Program.Mirroring
import Formula.Proofs.Shift.Checking
import Formula.Proofs.Token.Places

/-!
# Reported places

The places that are reported of a text stand in it: those of its tokens, those in the tree of the
program that is read from it, and those of errors. For the checker this follows from what it does
elsewhere. If every span but those of a class is changed, a program with spans of this class stays as
it is, so the checker finds the same errors, and these can only be at places that have not changed.

## Main definitions

* `Region.repel`: all spans change but those of a class
* `SourceFile.Reports f entryPoint s`: the place `s` is reported of a text

## Main results

* `Program.mem_of_check`: what is wrong with a program is marked where it has spans
* `SourceFile.holds_of_reports`: reported places stand in the text
-/

namespace Formula

variable {R : Region} {s : Span}

/-! ## Errors -/

open Classical in
/-- All spans change but those of a class: the other ones end elsewhere. -/
noncomputable def Region.repel (R : Region) : Shift :=
  ⟨fun s => if s ∈ R then s else
    { s with stop := { s.stop with offset := s.stop.offset + 1 } }⟩

theorem Region.shift_repel (hs : s ∈ R) : s.shift R.repel = s :=
  if_pos hs

theorem Region.mem_of_stop_eq (h : (s.shift R.repel).stop = s.stop) : s ∈ R := by
  by_contra hs
  have hshift : s.shift R.repel = { s with stop := { s.stop with offset := s.stop.offset + 1 } } :=
    if_neg hs
  have hoffset : (s.shift R.repel).stop.offset = s.stop.offset + 1 :=
    congrArg (fun s => s.stop.offset) hshift
  rw [h] at hoffset
  omega

/-- An error that is where it was is at a place that has not changed. -/
theorem TypeError.Moves.mem {e e' : TypeError} (h : e.Moves R.repel e') (heq : e' = e)
    (hclosing : ∀ s ∈ R, s.closing ∈ R) : ∀ s ∈ e.span, s ∈ R := by
  intro s hs
  cases h with
  | «at» =>
    have hspan : e.span.map (Span.shift R.repel) = e.span := congrArg TypeError.span heq
    rw [hs] at hspan
    exact Region.mem_of_stop_eq (congrArg Span.stop (Option.some.inj hspan))
  | closing cause t =>
    cases hs
    have hspan := Option.some.inj (congrArg TypeError.span heq)
    have hstop := congrArg Span.stop hspan
    exact hclosing t (Region.mem_of_stop_eq hstop)

/-- **What is wrong with a program is marked where it has spans**, or where one of them ends. -/
theorem Program.mem_of_check {p : Program} (hp : ∀ s, p.HasSpan s → s ∈ R)
    (hclosing : ∀ s ∈ R, s.closing ∈ R) {entryPoint : String} {e : TypeError}
    (h : p.check entryPoint = .error e) : ∀ s ∈ e.span, s ∈ R := by
  have hshift : p.shift R.repel = p := shift_eq_self fun s hs => Region.shift_repel (hp s hs)
  have hchecks := check_shift (k := R.repel) (p := p) (fun i _ => i.marked_true) entryPoint
  rw [hshift, h] at hchecks
  cases hchecks with
  | error hmoves => exact hmoves.mem rfl hclosing

/-! ## Texts -/

namespace SourceFile

variable {f : SourceFile} {entryPoint : String}

/-- Where a stretch of a text ends. -/
theorem Holds.closing (h : f.Holds s) : f.Holds s.closing :=
  ⟨h.file_eq, h.stop_eq, h.stop_eq, Nat.le_refl _, h.stop_le⟩

/-- **The places in a program that is read from a text stand in it.** -/
theorem holds_of_program {p : Program} (h : f.program = .ok p) (hs : p.HasSpan s) : f.Holds s := by
  obtain ⟨tokens, hscan, hp⟩ := program_eq_ok h
  obtain ⟨lo, hi, hlaid⟩ := Program.laid_of_ofTokens (R := f.region) (Token.row_of_scan hscan)
    (Token.holds_of_scan hscan) hp
  exact hlaid.mem hs

/-- A text that does not compile has no tokens, or these are no program, or it is refused. -/
theorem compile_eq_error {d : Diagnostic} (h : f.compile entryPoint = .error d) :
    (∃ e, Token.scan f = .error e ∧ d = e.diagnostic f) ∨
      (∃ tokens e, Token.scan f = .ok tokens ∧ Program.ofTokens tokens = .error e ∧
        d = e.diagnostic) ∨
      ∃ p e, f.program = .ok p ∧ p.check entryPoint = .error e ∧ d = e.diagnostic := by
  unfold compile at h
  split at h
  · rename_i d' hprogram
    cases h
    unfold program at hprogram
    split at hprogram
    · cases hprogram
      exact .inl ⟨_, ‹_›, rfl⟩
    · rename_i tokens hscan
      cases hp : Program.ofTokens tokens with
      | ok p =>
        rw [hp] at hprogram
        cases hprogram
      | error e =>
        rw [hp] at hprogram
        cases hprogram
        exact .inr (.inl ⟨tokens, e, hscan, hp, rfl⟩)
  · split at h
    · cases h
      exact .inr (.inr ⟨_, _, ‹_›, ‹_›, rfl⟩)
    · cases h

/-- **What is wrong with a text is marked in it.** -/
theorem holds_of_compile {d : Diagnostic} (h : f.compile entryPoint = .error d) :
    ∀ label ∈ d.primary, f.Holds label.span := by
  intro label hlabel
  obtain ⟨e, hscan, rfl⟩ | ⟨tokens, e, hscan, hp, rfl⟩ | ⟨p, e, hp, hcheck, rfl⟩ :=
    compile_eq_error h
  · exact ScanError.holds_of_scan hscan label hlabel
  · obtain ⟨label', hlabel', t, ht, hspan⟩ :=
      Program.pointsAt_of_ofTokens (Token.ended_of_scan hscan) hp
    cases hlabel'.symm.trans hlabel
    exact hspan ▸ Token.holds_of_scan hscan t ht
  · obtain ⟨s, hs, rfl⟩ := Option.map_eq_some_iff.mp hlabel
    exact Program.mem_of_check (R := f.region) (fun s hs => holds_of_program hp hs)
      (fun s hs => Holds.closing hs) hcheck s hs

/-- **A place is reported of a text**: it is that of a token, one in the tree of the program, or the
primary one of what is wrong when the text is compiled. -/
inductive Reports (f : SourceFile) (entryPoint : String) : Span → Prop where
  | ofToken {tokens : List Token} (h : Token.scan f = .ok tokens) {t : Token} (ht : t ∈ tokens) :
    Reports f entryPoint t.span
  | ofProgram {p : Program} (h : f.program = .ok p) {s : Span} (hs : p.HasSpan s) :
    Reports f entryPoint s
  | ofError {d : Diagnostic} (h : f.compile entryPoint = .error d) {label : Label}
    (hl : d.primary = some label) : Reports f entryPoint label.span

/-- **Reported places are real.** Each one stands in the text: it goes from one offset in it to a later
one, its positions are those of these offsets, and it is not the place that stands nowhere. -/
theorem holds_of_reports (h : f.Reports entryPoint s) : f.Holds s ∧ s ≠ .nowhere := by
  have hholds : f.Holds s := by
    cases h with
    | ofToken h ht => exact Token.holds_of_scan h _ ht
    | ofProgram h hs => exact holds_of_program h hs
    | ofError h hl => exact holds_of_compile h _ hl
  exact ⟨hholds, hholds.ne_nowhere⟩

/-- The body of a function comes to its end without a result: the error is where the body ends. -/
theorem holds_of_reports_unreturned : ∃ place : Span,
    (ofText 0 "unreturned" "func evaluate() int \x7b\n\x7d").Reports "evaluate" place ∧
      place.start = ⟨2, 2, 23⟩ ∧ place.stop = ⟨2, 2, 23⟩ ∧
      (ofText 0 "unreturned" "func evaluate() int \x7b\n\x7d").Holds place ∧ place ≠ .nowhere := by
  have hchecks : (match (ofText 0 "unreturned" "func evaluate() int \x7b\n\x7d").compile "evaluate" with
      | .ok _ => false
      | .error d => d.primary.any fun label =>
          label.span.start == ⟨2, 2, 23⟩ && label.span.stop == ⟨2, 2, 23⟩) = true := by
    decide +kernel
  split at hchecks
  · cases hchecks
  · rename_i d hd
    obtain ⟨label, hlabel, hplace⟩ := (Option.any_eq_true ..).mp hchecks
    obtain ⟨hstart, hstop⟩ := Bool.and_eq_true_iff.mp hplace
    have hreports := Reports.ofError hd hlabel
    exact ⟨_, hreports, eq_of_beq hstart, eq_of_beq hstop, holds_of_reports hreports⟩

end SourceFile

end Formula
