import Formula.Proofs.Program.Layout
import Formula.Proofs.Shift.Checking
import Formula.Proofs.Token.Places

/-!
# Spans identify nodes

Where a program is read from a text, the span of a node covers those of all nodes in it, and nodes
that lie side by side have spans side by side. Only a statement or a block can therefore stand exactly
where another node stands. The checker marks integers and operations between two operands by their
spans, and what it marks is what it would mark if it were given other, freely chosen marks.

## Main definitions

* `Span.Covers`: one span covers another one of the same file
* `Program.Markable`: the places of nodes that may become floating-point numbers

## Main results

* `Program.Node.Ordered.within`: the nodes in a node lie between its ends
* `Program.Node.Row.path_eq`: nodes that stand at the same place have the same path
* `Program.separates_of_path_eq`: other marks for such nodes are kept apart
* `SourceFile.spans_identify_nodes`: spans are as good as marks that identify nodes
-/

namespace Formula

/-- One span covers another one of the same file. -/
structure Span.Covers (s t : Span) : Prop where
  file_eq : t.file = s.file
  start_le : s.start.offset ≤ t.start.offset
  le_stop : t.stop.offset ≤ s.stop.offset

namespace Program.Node

variable {R : Region} {lo hi i : Nat} {n m : Node} {ns : List Node} {path : List Nat}

/-- What may become a floating-point number is no wrapper. -/
theorem isWrapper_of_isMarkable (h : n.isMarkable = true) : n.isWrapper = false := by
  cases n with
  | expr e => rfl
  | stmt | block | param => cases h

/-- **The nodes in a node lie between its ends.** -/
theorem Ordered.within (h : n.Ordered R) (hm : n.at? path = some m) :
    n.span.start.offset ≤ m.span.start.offset ∧ m.span.stop.offset ≤ n.span.stop.offset := by
  induction path generalizing n with
  | nil =>
    cases hm
    exact ⟨Nat.le_refl _, Nat.le_refl _⟩
  | cons i path ih =>
    obtain ⟨o, ho, hm⟩ := at?_cons_eq_some.mp hm
    have hpart := List.mem_of_getElem? ho
    have hcovers := h.self.covers o hpart
    have hin := ih (h.part hpart) hm
    exact ⟨Nat.le_trans hcovers.1 hin.1, Nat.le_trans hin.2 hcovers.2⟩

/-- No node in a node stands exactly where that one stands, unless it is a wrapper. -/
theorem Ordered.span_ne (h : n.Ordered R) (hn : n.isWrapper = false)
    (hm : n.at? (i :: path) = some m) : m.span ≠ n.span := by
  obtain ⟨o, ho, hm⟩ := at?_cons_eq_some.mp hm
  have hpart := List.mem_of_getElem? ho
  have hstrict := h.self.strict hn o hpart
  have hin := Ordered.within (h.part hpart) hm
  intro heq
  rw [heq] at hin
  omega

/-- Nodes in different nodes of a row have different spans. -/
theorem Row.span_ne (h : Row R lo hi ns) {i' : Nat} {n' m' : Node} {path' : List Nat}
    (hn : ns[i]? = some n) (hn' : ns[i']? = some n') (hlt : i < i') (hm : n.at? path = some m)
    (hm' : n'.at? path' = some m') : m.span ≠ m'.span := by
  have hordered := (h.laid n (List.mem_of_getElem? hn)).ordered
  have hin := hordered.within hm
  have hin' := (h.laid n' (List.mem_of_getElem? hn')).ordered.within hm'
  have hsolid := (hordered.at? hm).self.lt
  obtain ⟨hi, rfl⟩ := List.getElem?_eq_some_iff.mp hn
  obtain ⟨hi', rfl⟩ := List.getElem?_eq_some_iff.mp hn'
  have hapart := List.pairwise_iff_getElem.mp h.apart i i' hi hi' hlt
  intro heq
  rw [heq] at hin hsolid
  omega

theorem Row.index_eq (h : Row R lo hi ns) {i' : Nat} {n' m' : Node} {path' : List Nat}
    (hn : ns[i]? = some n) (hn' : ns[i']? = some n') (hm : n.at? path = some m)
    (hm' : n'.at? path' = some m') (hspan : m.span = m'.span) : i = i' := by
  rcases Nat.lt_trichotomy i i' with hlt | heq | hlt
  · exact absurd hspan (h.span_ne hn hn' hlt hm hm')
  · exact heq
  · exact absurd hspan.symm (h.span_ne hn' hn hlt hm' hm)

/-- **Nodes that stand at the same place have the same path**, unless one of them is a wrapper. The
induction is on the path to one of them; on the way the two paths go on to the same part, as parts
stand side by side. -/
theorem Row.path_eq (h : Row R lo hi ns) {i' : Nat} {n' m' : Node} {path' : List Nat}
    (hn : ns[i]? = some n) (hn' : ns[i']? = some n') (hm : n.at? path = some m)
    (hm' : n'.at? path' = some m') (hwrapper : m.isWrapper = false)
    (hwrapper' : m'.isWrapper = false) (hspan : m.span = m'.span) : i :: path = i' :: path' := by
  induction path generalizing ns lo hi i i' n n' path' with
  | nil =>
    obtain rfl := h.index_eq hn hn' hm hm' hspan
    cases hn.symm.trans hn'
    cases hm
    cases path' with
    | nil => rfl
    | cons j path' =>
      have hordered := (h.laid _ (List.mem_of_getElem? hn)).ordered
      exact absurd hspan.symm (hordered.span_ne hwrapper hm')
  | cons j path ih =>
    obtain rfl := h.index_eq hn hn' hm hm' hspan
    cases hn.symm.trans hn'
    have hordered := (h.laid _ (List.mem_of_getElem? hn)).ordered
    cases path' with
    | nil =>
      cases hm'
      exact absurd hspan (hordered.span_ne hwrapper' hm)
    | cons j' path' =>
      obtain ⟨o, ho, hm⟩ := at?_cons_eq_some.mp hm
      obtain ⟨o', ho', hm'⟩ := at?_cons_eq_some.mp hm'
      rw [ih hordered.row ho ho' hm hm']

end Program.Node

namespace Program

variable {R : Region} {lo hi : Nat} {p : Program} {n m : Node} {path rest : List Nat}

/-- The node of a program at a path that goes on from a node. -/
theorem at?_append (hn : p.at? path = some n) : p.at? (path ++ rest) = n.at? rest := by
  obtain ⟨i, path, o, rfl, ho, hn⟩ := exists_of_at? hn
  rw [List.cons_append, at?_cons, ho, Option.bind_some, Node.at?_append, hn, Option.bind_some]

/-- Nodes that stand at the same place are the same, unless one of them is a wrapper. -/
theorem Laid.path_eq (h : p.Laid R lo hi) {m : Node} {path' : List Nat} (hn : p.at? path = some n)
    (hm : p.at? path' = some m) (hwrapper : n.isWrapper = false) (hwrapper' : m.isWrapper = false)
    (hspan : n.span = m.span) : path = path' := by
  obtain ⟨i, path, o, rfl, ho, hn⟩ := exists_of_at? hn
  obtain ⟨i', path', o', rfl, ho', hm⟩ := exists_of_at? hm
  exact h.row.path_eq ho ho' hn hm hwrapper hwrapper' hspan

/-- The places of nodes in a program that may become floating-point numbers. -/
def Markable (p : Program) (s : Span) : Prop :=
  ∃ path n, p.at? path = some n ∧ n.isMarkable = true ∧ n.span = s

theorem marked_markable (p : Program) : ∀ i ∈ p.items, i.Marked p.Markable := by
  intro i hi n hn path m hm hmarkable
  obtain ⟨j, hj⟩ := List.mem_iff_getElem?.mp (List.mem_flatMap.mpr ⟨i, hi, hn⟩ : n ∈ p.nodes)
  exact ⟨j :: path, m, at?_cons_eq_some.mpr ⟨n, hj, hm⟩, hmarkable, rfl⟩

theorem Node.isMarkable_shift (k : Shift) (n : Node) : (n.shift k).isMarkable = n.isMarkable := by
  rcases n with e | _ | _ | _
  · cases e with
    | literal value => cases value <;> rfl
    | _ => rfl
  all_goals rfl

/-- If the places of integers and operations in a program are different, then other marks for them
are kept apart. -/
theorem separates_of_path_eq {q : Program} {k : Shift}
    (h : ∀ path path' n n', (q.shift k).at? path = some n → (q.shift k).at? path' = some n' →
      n.isMarkable = true → n'.isMarkable = true → n.span = n'.span → path = path') :
    k.Separates q.Markable := by
  rintro _ _ ⟨path, n, hn, hmarkable, rfl⟩ ⟨path', n', hn', hmarkable', rfl⟩ hspan
  obtain rfl : path = path' := by
    refine h path path' (n.shift k) (n'.shift k) ?_ ?_ ?_ ?_ ?_
    · rw [at?_shift, hn, Option.map_some]
    · rw [at?_shift, hn', Option.map_some]
    · rwa [Node.isMarkable_shift]
    · rwa [Node.isMarkable_shift]
    · rwa [Node.span_shift, Node.span_shift]
  cases hn.symm.trans hn'
  rfl

end Program

/-- **Spans identify nodes.** In a program that is read from a text no node is empty, the span of each
one covers those of all nodes in it, and the parts of a node have spans side by side, in the order of
the text. Integers and operations between two operands have different spans. Whatever marks the nodes
of the program bear in place of their spans, such as one of its own for each, and however these are
turned into its spans: the checker then marks the same integers and operations, and has the same
result. -/
theorem SourceFile.spans_identify_nodes {f : SourceFile} {p : Program} (h : f.program = .ok p) :
    ((p.nodes.Pairwise fun m m' => m.span.stop.offset ≤ m'.span.start.offset) ∧
      ∀ path n, p.at? path = some n → n.span.start.offset < n.span.stop.offset ∧
        n.parts.Pairwise fun m m' => m.span.stop.offset ≤ m'.span.start.offset) ∧
    (∀ path rest n m, p.at? path = some n → p.at? (path ++ rest) = some m →
      n.span.Covers m.span) ∧
    (∀ path path' n n', p.at? path = some n → p.at? path' = some n' → n.isMarkable = true →
      n'.isMarkable = true → n.span = n'.span → path = path') ∧
    ∀ (q : Program) (k : Shift), q.shift k = p →
      ∀ entryPoint types, p.check entryPoint = .ok types →
        ∃ marks, q.check entryPoint = .ok marks ∧ marks.result = types.result ∧
          ∀ path n, q.at? path = some n → n.isMarkable = true →
            types.isFloat (n.span.shift k) = marks.isFloat n.span := by
  obtain ⟨tokens, hscan, hp⟩ := SourceFile.program_eq_ok h
  obtain ⟨lo, hi, hlaid⟩ := Program.laid_of_ofTokens (R := f.region) (Token.row_of_scan hscan)
    (Token.holds_of_scan hscan) hp
  have hpaths : ∀ path path' n n', p.at? path = some n → p.at? path' = some n' →
      n.isMarkable = true → n'.isMarkable = true → n.span = n'.span → path = path' :=
    fun path path' n n' hn hn' hmarkable hmarkable' => hlaid.path_eq hn hn'
      (Program.Node.isWrapper_of_isMarkable hmarkable)
      (Program.Node.isWrapper_of_isMarkable hmarkable')
  refine ⟨⟨hlaid.row.apart, fun path n hn => ?_⟩, fun path rest n m hn hm => ?_, hpaths, ?_⟩
  · exact ⟨(hlaid.at? hn).self.lt, (hlaid.at? hn).self.apart⟩
  · have hin := (hlaid.at? hn).within ((Program.at?_append hn).symm.trans hm)
    have hfile := (SourceFile.mem_region.mp (hlaid.at? hn).self.mem).file_eq
    exact ⟨(SourceFile.mem_region.mp (hlaid.at? hm).self.mem).file_eq.trans hfile.symm, hin.1, hin.2⟩
  rintro q k rfl entryPoint types htypes
  have hchecks := Program.check_shift (k := k) q.marked_markable entryPoint
  rw [htypes] at hchecks
  generalize hmarks : q.check entryPoint = marks at hchecks
  cases hchecks with
  | ok hmoves =>
    refine ⟨_, rfl, hmoves.result.symm, fun path n hn hmarkable => ?_⟩
    exact hmoves.isFloat (Program.separates_of_path_eq hpaths) ⟨path, n, hn, hmarkable, rfl⟩

/-- The second operand of a sum is an integer that stands for a floating-point number, whatever marks
the nodes bear. -/
theorem SourceFile.spans_identify_nodes_sum : ∃ p types n,
    (SourceFile.ofText 0 "sum" "func evaluate() float \x7b return 0.5 + 1 \x7d").program = .ok p ∧
      p.check "evaluate" = .ok types ∧ p.at? [0, 0, 0, 1] = some n ∧ n.isMarkable = true ∧
      ∀ (q : Program) (k : Shift), q.shift k = p → ∃ marks m, q.check "evaluate" = .ok marks ∧
        q.at? [0, 0, 0, 1] = some m ∧ marks.isFloat m.span = true := by
  have hchecks : ((SourceFile.ofText 0 "sum"
      "func evaluate() float \x7b return 0.5 + 1 \x7d").program).toOption.any (fun p =>
        (p.check "evaluate").toOption.any fun types =>
          (p.at? [0, 0, 0, 1]).any fun n => n.isMarkable && types.isFloat n.span) = true := by
    decide +kernel
  obtain ⟨p, hp, hchecks⟩ := Except.exists_of_any hchecks
  obtain ⟨types, htypes, hchecks⟩ := Except.exists_of_any hchecks
  obtain ⟨n, hn, hchecks⟩ := (Option.any_eq_true ..).mp hchecks
  obtain ⟨hmarkable, hfloat⟩ := Bool.and_eq_true_iff.mp hchecks
  refine ⟨p, types, n, hp, htypes, hn, hmarkable, fun q k hq => ?_⟩
  obtain ⟨marks, hmarks, -, hsame⟩ :=
    (SourceFile.spans_identify_nodes hp).2.2.2 q k hq "evaluate" types htypes
  subst hq
  rw [Program.at?_shift] at hn
  obtain ⟨m, hm, rfl⟩ := Option.map_eq_some_iff.mp hn
  rw [Program.Node.isMarkable_shift] at hmarkable
  rw [Program.Node.span_shift, hsame _ m hm hmarkable] at hfloat
  exact ⟨marks, m, hmarks, hm, hfloat⟩

end Formula
