import Formula.Compilation
import Formula.Proofs.Program.Reading
import Mathlib.Data.List.Forall2

/-!
# How programs are laid out

The nodes of a program that is read from tokens in a row stand where they should, as the readers go
forward and each node covers what was read for it. This goes through the grammar level by level.

## Main definitions

* `Level.Sound`: what the readers of a level read is laid out where they read it
* `Program.HasSpan`: a span is one of those in the tree of a program

## Main results

* `Level.sound_under`: a level above a sound one is sound
* `Program.laid_of_ofTokens`: a program that is read from tokens in a row is laid out
* `SourceFile.nodup_spans`: the nodes of a program that is read from a text have different spans
-/

namespace Formula

open Cursor Parse
open Program.Node (Row)

variable {R : Region}

/-- An expression is laid out between two offsets. -/
abbrev Expr.Laid (R : Region) (lo hi : Nat) (e : Expr) : Prop :=
  Program.Node.Laid R lo hi (.expr e)

/-- A statement is laid out between two offsets. -/
abbrev Stmt.Laid (R : Region) (lo hi : Nat) (s : Stmt) : Prop :=
  Program.Node.Laid R lo hi (.stmt s)

/-- A block is laid out between two offsets. -/
abbrev Block.Laid (R : Region) (lo hi : Nat) (b : Block) : Prop :=
  Program.Node.Laid R lo hi (.block b)

/-! ## Nodes from what is read for them -/

namespace Program.Node.Laid

variable {n m e : Program.Node} {ns : List Program.Node} {c c₁ c₂ : Cursor} {lo mid mid' hi : Nat}

/-- A node that lies between two offsets lies between the first one and its own end. -/
theorem upTo (h : n.Laid R lo hi) : n.Laid R lo n.span.stop.offset :=
  ⟨h.ordered, h.start_le, Nat.le_refl _⟩

/-- The parts of a node lie where it does. -/
theorem parts (h : n.Laid R lo hi) : Row R lo hi n.parts where
  laid m hm := by
    obtain ⟨hstart, hstop⟩ := h.ordered.self.covers m hm
    exact ⟨h.ordered.part hm, Nat.le_trans h.start_le hstart, Nat.le_trans hstop h.le_stop⟩
  apart := h.ordered.self.apart

/-- A node that begins with a token, around parts that lie behind that token. -/
theorem behind (h : c.Passed R c₁) (hspan : n.span.Reaches R c.pos hi)
    (hrow : Row R c₁.pos hi n.parts) (hdone : c₁.done ≤ hi) (htypes : ∀ s ∈ n.types, s ∈ R)
    (hpost : n.SimplePost) : n.Laid R c.pos hi := by
  obtain ⟨hstart, rfl, hmem⟩ := hspan
  have hlt := h.lt
  have hpos := h.moved.done_le_pos
  refine ⟨hrow.node hmem htypes (by omega) (Nat.le_refl _) (by omega) (fun _ m hm => ?_) hpost,
    Nat.le_of_eq hstart.symm, Nat.le_refl _⟩
  exact .inl (Nat.lt_of_lt_of_le (by omega) (hrow.laid m hm).start_le)

/-- A node that is one token. -/
theorem token (h : c.Passed R c₁) (hspan : n.span = c.current.span) (hparts : n.parts = [])
    (htypes : n.types = []) (hpost : n.SimplePost) : n.Laid R c.pos c₁.done :=
  .behind h (hspan ▸ h.current) (hparts ▸ .nil) (Nat.le_refl _) (htypes ▸ nofun) hpost

/-- A node from a token up to what was read last. -/
theorem upToBefore (h : c.Passed R c₁) (h' : c₁.Moved R c₂)
    (hspan : n.span = c.current.span.join c₂.before) (hrow : Row R c₁.pos c₂.done n.parts)
    (htypes : ∀ s ∈ n.types, s ∈ R) (hpost : n.SimplePost) : n.Laid R c.pos c₂.done :=
  .behind h (hspan ▸ h.join_before h') hrow h'.done_le htypes hpost

/-- A node from a token up to its last part. -/
theorem upToLast (h : c.Passed R c₁) (hspan : n.span = c.current.span.join m.span)
    (hparts : n.parts = ns ++ [m]) (hrow : Row R c₁.pos mid ns) (hm : m.Laid R mid' hi)
    (hmid : mid ≤ mid') (hpos : c₁.pos ≤ mid') (htypes : ∀ s ∈ n.types, s ∈ R)
    (hpost : n.SimplePost) : n.Laid R c.pos hi := by
  have hstart := Nat.le_trans hpos hm.start_le
  have hlt := hm.lt
  have hdone := h.moved.done_le_pos
  have hspan := hspan ▸ h.join_span hstart hm.lt hm.mem
  have hbehind := Nat.le_trans hmid hm.start_le
  have hall := hrow.append hm.upTo.row hmid hpos (Nat.le_trans hbehind (Nat.le_of_lt hlt))
  exact weaken (.behind h hspan (hparts ▸ hall) (by omega) htypes hpost) (Nat.le_refl _) hm.le_stop

/-- A node that begins with another one and ends with what was read behind it. -/
theorem onward (hc : c.Ready R) (h : c.Passed R c₁) (h' : c₁.Moved R c₂) (he : e.Laid R lo c.done)
    (hspan : n.span = e.span.join c₂.before) (hrow : Row R e.span.start.offset mid n.parts)
    (hmid : mid < c₂.done) (htypes : n.types = []) (hpost : n.SimplePost) :
    n.Laid R lo c₂.done := by
  obtain ⟨hstart, hstop, hmem⟩ := h.span_join_before h' hc he.lt he.le_stop he.mem
  rw [← hspan] at hstart hstop hmem
  have hlt : e.span.start.offset < c₂.done :=
    Nat.lt_of_lt_of_le (Nat.lt_of_lt_of_le he.lt he.le_stop) (h.moved.trans h').done_le
  refine ⟨hrow.node hmem (htypes ▸ nofun) (by omega) (by omega) (by omega) (fun _ m hm => ?_) hpost,
    hstart ▸ he.start_le, Nat.le_of_eq hstop⟩
  exact .inr (hstop ▸ Nat.lt_of_le_of_lt (hrow.laid m hm).le_stop hmid)

/-- An operation between two operands. -/
theorem binary {left right : Expr} (op : BinaryOp) (hl : left.Laid R lo mid)
    (hr : right.Laid R mid' hi) (hmid : mid ≤ mid') :
    Expr.Laid R lo hi (.binary op left right (left.span.join right.span)) := by
  have hlt := hl.lt
  have hlt' := hr.lt
  have hle := hl.le_stop
  have hge := hr.start_le
  simp only [span_expr] at hlt hlt' hle hge
  have hrow := hl.row_self.append hr.row_self (by simp only [span_expr]; omega)
    (by simp only [span_expr]; omega) (by simp only [span_expr]; omega)
  -- the operation reaches from its left operand to its right one
  have hstart : (left.span.join right.span).start.offset = left.span.start.offset := by
    rw [Span.join_start_offset]
    omega
  have hstop : (left.span.join right.span).stop.offset = right.span.stop.offset := by
    rw [Span.join_stop_offset]
    omega
  refine ⟨hrow.node (Region.join_mem hl.mem hr.mem) nofun (Nat.le_of_eq hstart)
    (Nat.le_of_eq hstop.symm) ?_ (fun _ m hm => ?_) trivial, ?_, ?_⟩
  · change (left.span.join right.span).start.offset < (left.span.join right.span).stop.offset
    omega
  · change (left.span.join right.span).start.offset < _ ∨ _ < (left.span.join right.span).stop.offset
    rw [hstart, hstop]
    -- neither operand fills the operation, as the other one is not empty
    rcases List.mem_cons.mp hm with rfl | hm
    · exact .inr (by simp only [span_expr]; omega)
    · obtain rfl := List.mem_singleton.mp hm
      exact .inl (by simp only [span_expr]; omega)
  · exact Nat.le_trans hl.start_le (Nat.le_of_eq hstart.symm)
  · exact Nat.le_trans (Nat.le_of_eq hstop) hr.le_stop

/-- A wrapper may stand exactly where its part does. -/
theorem wrapper (hn : n.isWrapper = true) (hspan : n.span.Reaches R lo hi) (hlt : lo < hi)
    (hrow : Row R lo hi n.parts) (htypes : n.types = []) (hpost : n.SimplePost) :
    n.Laid R lo hi := by
  obtain ⟨rfl, rfl, hmem⟩ := hspan
  refine ⟨hrow.node hmem (htypes ▸ nofun) (Nat.le_refl _) (Nat.le_refl _) hlt (fun h => ?_) hpost,
    Nat.le_refl _, Nat.le_refl _⟩
  rw [hn] at h
  cases h

/-- An expression as a statement. -/
theorem exprStmt {e : Expr} (h : e.Laid R lo hi) : Stmt.Laid R lo hi (.expr e) :=
  weaken (.wrapper rfl ⟨rfl, rfl, h.mem⟩ h.lt h.row_self rfl trivial) h.start_le h.le_stop

/-- A block as a statement. -/
theorem blockStmt {b : Block} (h : b.Laid R lo hi) : Stmt.Laid R lo hi (.block b) :=
  weaken (.wrapper rfl ⟨rfl, rfl, h.mem⟩ h.lt h.row_self rfl trivial) h.start_le h.le_stop

end Program.Node.Laid

/-! ## Types and parameters -/

namespace Parse

variable {α : Type} {c : Cursor}

/-- What is read with commas between lies side by side, if each part lies where it is read. -/
theorem reads_commaSeparated {item : Parse α} (nodes : α → List Program.Node) {P : α → Prop}
    (hitem : ∀ c, c.Ready R → Reads item c fun a c' =>
      c.Moved R c' ∧ Row R c.pos c'.done (nodes a) ∧ P a)
    (hc : c.Ready R) :
    Reads (commaSeparated item) c fun as c' =>
      c.Moved R c' ∧ Row R c.pos c'.done (as.flatMap nodes) ∧ ∀ a ∈ as, P a := by
  -- The loop keeps the row of what it has read; a part that is read goes before the rest.
  refine Reads.collect (I := Ready R) (L := fun c as c' =>
    c.Moved R c' ∧ Row R c.pos c'.done (as.flatMap nodes) ∧ ∀ a ∈ as, P a) (fun c hc => ?_) hc
  refine .peek_bind ?_
  refine .ite (fun _ => .pure ⟨.refl hc, .nil, nofun⟩) fun _ => ?_
  refine (hitem _ hc).bind fun a c₁ ⟨h₁, hrow, hP⟩ => ?_
  refine (reads_eat h₁.ready .comma).bind fun b c₂ ⟨h₂, _⟩ => .pure ?_
  have hrow := hrow.weaken (Nat.le_refl _) h₂.done_le
  refine ⟨h₂.ready, ⟨h₁.trans h₂, ?_, ?_⟩, fun as c₃ ⟨h₃, hrows, hPs⟩ => ⟨(h₁.trans h₂).trans h₃, ?_, ?_⟩⟩
  · simpa using hrow
  · simpa using hP
  · exact hrow.append hrows h₂.done_le_pos (h₁.trans h₂).pos_le h₃.done_le
  · exact List.forall_mem_cons.mpr ⟨hP, hPs⟩

/-- The spans of a type that is read lie where the tokens do. -/
theorem reads_typeExprWith (fuel : Nat) (hc : c.Ready R) :
    Reads (typeExprWith fuel) c fun e c' => c.Moved R c' ∧ ∀ s ∈ e.spans, s ∈ R := by
  induction fuel generalizing c with
  | zero => exact .fail _
  | succ fuel ih =>
    refine .here_bind ?_
    refine .peek_bind ?_
    refine .ite (fun hk => ?_) fun _ => ?_
    · refine (reads_next hc (isMark_of_isKeyword hk)).bind ?_
      rintro _ c₁ ⟨-, h₁⟩
      refine (reads_symbol h₁.moved.ready _ _).bind ?_
      rintro _ c₂ ⟨-, h₂⟩
      have hparam : ∀ c, c.Ready R → Reads (typeExprWith fuel) c fun e c' =>
          c.Moved R c' ∧ Row R c.pos c'.done [] ∧ ∀ s ∈ e.spans, s ∈ R :=
        fun c hc => (ih hc).mono fun _ _ h => ⟨h.1, .nil, h.2⟩
      refine (reads_commaSeparated (fun _ => []) hparam h₂.moved.ready).bind ?_
      rintro params c₃ ⟨h₃, -, hparams⟩
      refine (reads_symbol h₃.ready _ _).bind ?_
      rintro _ c₄ ⟨-, h₄⟩
      have hmoved := (h₂.moved.trans h₃).trans h₄.moved
      -- what is left to say when the result type is known, or known to be left out
      have hend (result : Option TypeExpr) (c₅ : Cursor) (h₅ : c₄.Moved R c₅)
          (hresult : ∀ s ∈ TypeExpr.spansIn result, s ∈ R) :
          Reads (do return TypeExpr.function params result (c.current.span.join (← before)) :
            Parse TypeExpr) c₅ fun e c' => c.Moved R c' ∧ ∀ s ∈ e.spans, s ∈ R := by
        refine .before_bind (.pure ⟨h₁.moved.trans (hmoved.trans h₅), ?_⟩)
        have hspan := (h₁.join_before (hmoved.trans h₅)).mem
        have hin : ∀ s ∈ params.flatMap TypeExpr.spans, s ∈ R := by
          intro s hs
          obtain ⟨e, he, hs⟩ := List.mem_flatMap.mp hs
          exact hparams e he s hs
        rw [TypeExpr.spans_function]
        exact List.forall_mem_cons.mpr ⟨hspan, List.forall_mem_append.mpr ⟨hin, hresult⟩⟩
      refine .peek_bind ?_
      refine .ite (fun _ => ?_) fun _ => ?_
      · refine .map_bind (ih h₄.moved.ready) ?_
        rintro r c₅ ⟨h₅, hr⟩
        exact hend (some r) c₅ h₅ (by simpa [TypeExpr.spansIn] using hr)
      · exact .pure_bind (hend none c₄ (.refl h₄.moved.ready) (List.forall_mem_nil _))
    · refine (reads_identifier hc _).bind ?_
      rintro name c₁ ⟨-, h₁⟩
      exact .pure ⟨h₁.moved, List.forall_mem_singleton.mpr h₁.mem⟩

theorem reads_typeExpr (hc : c.Ready R) :
    Reads typeExpr c fun e c' => c.Moved R c' ∧ ∀ s ∈ e.spans, s ∈ R :=
  reads_typeExprWith (c.left + 1) hc

/-- The spans of the type behind a name in a list of parameters, if there is one. -/
def ParameterName.typeSpans (n : ParameterName) : List Span :=
  TypeExpr.spansIn n.type

/-- The parameter that a name becomes, with a type that is written in a region. -/
structure ParameterName.Becomes (R : Region) (n : ParameterName) (p : Parameter) : Prop where
  span_eq : p.span = n.span
  type : ∀ s ∈ p.type.spans, s ∈ R

/-- A name is laid out where it is read, as the parameter that it becomes. -/
def ReadsName (R : Region) (c c' : Cursor) (n : ParameterName) : Prop :=
  (∀ s ∈ n.typeSpans, s ∈ R) ∧ ∀ p, n.Becomes R p → Program.Node.Laid R c.pos c'.done (.param p)

theorem reads_parameterName (hc : c.Ready R) :
    Reads parameterName c fun r c' => c.Moved R c' ∧ ∀ name ∈ r, ReadsName R c c' name.1 := by
  refine .peek_bind ?_
  refine .ite (fun _ => .pure ⟨.refl hc, fun name hname => ?_⟩) fun _ => ?_
  · cases hname
  refine .here_bind ?_
  refine (reads_identifier hc _).bind fun name c₁ ⟨_, h₁⟩ => ?_
  -- a name is a node of its own, whatever comes between it and the next one
  have hend (type : Option TypeExpr) (more : Bool) (c' : Cursor) (h' : c₁.Moved R c')
      (htype : ∀ s ∈ TypeExpr.spansIn type, s ∈ R) :
      c.Moved R c' ∧ ∀ n ∈ some ((⟨name, c.current.span, type⟩ : ParameterName), more),
        ReadsName R c c' n.1 := by
    refine ⟨h₁.moved.trans h', ?_⟩
    rintro _ ⟨⟩
    refine ⟨htype, fun p hp => ?_⟩
    have hlaid : Program.Node.Laid R c.pos c₁.done (.param p) := by
      refine .behind h₁ ?_ .nil (Nat.le_refl _) hp.type trivial
      rw [Program.Node.span_param, hp.span_eq]
      exact h₁.current
    exact hlaid.weaken (Nat.le_refl _) h'.done_le
  refine (reads_eat h₁.moved.ready .comma).bind fun b c₂ ⟨h₂, _⟩ => ?_
  refine .ite (fun _ => .pure (hend none true c₂ h₂ nofun)) fun _ => ?_
  refine .peek_bind ?_
  refine .ite (fun _ => .pure (hend none false c₂ h₂ nofun)) fun _ => ?_
  refine (reads_typeExpr h₂.ready).bind fun type c₃ ⟨h₃, htype⟩ => ?_
  refine (reads_eat h₃.ready .comma).bind fun b c₄ ⟨h₄, _⟩ => .pure ?_
  exact hend (some type) b c₄ ((h₂.trans h₃).trans h₄) (by simpa [TypeExpr.spansIn] using htype)

/-- Names become parameters with types that are written behind names. -/
theorem becomes_of_shareTypes {names : List ParameterName} {params : List Parameter}
    (h : shareTypes names = .ok params) (htypes : ∀ n ∈ names, ∀ s ∈ n.typeSpans, s ∈ R) :
    List.Forall₂ (ParameterName.Becomes R) names params := by
  induction names generalizing params with
  | nil =>
    cases h
    exact .nil
  | cons n names ih =>
    rw [shareTypes] at h
    split at h
    · cases h
    · rename_i type htype
      cases hs : shareTypes names with
      | error e =>
        rw [hs] at h
        cases h
      | ok ps =>
        rw [hs] at h
        cases h
        refine .cons ⟨rfl, fun s hs => ?_⟩ (ih hs fun m hm => htypes m (List.mem_cons_of_mem _ hm))
        -- the type that a name gets is one that is written behind some name
        obtain ⟨m, hm, hmtype⟩ := List.exists_of_findSome?_eq_some htype
        exact htypes m hm s (by simpa [ParameterName.typeSpans, TypeExpr.spansIn, hmtype] using hs)

/-- What is known of the names in a list of parameters. -/
structure ReadsNames (R : Region) (c : Cursor) (names : List ParameterName) (c' : Cursor) :
    Prop where
  moved : c.Moved R c'
  types : ∀ n ∈ names, ∀ s ∈ n.typeSpans, s ∈ R
  row : ∀ params, List.Forall₂ (ParameterName.Becomes R) names params →
    Row R c.pos c'.done (params.map .param)

theorem reads_names (hc : c.Ready R) : Reads (collect parameterName) c (ReadsNames R c) := by
  refine Reads.collect (I := Ready R) (L := ReadsNames R) (fun c hc => ?_) hc
  refine (reads_parameterName hc).mono fun r c₁ ⟨h₁, hr⟩ => ?_
  cases r with
  | none =>
    refine ⟨h₁, nofun, ?_⟩
    rintro _ ⟨⟩
    exact .nil
  | some r =>
    obtain ⟨htypes, hlaid⟩ := hr r rfl
    refine ⟨h₁.ready, ⟨h₁, List.forall_mem_singleton.mpr htypes, ?_⟩, fun names c₂ hnames =>
      ⟨h₁.trans hnames.moved, List.forall_mem_cons.mpr ⟨htypes, hnames.types⟩, ?_⟩⟩
    · rintro _ (_ | ⟨hp, ⟨⟩⟩)
      exact (hlaid _ hp).row
    · rintro _ (_ | ⟨hp, hps⟩)
      exact (hlaid _ hp).row.append (hnames.row _ hps) h₁.done_le_pos h₁.pos_le
        hnames.moved.done_le

/-- The parameters of a function lie side by side. -/
theorem reads_signature (hc : c.Ready R) :
    Reads signature c fun r c' => c.Moved R c' ∧ Row R c.pos c'.done (r.1.map .param) ∧
      ∀ s ∈ TypeExpr.spansIn r.2, s ∈ R := by
  refine (reads_symbol hc _ _).bind fun _ c₁ ⟨_, h₁⟩ => ?_
  refine (reads_names h₁.moved.ready).bind fun names c₂ hnames => ?_
  refine .ofExcept_bind fun params hparams => ?_
  refine (reads_symbol hnames.moved.ready _ _).bind fun _ c₃ ⟨_, h₃⟩ => ?_
  have hmoved := (h₁.moved.trans hnames.moved).trans h₃.moved
  have hrow := (hnames.row params (becomes_of_shareTypes hparams hnames.types)).weaken
    h₁.moved.pos_le h₃.moved.done_le
  refine .peek_bind (.ite (fun _ => .pure ⟨hmoved, hrow, nofun⟩) fun _ => ?_)
  refine (reads_typeExpr h₃.moved.ready).bind fun type c₄ ⟨h₄, htype⟩ => .pure ?_
  exact ⟨hmoved.trans h₄, hrow.weaken (Nat.le_refl _) h₄.done_le,
    by simpa [TypeExpr.spansIn] using htype⟩

end Parse

/-! ## Expressions and statements -/

/-- What an expression reader reads lies where it is read. -/
def ReadsExpr (R : Region) (p : Parse Expr) : Prop :=
  ∀ c : Cursor, c.Ready R → Reads p c fun e c' => c.Moved R c' ∧ e.Laid R c.pos c'.done

/-- What a reader goes on from lies behind where that begins and before the cursor. -/
def ReadsOn (R : Region) (p : Expr → Parse Expr) : Prop :=
  ∀ lo e c, c.Ready R → e.Laid R lo c.done → Reads (p e) c fun e' c' =>
    c.Moved R c' ∧ e'.Laid R lo c'.done

/-- What a block reader reads lies where it is read. -/
def ReadsBlock (R : Region) (p : Parse Block) : Prop :=
  ∀ c : Cursor, c.Ready R → Reads p c fun b c' => c.Moved R c' ∧ b.Laid R c.pos c'.done

/-- What a statement reader reads lies where it is read. -/
def ReadsStmt (R : Region) (p : Parse Stmt) : Prop :=
  ∀ c : Cursor, c.Ready R → Reads p c fun s c' => c.Moved R c' ∧ s.Laid R c.pos c'.done

/-- What is read of a choice lies where it is read, and a token of it was read. -/
structure ReadsChoice (R : Region) (c : Cursor) (s : Stmt) (c' : Cursor) : Prop where
  laid : s.Laid R c.pos c'.done
  passed : ∃ c₁, c.Passed R c₁ ∧ c₁.Moved R c'

theorem ReadsChoice.moved {c c' : Cursor} {s : Stmt} (h : ReadsChoice R c s c') : c.Moved R c' := by
  obtain ⟨c₁, hpassed, hmoved⟩ := h.passed
  exact hpassed.moved.trans hmoved

/-- **What the readers of a level read is laid out where they read it.** -/
structure Level.Sound (R : Region) (level : Level) : Prop where
  expression : ReadsExpr R level.expression
  unary : ReadsExpr R level.unary
  calls : ReadsOn R level.calls
  binary : ∀ least, ReadsExpr R (level.binary least)
  operators : ∀ least, ReadsOn R fun e => level.operators e least
  block : ReadsBlock R level.block
  choice : ∀ c : Cursor, c.Ready R → c.isKeyword .ifK = true → Reads level.choice c (ReadsChoice R c)
  statement : ReadsStmt R level.statement

namespace Level

section Below

variable {below : Option Level} (hbelow : ∀ level ∈ below, level.Sound R) {c : Cursor}
include hbelow

theorem reads_enter : Reads (enter below) c fun level c' => level.Sound R ∧ c' = c := by
  cases below with
  | none => exact .fail _
  | some level => exact .pure ⟨hbelow level rfl, rfl⟩

theorem enter_bind {β : Type} {f : Level → Parse β} {Q : β → Cursor → Prop}
    (h : ∀ level, level.Sound R → Reads (f level) c Q) : Reads (enter below >>= f) c Q := by
  refine (reads_enter hbelow).bind ?_
  rintro level _ ⟨hlevel, rfl⟩
  exact h level hlevel

theorem reads_expressionUnder : ReadsExpr R (expressionUnder below) :=
  fun c hc => enter_bind hbelow fun _ hlevel => hlevel.binary 1 c hc

theorem reads_blockUnder : ReadsBlock R (blockUnder below) := by
  intro c hc
  refine enter_bind hbelow fun level hlevel => ?_
  refine (reads_symbol hc _ _).bind ?_
  rintro _ c₁ ⟨rfl, h₁⟩
  have hstatements : Reads (collect do
      skipSeparators
      if ← peek (fun c => c.isSymbol .rbrace || c.isEof) then return none
      let s ← level.statement
      if !(← peek (·.isSymbol .rbrace)) then terminator .statementEnd
      return some (s, true)) c₁ fun ss c' => c₁.Moved R c' ∧ Row R c₁.pos c'.done (ss.map .stmt) := by
    refine Reads.collect (I := Ready R) (L := fun c ss c' =>
      c.Moved R c' ∧ Row R c.pos c'.done (ss.map .stmt)) (fun c hc => ?_) h₁.moved.ready
    refine (reads_skipSeparators hc).bind fun _ c₁ h₁ => ?_
    refine .peek_bind (.ite (fun _ => .pure ⟨h₁, .nil⟩) fun _ => ?_)
    refine (hlevel.statement c₁ h₁.ready).bind fun s c₂ ⟨h₂, hs⟩ => ?_
    -- behind a statement the round may end at once or behind what ends the statement
    have hend : ∀ c₃, c₂.Moved R c₃ → Reads (pure (some (s, true))) c₃ (Reads.Round (Ready R)
        (fun c ss c' => c.Moved R c' ∧ Row R c.pos c'.done (ss.map .stmt)) c) := by
      intro c₃ h₃
      have hmoved := (h₁.trans h₂).trans h₃
      have hs := (hs.weaken h₁.pos_le h₃.done_le).row
      refine .pure ⟨hmoved.ready, ⟨hmoved, hs⟩, fun ss c₄ ⟨h₄, hss⟩ => ⟨hmoved.trans h₄, ?_⟩⟩
      exact hs.append hss h₃.done_le_pos hmoved.pos_le h₄.done_le
    refine .peek_bind (.ite (fun _ => ?_) fun _ => ?_)
    · exact (reads_terminator h₂.ready _).bind fun _ c₃ h₃ => hend c₃ h₃
    · exact hend c₂ (.refl h₂.ready)
  refine hstatements.bind fun ss c₂ ⟨h₂, hss⟩ => ?_
  refine (reads_symbol h₂.ready _ _).bind fun _ c₃ ⟨_, h₃⟩ => .before_bind (.pure ?_)
  have hmoved := h₂.trans h₃.moved
  exact ⟨h₁.moved.trans hmoved,
    .upToBefore h₁ hmoved rfl (hss.weaken (Nat.le_refl _) h₃.moved.done_le) nofun trivial⟩

theorem reads_functionUnder {k : Keyword} (hc : c.Ready R) (hk : c.isKeyword k = true) :
    Reads (functionUnder below) c fun e c' => c.Moved R c' ∧ e.Laid R c.pos c'.done := by
  refine (reads_next hc (isMark_of_isKeyword hk)).bind ?_
  rintro _ c₁ ⟨rfl, h₁⟩
  refine (reads_signature h₁.moved.ready).bind ?_
  rintro ⟨params, result⟩ c₂ ⟨h₂, hparams, hresult⟩
  refine (reads_blockUnder hbelow c₂ h₂.ready).bind fun b c₃ ⟨h₃, hb⟩ => .pure ?_
  exact ⟨(h₁.moved.trans h₂).trans h₃,
    .upToLast h₁ rfl rfl hparams hb h₂.done_le_pos h₂.pos_le hresult trivial⟩

theorem reads_primaryUnder : ReadsExpr R (primaryUnder below) := by
  intro c hc e c' h
  unfold primaryUnder at h
  dsimp only at h
  split at h
  · rename_i hk
    cases h
    have hp := hc.passed (by rw [Cursor.kind, hk]; rfl)
    exact ⟨hp.moved, .token hp rfl rfl rfl trivial⟩
  · rename_i hk
    cases h
    have hp := hc.passed (by rw [Cursor.kind, hk]; rfl)
    exact ⟨hp.moved, .token hp rfl rfl rfl trivial⟩
  · rename_i hk
    have hp := hc.passed (by rw [Cursor.kind, hk]; rfl)
    -- the expression in parentheses keeps its own span
    have hreads : Reads (do
        let inner ← expressionUnder below
        let _ ← symbol .rparen .parenthesisClose
        return inner : Parse Expr) c.advance fun e c' => c.Moved R c' ∧ e.Laid R c.pos c'.done := by
      refine (reads_expressionUnder hbelow _ hp.moved.ready).bind fun e c₁ ⟨h₁, he⟩ => ?_
      refine (reads_symbol h₁.ready _ _).bind fun _ c₂ ⟨_, h₂⟩ => .pure ?_
      exact ⟨(hp.moved.trans h₁).trans h₂.moved, he.weaken hp.moved.pos_le h₂.moved.done_le⟩
    exact hreads e c' h
  · rename_i hk
    exact reads_functionUnder hbelow hc (k := .funcK) (by simp [isKeyword, Cursor.kind, hk]) e c' h
  · cases h

omit hbelow in
theorem reads_selectorUnder : ReadsOn R selectorUnder := by
  intro lo e c hc he
  refine .peek_bind (.ite (fun _ => .pure ⟨.refl hc, he⟩) fun hdot => ?_)
  have hdot : c.isSymbol .dot = true := by simpa using hdot
  split
  · rename_i target span
    refine (reads_next hc (isMark_of_isSymbol hdot)).bind fun _ c₁ ⟨_, h₁⟩ => ?_
    refine (reads_identifier h₁.moved.ready _).bind fun member c₂ ⟨_, h₂⟩ => .before_bind (.pure ?_)
    have hmid : c.done < c₂.done :=
      Nat.lt_of_le_of_lt hc.done_le (Nat.lt_of_lt_of_le h₁.lt h₂.moved.done_le)
    exact ⟨h₁.moved.trans h₂.moved, .onward hc h₁ h₂.moved he rfl .nil hmid rfl trivial⟩
  · exact .fail _

theorem reads_callsUnder : ReadsOn R (callsUnder below) := by
  intro lo e c hc he
  refine (reads_eat hc .lparen).bind fun b c₁ ⟨hm, hpassed, hstay⟩ => .ite (fun hb => ?_) fun hb => ?_
  · have h₁ := hpassed hb
    refine enter_bind hbelow fun level hlevel => ?_
    have harguments := reads_commaSeparated (fun e => [.expr e]) (P := fun _ => True)
      (fun c hc => (hlevel.expression c hc).mono fun e c' ⟨hm, he⟩ => ⟨hm, he.row, trivial⟩)
      h₁.moved.ready
    refine harguments.bind fun es c₂ ⟨h₂, hes, _⟩ => ?_
    refine (reads_symbol h₂.ready _ _).bind fun _ c₃ ⟨_, h₃⟩ => .before_bind ?_
    have hmoved := h₂.trans h₃.moved
    rw [← List.map_eq_flatMap] at hes
    -- what is called ends before the parenthesis opens, and the arguments lie behind it
    have hbehind := Nat.le_trans he.le_stop (Nat.le_trans hc.done_le h₁.moved.pos_le)
    have hrow : Row R (Program.Node.expr e).span.start.offset c₂.done
        (.expr e :: es.map .expr) :=
      he.row_self.append hes hbehind (Nat.le_trans (Nat.le_of_lt he.lt) hbehind)
        (Nat.le_trans he.le_stop (h₁.moved.trans h₂).done_le)
    refine (hlevel.calls lo _ c₃ h₃.moved.ready ?_).mono fun e' c₄ ⟨h₄, he'⟩ =>
      ⟨(h₁.moved.trans hmoved).trans h₄, he'⟩
    exact .onward hc h₁ hmoved he rfl hrow (Nat.lt_of_le_of_lt h₂.done_le_pos h₃.lt) rfl trivial
  · rw [hstay (by simpa using hb)]
    exact .peek_bind (.ite (fun _ => .fail _) fun _ => .pure ⟨.refl hc, he⟩)

theorem reads_postfixUnder : ReadsExpr R (postfixUnder below) := by
  intro c hc
  refine (reads_primaryUnder hbelow c hc).bind fun e c₁ ⟨h₁, he⟩ => ?_
  refine (reads_selectorUnder c.pos e c₁ h₁.ready he).bind fun e c₂ ⟨h₂, he⟩ => ?_
  exact (reads_callsUnder hbelow c.pos e c₂ h₂.ready he).mono fun e c₃ ⟨h₃, he⟩ =>
    ⟨(h₁.trans h₂).trans h₃, he⟩

theorem reads_operator {s : Symbol} (op : UnaryOp) (hc : c.Ready R) (hs : c.isSymbol s = true) :
    Reads (unaryUnder.operator below op) c fun e c' => c.Moved R c' ∧ e.Laid R c.pos c'.done := by
  refine (reads_next hc (isMark_of_isSymbol hs)).bind ?_
  rintro _ c₁ ⟨rfl, h₁⟩
  refine enter_bind hbelow fun level hlevel => ?_
  refine (hlevel.unary c₁ h₁.moved.ready).bind fun e c₂ ⟨h₂, he⟩ => .pure ⟨h₁.moved.trans h₂, ?_⟩
  exact .upToLast h₁ rfl rfl .nil he (Nat.le_refl _) (Nat.le_refl _) nofun trivial

theorem reads_unaryUnder : ReadsExpr R (unaryUnder below) := by
  intro c hc
  refine (reads_eat hc .plus).bind fun b c₁ ⟨h₁, _, hstay⟩ => .ite (fun _ => ?_) fun hb => ?_
  · refine enter_bind hbelow fun level hlevel => ?_
    exact (hlevel.unary c₁ h₁.ready).mono fun e c₂ ⟨h₂, he⟩ =>
      ⟨h₁.trans h₂, he.weaken h₁.pos_le (Nat.le_refl _)⟩
  · rw [hstay (by simpa using hb)]
    refine .peek_bind (.ite (fun hs => reads_operator hbelow .neg hc hs) fun _ => ?_)
    refine .peek_bind (.ite (fun hs => reads_operator hbelow .not hc hs) fun _ => ?_)
    exact reads_postfixUnder hbelow c hc

theorem reads_operatorsUnder (least : Nat) : ReadsOn R fun e => operatorsUnder below e least := by
  intro lo e c hc he e' c' h
  unfold operatorsUnder at h
  dsimp only at h
  split at h
  · cases h
    exact ⟨.refl hc, he⟩
  · rename_i op hop
    split at h
    · cases h
      exact ⟨.refl hc, he⟩
    · -- a token that is an operator is none of those without a text
      have hk : c.kind.isMark = false := by
        cases hk : c.kind <;> simp_all [TokenKind.binaryOp?, TokenKind.isMark]
      have h₁ := hc.passed hk
      have hreads : Reads (do
          let level ← enter below
          let right ← level.binary (op.precedence + 1)
          level.operators (.binary op e right (e.span.join right.span)) least : Parse Expr)
          c.advance fun e' c' => c.advance.Moved R c' ∧ e'.Laid R lo c'.done := by
        refine enter_bind hbelow fun level hlevel => ?_
        refine (hlevel.binary _ c.advance h₁.moved.ready).bind fun right c₂ ⟨h₂, hr⟩ => ?_
        refine (hlevel.operators least lo _ c₂ h₂.ready ?_).mono fun e' c₃ ⟨h₃, he'⟩ =>
          ⟨h₂.trans h₃, he'⟩
        exact .binary op he hr (Nat.le_trans hc.done_le h₁.moved.pos_le)
      obtain ⟨hm, he'⟩ := hreads e' c' h
      exact ⟨h₁.moved.trans hm, he'⟩

theorem reads_binaryUnder (least : Nat) : ReadsExpr R (binaryUnder below least) := by
  intro c hc
  refine (reads_unaryUnder hbelow c hc).bind fun e c₁ ⟨h₁, he⟩ => ?_
  exact (reads_operatorsUnder hbelow least c.pos e c₁ h₁.ready he).mono fun e c₂ ⟨h₂, he⟩ =>
    ⟨h₁.trans h₂, he⟩

/-! ### Statements -/

theorem reads_variableUnder {k : Keyword} (hc : c.Ready R) (hk : c.isKeyword k = true) :
    Reads (variableUnder below) c fun d c' => c.Moved R c' ∧
      Stmt.Laid R c.pos c'.done (.var d.name d.type d.value d.span) := by
  refine (reads_next hc (isMark_of_isKeyword hk)).bind ?_
  rintro _ c₁ ⟨rfl, h₁⟩
  refine (reads_identifier h₁.moved.ready _).bind fun name c₂ ⟨_, h₂⟩ => ?_
  -- What follows the name: perhaps a type, and then perhaps a value.
  have hvalue : ∀ (type : Option TypeExpr) c₃, c₁.Moved R c₃ →
      (∀ s ∈ TypeExpr.spansIn type, s ∈ R) → Reads (do
        let value ← if ← eat .equals then some <$> expressionUnder below else pure none
        return (⟨name, type, value, c.current.span.join (← before)⟩ : VarDecl)) c₃ fun d c' =>
          c.Moved R c' ∧ Stmt.Laid R c.pos c'.done (.var d.name d.type d.value d.span) := by
    intro type c₃ h₃ htype
    refine (reads_eat h₃.ready .equals).bind fun b c₄ ⟨h₄, _⟩ => .ite (fun _ => ?_) fun _ => ?_
    · refine .map_bind (reads_expressionUnder hbelow c₄ h₄.ready) fun e c₅ ⟨h₅, he⟩ => ?_
      have hmoved := (h₃.trans h₄).trans h₅
      refine .before_bind (.pure ⟨h₁.moved.trans hmoved, ?_⟩)
      exact .upToBefore h₁ hmoved rfl (he.weaken (h₃.trans h₄).pos_le (Nat.le_refl _)).row htype
        trivial
    · have hmoved := h₃.trans h₄
      refine .pure_bind (.before_bind (.pure ⟨h₁.moved.trans hmoved, ?_⟩))
      exact .upToBefore h₁ hmoved rfl .nil htype trivial
  refine .peek_bind (.ite (fun _ => ?_) fun _ => ?_)
  · exact .pure_bind (hvalue none c₂ h₂.moved nofun)
  · refine .map_bind (reads_typeExpr h₂.moved.ready) fun type c₃ ⟨h₃, htype⟩ => ?_
    exact hvalue (some type) c₃ (h₂.moved.trans h₃) (by simpa [TypeExpr.spansIn] using htype)

/-- What a reader of simple statements reads, where the statement begins at `c`. -/
def ReadsSimple (R : Region) (p : Parse Stmt) (c c₁ : Cursor) : Prop :=
  Reads p c₁ fun s c' => c.Moved R c' ∧ s.Laid R c.pos c'.done ∧ s.isSimple = true

theorem reads_targetUnder? {c₁ c₂ : Cursor} {name : String} {kind : TokenKind} {p : Parse Stmt}
    (h₁ : c.Passed R c₁) (h₂ : c₁.Passed R c₂)
    (hp : targetUnder? below name c.current.span kind = some p) : ReadsSimple R p c c₂ := by
  have hmoved := h₁.moved.trans h₂.moved
  -- definitions and assignments both end with a value
  have hvalue (build : Expr → Span → Stmt) (hspan : ∀ e s, (build e s).span = s)
      (hparts : ∀ e s, (Program.Node.stmt (build e s)).parts = [] ++ [.expr e])
      (htypes : ∀ e s, (Program.Node.stmt (build e s)).types = [])
      (hpost : ∀ e s, (Program.Node.stmt (build e s)).SimplePost)
      (hsimple : ∀ e s, (build e s).isSimple = true) :
      ReadsSimple R (do
        let value ← expressionUnder below
        return build value (c.current.span.join value.span)) c c₂ := by
    refine (reads_expressionUnder hbelow c₂ h₂.moved.ready).bind fun e c₃ ⟨h₃, he⟩ => .pure ?_
    refine ⟨hmoved.trans h₃, ?_, hsimple _ _⟩
    exact .upToLast (m := .expr e) h₁ (hspan _ _) (hparts _ _) .nil he (Nat.le_refl _)
      h₂.moved.pos_le (htypes _ _ ▸ nofun) (hpost _ _)
  have hstep (up : Bool) : ReadsSimple R (do
      return .increment name up (c.current.span.join (← before))) c c₂ := by
    refine .before_bind (.pure ⟨hmoved, ?_, rfl⟩)
    exact .upToBefore h₁ h₂.moved rfl .nil nofun trivial
  unfold targetUnder? at hp
  split at hp
  · cases hp
    exact hvalue (.define name) (fun _ _ => rfl) (fun _ _ => rfl) (fun _ _ => rfl)
      (fun _ _ => trivial) fun _ _ => rfl
  · cases hp
    exact hstep true
  · cases hp
    exact hstep false
  · obtain ⟨op, -, rfl⟩ := Option.map_eq_some_iff.mp hp
    exact hvalue (.assign name op) (fun _ _ => rfl) (fun _ _ => rfl) (fun _ _ => rfl)
      (fun _ _ => trivial) fun _ _ => rfl

omit hbelow in
/-- What follows a name makes it the start of a statement only if it is a symbol. -/
theorem isMark_of_targetUnder? {name : String} {start : Span} {kind : TokenKind} {p : Parse Stmt}
    (h : targetUnder? below name start kind = some p) : kind.isMark = false := by
  cases kind <;> first | rfl | cases h

theorem reads_simpleUnder (hc : c.Ready R) : ReadsSimple R (simpleUnder below) c c := by
  intro s c' h
  unfold simpleUnder at h
  dsimp only at h
  split at h
  · rename_i p hp
    split at hp
    · rename_i name second rest hk hrest
      have h₁ := hc.passed (by rw [hk]; rfl)
      -- what the second token is decides; the cursor is moved behind both
      have hsecond : c.advance.current = second := by
        rw [advance, hrest]
      have h₂ := h₁.moved.ready.passed (by
        rw [Cursor.kind, hsecond]
        exact isMark_of_targetUnder? hp)
      exact reads_targetUnder? hbelow h₁ h₂ hp s c' h
    · cases hp
  · have hexpr : Reads (Stmt.expr <$> expressionUnder below) c fun s c' =>
        c.Moved R c' ∧ s.Laid R c.pos c'.done ∧ s.isSimple = true :=
      .map ((reads_expressionUnder hbelow c hc).mono fun e c' ⟨hm, he⟩ => ⟨hm, he.exprStmt, rfl⟩)
    exact hexpr s c' h

/-- What is read of a simple statement that may be missing. -/
structure ReadsSimpleIn (R : Region) (c : Cursor) (r : Option Stmt) (c' : Cursor) : Prop where
  moved : c.Moved R c'
  row : Row R c.pos c'.done (r.toList.map .stmt)
  simple : ∀ s ∈ r, s.isSimple = true

omit hbelow in
theorem ReadsSimpleIn.none (hc : c.Ready R) : ReadsSimpleIn R c none c :=
  ⟨.refl hc, .nil, nofun⟩

theorem reads_simpleIn (hc : c.Ready R) :
    Reads (simpleUnder below) c fun s c' => ReadsSimpleIn R c (some s) c' := by
  refine (reads_simpleUnder hbelow hc).mono fun s c' ⟨hm, hs, hsimple⟩ => ⟨hm, hs.row, ?_⟩
  rintro _ ⟨⟩
  exact hsimple

theorem reads_choiceUnder {k : Keyword} (hc : c.Ready R) (hk : c.isKeyword k = true) :
    Reads (choiceUnder below) c (ReadsChoice R c) := by
  refine (reads_next hc (isMark_of_isKeyword hk)).bind ?_
  rintro _ c₁ ⟨rfl, h₁⟩
  refine (reads_expressionUnder hbelow c₁ h₁.moved.ready).bind fun e c₂ ⟨h₂, he⟩ => ?_
  refine (reads_blockUnder hbelow c₂ h₂.ready).bind fun b c₃ ⟨h₃, hb⟩ => ?_
  have hmoved := h₂.trans h₃
  have hparts : Row R c₁.pos c₃.done [.expr e, .block b] :=
    he.row.append hb.row h₂.done_le_pos h₂.pos_le h₃.done_le
  -- What is behind the `else` lies beside the two parts before it.
  have hend : ∀ (elseBlock : Option Block) c₄, c₃.Moved R c₄ →
      Row R c₃.pos c₄.done (elseBlock.toList.map .block) →
      Reads (do
        return Stmt.cond e b elseBlock (c.current.span.join (← before))) c₄ (ReadsChoice R c) := by
    intro elseBlock c₄ h₄ helse
    have hall := hparts.append helse h₃.done_le_pos hmoved.pos_le h₄.done_le
    exact .before_bind (.pure
      ⟨.upToBefore h₁ (hmoved.trans h₄) rfl hall nofun trivial, c₁, h₁, hmoved.trans h₄⟩)
  refine .peek_bind (.ite (fun _ => ?_) fun _ => .pure_bind (hend none c₃ (.refl h₃.ready) .nil))
  refine (reads_skipSeparators h₃.ready).bind fun _ c₄ h₄ => ?_
  refine (reads_next_moved h₄.ready).bind fun _ c₅ h₅ => .peek_bind (.ite (fun hif => ?_) fun _ => ?_)
  · refine .here_bind (enter_bind hbelow fun level hlevel => ?_)
    refine (hlevel.choice c₅ h₅.ready hif).bind fun s c₆ hs => .before_bind (.pure_bind ?_)
    obtain ⟨c', hpassed, hrest⟩ := hs.passed
    have hblock : Block.Laid R c₅.pos c₆.done (.mk [s] (c₅.current.span.join c₆.before)) :=
      .wrapper rfl (hpassed.join_before hrest) (Nat.lt_of_lt_of_le hpassed.lt hrest.done_le)
        hs.laid.row rfl trivial
    exact hend _ c₆ ((h₄.trans h₅).trans hs.moved)
      (hblock.weaken (h₄.trans h₅).pos_le (Nat.le_refl _)).row
  · refine .map_bind (reads_blockUnder hbelow c₅ h₅.ready) fun b c₆ ⟨h₆, hb⟩ => ?_
    exact hend (some b) c₆ ((h₄.trans h₅).trans h₆)
      (hb.weaken (h₄.trans h₅).pos_le (Nat.le_refl _)).row

theorem reads_loopUnder {k : Keyword} (hc : c.Ready R) (hk : c.isKeyword k = true) :
    Reads (loopUnder below) c fun s c' => c.Moved R c' ∧ s.Laid R c.pos c'.done := by
  refine (reads_next hc (isMark_of_isKeyword hk)).bind ?_
  rintro _ c₁ ⟨rfl, h₁⟩
  -- The parts of the head lie side by side, and the body behind them.
  have hend : ∀ (init : Option Stmt) (condition : Option Expr) (post : Option Stmt) c₂,
      c₁.Moved R c₂ →
      Row R c₁.pos c₂.done (init.toList.map .stmt ++ (condition.toList.map .expr ++
        post.toList.map .stmt)) → (∀ p ∈ post, p.isSimple = true) →
      Reads (do
        let body ← blockUnder below
        return Stmt.loop init condition post body (c.current.span.join body.span)) c₂ fun s c' =>
          c.Moved R c' ∧ s.Laid R c.pos c'.done := by
    intro init condition post c₂ h₂ hhead hpost
    refine (reads_blockUnder hbelow c₂ h₂.ready).bind ?_
    rintro b c₃ ⟨h₃, hb⟩
    refine .pure ⟨(h₁.moved.trans h₂).trans h₃, .upToLast h₁ rfl ?_ hhead hb h₂.done_le_pos
      h₂.pos_le nofun ?_⟩
    · simp [Program.Node.parts, Program.Node.ofStmt]
    · cases post with
      | none => trivial
      | some p => exact hpost p rfl
  refine .peek_bind (.ite (fun _ => ?_) fun _ => ?_)
  · exact hend none none none c₁ (.refl h₁.moved.ready) .nil (by simp)
  refine .optional_bind (Q := ReadsSimpleIn R c₁) (.none h₁.moved.ready)
    (reads_simpleIn hbelow h₁.moved.ready) fun init c₂ hinit => ?_
  refine (reads_eat hinit.moved.ready _).bind ?_
  rintro b c₃ ⟨h₃, -, hstay⟩
  refine .ite (fun _ => ?_) fun hb => ?_
  · refine .optional_bind (Q := fun r c₄ => c₃.Moved R c₄ ∧ Row R c₃.pos c₄.done
      (r.toList.map .expr)) ⟨.refl h₃.ready, .nil⟩ ?_ ?_
    · exact (reads_expressionUnder hbelow c₃ h₃.ready).mono fun e c₄ h => ⟨h.1, h.2.row⟩
    rintro condition c₄ ⟨h₄, hcondition⟩
    refine (reads_symbol h₄.ready _ _).bind ?_
    rintro _ c₅ ⟨-, h₅⟩
    refine .optional_bind (Q := ReadsSimpleIn R c₅) (.none h₅.moved.ready)
      (reads_simpleIn hbelow h₅.moved.ready) fun post c₆ hpost => ?_
    have hinit_cond := hinit.moved.trans h₃
    have hmoved := h₄.trans h₅.moved
    refine hend init condition post c₆ ((hinit_cond.trans hmoved).trans hpost.moved) ?_ hpost.simple
    have htail : Row R c₃.pos c₆.done (condition.toList.map .expr ++ post.toList.map .stmt) :=
      hcondition.append hpost.row (Nat.le_trans h₅.moved.done_le h₅.moved.done_le_pos)
        hmoved.pos_le (Nat.le_trans h₅.moved.done_le hpost.moved.done_le)
    exact hinit.row.append htail (Nat.le_trans h₃.done_le h₃.done_le_pos) hinit_cond.pos_le
      (Nat.le_trans h₃.done_le (hmoved.trans hpost.moved).done_le)
  · split
    · rename_i e
      have hstay := hstay (by simpa using hb)
      subst hstay
      refine hend none (some e) none c₃ hinit.moved ?_ (by simp)
      -- The statement that was read is the condition: the node in it is laid out as it is.
      have hlaid := hinit.row.laid _ (List.mem_singleton_self _)
      exact (Program.Node.Laid.parts hlaid)
    · exact .fail _

theorem reads_returnUnder {k : Keyword} (hc : c.Ready R) (hk : c.isKeyword k = true) :
    Reads (returnUnder below) c fun s c' => c.Moved R c' ∧ s.Laid R c.pos c'.done := by
  refine (reads_next hc (isMark_of_isKeyword hk)).bind ?_
  rintro _ c₁ ⟨rfl, h₁⟩
  refine .peek_bind (.ite (fun _ => .pure ⟨h₁.moved, .token h₁ rfl rfl rfl trivial⟩) fun _ => ?_)
  refine (reads_expressionUnder hbelow c₁ h₁.moved.ready).bind fun e c₂ ⟨h₂, he⟩ => .pure ?_
  exact ⟨h₁.moved.trans h₂,
    .upToLast h₁ rfl rfl .nil he (Nat.le_refl _) (Nat.le_refl _) nofun trivial⟩

theorem reads_statementUnder : ReadsStmt R (statementUnder below) := by
  intro c hc s c' h
  have hkeyword {k : Keyword} (hk : c.kind = .keyword k) : c.isKeyword k = true := by
    simp [isKeyword, hk]
  -- one case for each keyword, and last the statements without one
  unfold statementUnder at h
  split at h
  · rename_i hk
    have hvar : Reads (do
        let d ← variableUnder below
        return .var d.name d.type d.value d.span : Parse Stmt) c fun s c' =>
          c.Moved R c' ∧ s.Laid R c.pos c'.done :=
      (reads_variableUnder hbelow hc (hkeyword hk)).bind fun d c₁ hd => .pure hd
    exact hvar s c' h
  · rename_i hk
    exact reads_returnUnder hbelow hc (hkeyword hk) s c' h
  · rename_i hk
    cases h
    have hp := hc.passed (by rw [hk]; rfl)
    exact ⟨hp.moved, .token hp rfl rfl rfl trivial⟩
  · rename_i hk
    cases h
    have hp := hc.passed (by rw [hk]; rfl)
    exact ⟨hp.moved, .token hp rfl rfl rfl trivial⟩
  · rename_i hk
    have hchoice := reads_choiceUnder hbelow hc (hkeyword hk) s c' h
    exact ⟨hchoice.moved, hchoice.laid⟩
  · rename_i hk
    exact reads_loopUnder hbelow hc (hkeyword hk) s c' h
  · have hblock : Reads (Stmt.block <$> blockUnder below) c fun s c' =>
        c.Moved R c' ∧ s.Laid R c.pos c'.done :=
      .map ((reads_blockUnder hbelow c hc).mono fun b c₁ ⟨h₁, hb⟩ => ⟨h₁, hb.blockStmt⟩)
    exact hblock s c' h
  · obtain ⟨hm, hs, -⟩ := reads_simpleUnder hbelow hc s c' h
    exact ⟨hm, hs⟩

/-- **A level above a sound one is sound.** -/
theorem sound_under : (under below).Sound R where
  expression := reads_expressionUnder hbelow
  unary := reads_unaryUnder hbelow
  calls := reads_callsUnder hbelow
  binary := reads_binaryUnder hbelow
  operators := reads_operatorsUnder hbelow
  block := reads_blockUnder hbelow
  choice _ hc hk := reads_choiceUnder hbelow hc hk
  statement := reads_statementUnder hbelow

end Below

/-- **All levels of the grammar are sound.** -/
theorem sound_withRemaining (n : Nat) : (withRemaining n).Sound R := by
  induction n with
  | zero => exact sound_under nofun
  | succ n ih =>
    refine sound_under ?_
    rintro _ ⟨⟩
    exact ih

end Level

/-! ## Programs -/

/-- The nodes of a declaration that lie in no other node. -/
def Parse.Declaration.nodes : Declaration → List Program.Node
  | .imports _ => []
  | .item i => i.nodes

/-- The spans of a declaration that are those of no node. -/
def Parse.Declaration.spans : Declaration → List Span
  | .imports decls => decls.map ImportDecl.span
  | .item i => i.span :: i.types

section Declarations

variable {c : Cursor}

theorem reads_importPath (hc : c.Ready R) :
    Reads importPath c fun (i : ImportDecl) c' => c.Moved R c' ∧ i.span ∈ R :=
  .here_bind ((reads_text hc _).bind fun _ _ h => .pure ⟨h.moved, h.mem⟩)

theorem reads_importDecl (hc : c.Ready R) :
    Reads importDecl c fun (decls : List ImportDecl) c' =>
      c.Moved R c' ∧ ∀ i ∈ decls, i.span ∈ R := by
  refine (reads_next_moved hc).bind fun _ c₁ h₁ => ?_
  refine (reads_eat h₁.ready _).bind fun b c₂ ⟨h₂, _⟩ => .ite (fun _ => ?_) fun _ => ?_
  · -- a group: paths on lines of their own, up to the closing parenthesis
    refine Reads.mono (P := fun (decls : List ImportDecl) c' =>
      c₂.Moved R c' ∧ ∀ i ∈ decls, i.span ∈ R) ?_
      fun _ c₃ ⟨h₃, hin⟩ => ⟨(h₁.trans h₂).trans h₃, hin⟩
    refine Reads.collect (I := Ready R) (L := fun c (decls : List ImportDecl) c' =>
      c.Moved R c' ∧ ∀ i ∈ decls, i.span ∈ R) (fun c hc => ?_) h₂.ready
    refine (reads_skipSeparators hc).bind fun _ c₁ h₁ => ?_
    refine (reads_eat h₁.ready _).bind fun b c₂ ⟨h₂, _⟩ => .ite (fun _ => ?_) fun _ => ?_
    · exact .pure ⟨h₁.trans h₂, nofun⟩
    · refine (reads_importPath h₂.ready).bind fun i c₃ ⟨h₃, hi⟩ => .pure ?_
      have hmoved := (h₁.trans h₂).trans h₃
      exact ⟨hmoved.ready, ⟨hmoved, List.forall_mem_singleton.mpr hi⟩, fun _ c₄ ⟨h₄, hin⟩ =>
        ⟨hmoved.trans h₄, List.forall_mem_cons.mpr ⟨hi, hin⟩⟩⟩
  · exact (reads_importPath h₂.ready).bind fun i c₃ ⟨h₃, hi⟩ =>
      .pure ⟨(h₁.trans h₂).trans h₃, List.forall_mem_singleton.mpr hi⟩

/-- What is read of a declaration lies where it is read. -/
structure ReadsDeclaration (R : Region) (c : Cursor) (d : Declaration) (c' : Cursor) : Prop where
  moved : c.Moved R c'
  row : Row R c.pos c'.done d.nodes
  spans : ∀ s ∈ d.spans, s ∈ R

theorem reads_functionDecl {k : Keyword} (hc : c.Ready R) (hk : c.isKeyword k = true) :
    Reads functionDecl c fun d c' => ReadsDeclaration R c (.item (.function d)) c' := by
  refine (reads_next hc (isMark_of_isKeyword hk)).bind ?_
  rintro _ c₁ ⟨rfl, h₁⟩
  refine (reads_identifier h₁.moved.ready _).bind fun name c₂ ⟨_, h₂⟩ => ?_
  refine (reads_signature h₂.moved.ready).bind ?_
  rintro ⟨params, result⟩ c₃ ⟨h₃, hparams, hresult⟩
  refine ((Level.sound_withRemaining maxNesting).block c₃ h₃.ready).bind fun b c₄ ⟨h₄, hb⟩ => .pure ?_
  have hmoved := h₁.moved.trans h₂.moved
  refine ⟨(hmoved.trans h₃).trans h₄, ?_, List.forall_mem_cons.mpr ⟨h₁.mem, hresult⟩⟩
  exact (hparams.append hb.row h₃.done_le_pos h₃.pos_le h₄.done_le).weaken hmoved.pos_le
    (Nat.le_refl _)

theorem reads_varDecl {k : Keyword} (hc : c.Ready R) (hk : c.isKeyword k = true) :
    Reads varDecl c fun d c' => ReadsDeclaration R c (.item (.var d)) c' := by
  refine (Level.reads_variableUnder ?_ hc hk).mono fun d c' ⟨hm, hd⟩ => ⟨hm, hd.parts, ?_⟩
  · rintro _ ⟨⟩
    exact Level.sound_withRemaining _
  · exact List.forall_mem_cons.mpr ⟨hd.mem, hd.ordered.self.types⟩

theorem reads_declaration (hc : c.Ready R) : Reads declaration c (ReadsDeclaration R c) := by
  have hkeyword {k : Keyword} (hk : c.kind = .keyword k) : c.isKeyword k = true := by
    simp [isKeyword, hk]
  intro d c' h
  unfold declaration at h
  split at h
  · have himport : Reads (Declaration.imports <$> importDecl) c (ReadsDeclaration R c) := by
      refine .map ((reads_importDecl hc).mono fun decls _ ⟨h, hin⟩ => ⟨h, .nil, fun s hs => ?_⟩)
      obtain ⟨i, hi, rfl⟩ := List.mem_map.mp hs
      exact hin i hi
    exact himport d c' h
  · rename_i hk
    have hvar : Reads ((Declaration.item ∘ Item.var) <$> varDecl) c (ReadsDeclaration R c) :=
      .map (reads_varDecl hc (hkeyword hk))
    exact hvar d c' h
  · rename_i hk
    have hfunction : Reads ((Declaration.item ∘ Item.function) <$> functionDecl) c
        (ReadsDeclaration R c) := .map (reads_functionDecl hc (hkeyword hk))
    exact hfunction d c' h
  · cases h

theorem reads_declarations (hc : c.Ready R) :
    Reads declarations c fun ds c' => c.Moved R c' ∧
      Row R c.pos c'.done (ds.flatMap Declaration.nodes) ∧ ∀ d ∈ ds, ∀ s ∈ d.spans, s ∈ R := by
  refine Reads.collect (I := Ready R) (L := fun c ds c' => c.Moved R c' ∧
    Row R c.pos c'.done (ds.flatMap Declaration.nodes) ∧ ∀ d ∈ ds, ∀ s ∈ d.spans, s ∈ R)
    (fun c hc => ?_) hc
  refine (reads_skipSeparators hc).bind fun _ c₁ h₁ => ?_
  refine .peek_bind (.ite (fun _ => .pure ⟨h₁, .nil, nofun⟩) fun _ => ?_)
  refine (reads_declaration h₁.ready).bind fun d c₂ hd => ?_
  refine (reads_terminator hd.moved.ready _).bind fun _ c₃ h₃ => .pure ?_
  -- blank lines, a declaration and what ends it are one step forward
  have hmoved := (h₁.trans hd.moved).trans h₃
  have hrow := hd.row.weaken h₁.pos_le h₃.done_le
  refine ⟨hmoved.ready, ⟨hmoved, ?_, ?_⟩, fun ds c₄ ⟨h₄, hrows, hspans⟩ =>
    ⟨hmoved.trans h₄, ?_, ?_⟩⟩
  · simpa using hrow
  · simpa using hd.spans
  · exact hrow.append hrows hmoved.done_le_pos hmoved.pos_le h₄.done_le
  · exact List.forall_mem_cons.mpr ⟨hd.spans, hspans⟩

end Declarations

namespace Program

variable {tokens : List Token} {p : Program} {lo hi : Nat}

/-- **A program is laid out** between two offsets, and all its spans lie in a region. -/
structure Laid (R : Region) (lo hi : Nat) (p : Program) : Prop where
  imports : ∀ i ∈ p.imports, i.span ∈ R
  items : ∀ i ∈ p.items, i.span ∈ R ∧ ∀ s ∈ i.types, s ∈ R
  row : Row R lo hi p.nodes

theorem Laid.at? (h : p.Laid R lo hi) {path : List Nat} {n : Node} (hn : p.at? path = some n) :
    n.Ordered R := by
  cases path with
  | nil => cases hn
  | cons i path =>
    obtain ⟨m, hm, hn⟩ := Option.bind_eq_some_iff.mp (at?_cons p i path ▸ hn)
    exact (h.row.laid m (List.mem_of_getElem? hm)).ordered.at? hn

/-- All spans of a program that is laid out in a region lie in it. -/
theorem Laid.mem (h : p.Laid R lo hi) {s : Span} (hs : p.HasSpan s) : s ∈ R := by
  cases hs with
  | ofImport hi => exact h.imports _ hi
  | ofItem hi => exact (h.items _ hi).1
  | ofItemType hi hs => exact (h.items _ hi).2 _ hs
  | ofNode hn => exact (h.at? hn).self.mem
  | ofNodeType hn hs => exact (h.at? hn).self.types _ hs

theorem nodes_programOf (ds : List Declaration) :
    (programOf ds).nodes = ds.flatMap Declaration.nodes := by
  rw [nodes, programOf]
  induction ds with
  | nil => rfl
  | cons d ds ih =>
    cases d with
    | imports decls => exact ih
    | item i => exact congrArg (i.nodes ++ ·) ih

theorem laid_programOf {ds : List Declaration}
    (hrow : Row R lo hi (ds.flatMap Declaration.nodes)) (hspans : ∀ d ∈ ds, ∀ s ∈ d.spans, s ∈ R) :
    (programOf ds).Laid R lo hi where
  imports i hi := by
    obtain ⟨d, hd, hi⟩ := List.mem_flatMap.mp hi
    cases d with
    | imports decls => exact hspans _ hd _ (List.mem_map_of_mem hi)
    | item i => cases hi
  items i hi := by
    obtain ⟨d, hd, hi⟩ := List.mem_filterMap.mp hi
    cases d with
    | imports decls => cases hi
    | item i' =>
      cases hi
      exact List.forall_mem_cons.mp (hspans _ hd)
  row := nodes_programOf ds ▸ hrow

/-- **A program that is read from tokens in a row is laid out.** -/
theorem laid_of_ofTokens (hrow : Token.Row tokens) (hmem : ∀ t ∈ tokens, t.span ∈ R)
    (h : ofTokens tokens = .ok p) : ∃ lo hi, p.Laid R lo hi := by
  obtain ⟨t, ts, ds, c', rfl, hd, rfl⟩ := ofTokens_eq_ok h
  have hc : Cursor.Ready R ⟨.nowhere, t, ts⟩ := ⟨hrow, hmem, Nat.zero_le _⟩
  obtain ⟨-, hnodes, hspans⟩ := reads_declarations hc ds c' hd
  exact ⟨_, _, laid_programOf hnodes hspans⟩

/-- The spans of the nodes of a program that is laid out. -/
theorem Laid.tiles (h : p.Laid R lo hi) : Tiles lo hi p.spans := by
  have hspans : p.spans = p.nodes.flatMap Node.spans := by
    rw [Program.spans, nodes, List.flatMap_assoc]
    congr 1
    funext i
    cases i with
    | var d => cases hd : d.value <;> simp [Item.spans, Item.nodes, Node.spans, hd]
    | function d =>
      simp [Item.spans, Item.nodes, Node.spans, List.flatMap_map, ← List.map_eq_flatMap]
  rw [hspans]
  exact h.row.tiles fun n hn => (h.row.laid n hn).ordered.tiles

theorem Laid.simplePosts (h : p.Laid R lo hi) : ∀ i ∈ p.items, i.SimplePosts := by
  intro i hi
  have hnodes : ∀ n ∈ i.nodes, n.SimplePosts := fun n hn =>
    (h.row.laid n (List.mem_flatMap.mpr ⟨i, hi, hn⟩)).ordered.simplePosts
  cases i with
  | var d => exact fun e he => hnodes (.expr e) (by simpa [Item.nodes] using he)
  | function d => exact hnodes (.block d.body) (by simp [Item.nodes])

end Program

/-- A program that is read from a text is read from its tokens. -/
theorem SourceFile.program_eq_ok {f : SourceFile} {p : Program} (h : f.program = .ok p) :
    ∃ tokens, Token.scan f = .ok tokens ∧ Program.ofTokens tokens = .ok p := by
  unfold SourceFile.program at h
  cases hscan : Token.scan f with
  | error e =>
    rw [hscan] at h
    cases h
  | ok tokens =>
    rw [hscan] at h
    cases hp : Program.ofTokens tokens with
    | error e =>
      simp only [hp] at h
      cases h
    | ok q =>
      simp only [hp] at h
      cases h
      exact ⟨tokens, rfl, hp⟩

/-- **The nodes of a program that is read from a text have different spans.** -/
theorem SourceFile.nodup_spans {f : SourceFile} {p : Program} (h : f.program = .ok p) :
    p.spans.Nodup ∧ ∀ i ∈ p.items, i.SimplePosts := by
  obtain ⟨tokens, hscan, hp⟩ := SourceFile.program_eq_ok h
  obtain ⟨lo, hi, hlaid⟩ := Program.laid_of_ofTokens (R := .all) (Token.row_of_scan hscan)
    (fun _ _ => trivial) hp
  exact ⟨hlaid.tiles.nodup, hlaid.simplePosts⟩

/-- What is compiled is a program that is read and accepted. -/
theorem SourceFile.compile_eq_ok {f : SourceFile} {entryPoint : String} {c : Compilation}
    (h : f.compile entryPoint = .ok c) :
    f.program = .ok c.program ∧ c.program.check entryPoint = .ok c.types := by
  unfold SourceFile.compile at h
  split at h
  · cases h
  split at h
  · cases h
  · cases h
    exact ⟨‹_›, ‹_›⟩

end Formula
