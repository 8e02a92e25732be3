import Formula.Program

/-!
# The spans of a program

Every node of a program knows its span. The nodes of a program that was read from a text have
different spans: those of two nodes side by side do not overlap, and the span of a node covers those
of its parts and more.

## Main definitions

* `Expr.spans`, `Stmt.spans`, `Program.spans`: the spans of the nodes
* `Tiles lo hi spans`: different spans that are not empty and lie between two offsets
* `Stmt.SimplePosts`: what is done after the rounds of loops declares nothing

## Main results

* `Tiles.append`, `Tiles.cons`: spans side by side, and a span around others
-/

namespace Formula

/-! ## Spans of nodes -/

mutual

/-- The spans of the nodes of an expression, its own one first. -/
def Expr.spans : Expr → List Span
  | .literal _ span => [span]
  | .identifier _ span => [span]
  | .binary _ left right span => span :: (left.spans ++ right.spans)
  | .unary _ operand span => span :: operand.spans
  | .call function arguments span => span :: (function.spans ++ Expr.spansOfAll arguments)
  | .selector _ _ span => [span]
  | .function params _ (.mk statements _) span =>
    span :: (params.map (·.span) ++ Stmt.spansOfAll statements)

/-- The spans of the nodes of several expressions. -/
def Expr.spansOfAll : List Expr → List Span
  | [] => []
  | e :: es => e.spans ++ Expr.spansOfAll es

/-- The spans of the nodes of a statement. Blocks and expressions that are used as statements are
not counted apart from what is in them. -/
def Stmt.spans : Stmt → List Span
  | .define _ value span => span :: value.spans
  | .var _ _ value span =>
    span :: match value with
      | some e => e.spans
      | none => []
  | .assign _ _ value span => span :: value.spans
  | .increment _ _ span => [span]
  | .expr value => value.spans
  | .ret value span =>
    span :: match value with
      | some e => e.spans
      | none => []
  | .breakLoop span => [span]
  | .continueLoop span => [span]
  | .cond condition (.mk thenStatements _) elseBlock span =>
    span :: (condition.spans ++ (Stmt.spansOfAll thenStatements ++ match elseBlock with
      | some (.mk elseStatements _) => Stmt.spansOfAll elseStatements
      | none => []))
  | .loop init condition post (.mk statements _) span =>
    span :: ((match init with
      | some i => i.spans
      | none => []) ++ ((match condition with
      | some c => c.spans
      | none => []) ++ ((match post with
      | some p => p.spans
      | none => []) ++ Stmt.spansOfAll statements)))
  | .block (.mk statements _) => Stmt.spansOfAll statements

/-- The spans of the nodes of several statements. -/
def Stmt.spansOfAll : List Stmt → List Span
  | [] => []
  | s :: ss => s.spans ++ Stmt.spansOfAll ss

end

theorem Expr.spansOfAll_eq (es : List Expr) : Expr.spansOfAll es = es.flatMap Expr.spans := by
  induction es with
  | nil => rfl
  | cons e es ih => rw [Expr.spansOfAll, ih, List.flatMap_cons]

/-- The spans of the nodes of a block that may be missing. -/
def Block.spansIn : Option Block → List Span
  | some b => Stmt.spansOfAll b.statements
  | none => []

/-- The spans of the nodes of a statement that may be missing. -/
def Stmt.spansIn : Option Stmt → List Span
  | some s => s.spans
  | none => []

/-- The spans of the nodes of an expression that may be missing. -/
def Expr.spansIn : Option Expr → List Span
  | some e => e.spans
  | none => []

theorem Stmt.spans_cond (condition : Expr) (thenStatements : List Stmt) (thenSpan : Span)
    (elseBlock : Option Block) (span : Span) :
    (Stmt.cond condition (.mk thenStatements thenSpan) elseBlock span).spans =
      span :: (condition.spans ++ (Stmt.spansOfAll thenStatements ++ Block.spansIn elseBlock)) := by
  rcases elseBlock with _ | ⟨statements, blockSpan⟩ <;> rfl

theorem Stmt.spans_loop (init : Option Stmt) (condition : Option Expr) (post : Option Stmt)
    (statements : List Stmt) (bodySpan span : Span) :
    (Stmt.loop init condition post (.mk statements bodySpan) span).spans =
      span :: (Stmt.spansIn init ++ (Expr.spansIn condition ++
        (Stmt.spansIn post ++ Stmt.spansOfAll statements))) := by
  cases init <;> cases condition <;> cases post <;> rfl

/-- The spans of the nodes of a package-level declaration. -/
def Item.spans : Item → List Span
  | .var d => (d.value.map Expr.spans).getD []
  | .function d => d.params.map (·.span) ++ Stmt.spansOfAll d.body.statements

/-- The spans of the nodes of a program. -/
def Program.spans (p : Program) : List Span :=
  p.items.flatMap Item.spans

/-! ## What is done after the rounds of a loop -/

/-- Whether a statement is one that can stand in the head of a loop and declares nothing. -/
def Stmt.isSimple : Stmt → Bool
  | .define .. | .assign .. | .increment .. | .expr _ => true
  | _ => false

mutual

/-- What is done after the rounds of the loops in an expression is simple. -/
def Expr.SimplePosts : Expr → Prop
  | .literal _ _ | .identifier _ _ | .selector _ _ _ => True
  | .binary _ left right _ => left.SimplePosts ∧ right.SimplePosts
  | .unary _ operand _ => operand.SimplePosts
  | .call function arguments _ => function.SimplePosts ∧ Expr.AllSimplePosts arguments
  | .function _ _ (.mk statements _) _ => Stmt.AllSimplePosts statements

@[inherit_doc Expr.SimplePosts]
def Expr.AllSimplePosts : List Expr → Prop
  | [] => True
  | e :: es => e.SimplePosts ∧ Expr.AllSimplePosts es

/-- What is done after the rounds of the loops in a statement is simple. -/
def Stmt.SimplePosts : Stmt → Prop
  | .define _ value _ | .assign _ _ value _ | .expr value => value.SimplePosts
  | .var _ _ value _ | .ret value _ =>
    match value with
    | some e => e.SimplePosts
    | none => True
  | .increment _ _ _ | .breakLoop _ | .continueLoop _ => True
  | .cond condition (.mk thenStatements _) elseBlock _ =>
    condition.SimplePosts ∧ Stmt.AllSimplePosts thenStatements ∧ match elseBlock with
      | some (.mk elseStatements _) => Stmt.AllSimplePosts elseStatements
      | none => True
  | .loop init condition post (.mk statements _) _ =>
    (match init with
      | some i => i.SimplePosts
      | none => True) ∧ (match condition with
      | some c => c.SimplePosts
      | none => True) ∧ (match post with
      | some p => p.isSimple = true ∧ p.SimplePosts
      | none => True) ∧ Stmt.AllSimplePosts statements
  | .block (.mk statements _) => Stmt.AllSimplePosts statements

@[inherit_doc Stmt.SimplePosts]
def Stmt.AllSimplePosts : List Stmt → Prop
  | [] => True
  | s :: ss => s.SimplePosts ∧ Stmt.AllSimplePosts ss

end

theorem Expr.allSimplePosts_iff {es : List Expr} :
    Expr.AllSimplePosts es ↔ ∀ e ∈ es, e.SimplePosts := by
  induction es with
  | nil => exact ⟨fun _ => nofun, fun _ => trivial⟩
  | cons e es ih => rw [Expr.AllSimplePosts, ih, List.forall_mem_cons]

theorem Stmt.simplePosts_cond {condition : Expr} {thenStatements : List Stmt} {thenSpan : Span}
    {elseBlock : Option Block} {span : Span} :
    (Stmt.cond condition (.mk thenStatements thenSpan) elseBlock span).SimplePosts ↔
      condition.SimplePosts ∧ Stmt.AllSimplePosts thenStatements ∧
        ∀ b ∈ elseBlock, Stmt.AllSimplePosts b.statements := by
  rcases elseBlock with _ | ⟨statements, blockSpan⟩ <;> simp [Stmt.SimplePosts]

theorem Stmt.simplePosts_loop {init : Option Stmt} {condition : Option Expr} {post : Option Stmt}
    {statements : List Stmt} {bodySpan span : Span} :
    (Stmt.loop init condition post (.mk statements bodySpan) span).SimplePosts ↔
      (∀ i ∈ init, i.SimplePosts) ∧ (∀ c ∈ condition, c.SimplePosts) ∧
        (∀ p ∈ post, p.isSimple = true ∧ p.SimplePosts) ∧ Stmt.AllSimplePosts statements := by
  cases init <;> cases condition <;> cases post <;> simp [Stmt.SimplePosts]

/-- What is done after the rounds of the loops in a package-level declaration is simple. -/
def Item.SimplePosts : Item → Prop
  | .var d => ∀ e ∈ d.value, e.SimplePosts
  | .function d => Stmt.AllSimplePosts d.body.statements

/-! ## Declarations -/

theorem Program.mem_vars {p : Program} {d : VarDecl} : d ∈ p.vars ↔ .var d ∈ p.items := by
  refine List.mem_filterMap.trans ⟨?_, fun h => ⟨_, h, rfl⟩⟩
  rintro ⟨_ | _, hi, hd⟩ <;> cases hd
  exact hi

theorem Program.mem_functions {p : Program} {d : FunctionDecl} :
    d ∈ p.functions ↔ .function d ∈ p.items := by
  refine List.mem_filterMap.trans ⟨?_, fun h => ⟨_, h, rfl⟩⟩
  rintro ⟨_ | _, hi, hd⟩ <;> cases hd
  exact hi

/-! ## Spans between two offsets -/

/-- **Different spans that are not empty and lie between two offsets.** -/
structure Tiles (lo hi : Nat) (spans : List Span) : Prop where
  nodup : spans.Nodup
  within : ∀ s ∈ spans, lo ≤ s.start.offset ∧ s.start.offset < s.stop.offset ∧ s.stop.offset ≤ hi

namespace Tiles

variable {lo lo' mid mid' hi hi' : Nat} {spans others : List Span} {s : Span}

theorem nil : Tiles lo hi [] :=
  ⟨.nil, nofun⟩

theorem weaken (h : Tiles lo hi spans) (hlo : lo' ≤ lo) (hhi : hi ≤ hi') : Tiles lo' hi' spans where
  nodup := h.nodup
  within t ht := by
    have := h.within t ht
    omega

/-- Spans side by side. -/
theorem append (h : Tiles lo mid spans) (h' : Tiles mid' hi others) (hmid : mid ≤ mid')
    (hlo : lo ≤ mid') (hhi : mid ≤ hi) : Tiles lo hi (spans ++ others) where
  nodup := by
    refine List.nodup_append.mpr ⟨h.nodup, h'.nodup, fun t ht u hu => ?_⟩
    rintro rfl
    have := h.within t ht
    have := h'.within t hu
    omega
  within t ht := by
    rcases List.mem_append.mp ht with ht | ht
    · have := h.within t ht
      omega
    · have := h'.within t ht
      omega

/-- A span around others that have other spans. -/
theorem cons (h : Tiles s.start.offset s.stop.offset spans)
    (hlt : s.start.offset < s.stop.offset) (hs : s ∉ spans) :
    Tiles s.start.offset s.stop.offset (s :: spans) where
  nodup := List.nodup_cons.mpr ⟨hs, h.nodup⟩
  within := List.forall_mem_cons.mpr ⟨⟨Nat.le_refl _, hlt, Nat.le_refl _⟩, h.within⟩

end Tiles

end Formula
