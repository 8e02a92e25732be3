import Formula.Proofs.Program.Node
import Formula.Typing.Constant
import Formula.Typing.Flow
import Formula.Typing.Program

/-!
# Programs elsewhere

The spans of a tree may be changed. The tree keeps its form, and what is said of it without looking at
its spans stays true. One such change puts a piece of a text that starts at the beginning of a line
behind other lines: every place in it then has a greater line and a greater offset, and its column is
what it was.

## Main definitions

* `Shift`: a change of spans
* `Descent`: how far down a piece of a text is put
* `Span.shift`, `Expr.shift`, `Stmt.shift`, `Program.shift`: a tree elsewhere

## Main results

* `Span.shift_injective`, `Span.shift_join`: spans stay different further down, and cover what they
  covered
* `TypeExpr.resolve_shift`: a written type stands for what it stood for
* `Expr.constants?_shift`: what becomes a floating-point number moves along
* `Block.terminates_shift`: control comes to the end of a block where it did
* `Program.at?_shift`: paths lead to the nodes to which they led
* `Program.shift_eq_self`: a program stays where its spans do
-/

namespace Formula

/-! ## Places -/

/-- A change of spans. -/
structure Shift where
  span : Span → Span

/-- What a span is changed to. -/
def Span.shift (k : Shift) (s : Span) : Span :=
  k.span s

/-- How far down a piece of a text is put: by so many lines, which hold so many bytes. -/
structure Descent where
  lines : Nat
  bytes : Nat
deriving Repr, DecidableEq

/-- A position further down. The piece starts at the beginning of a line, so columns stay. -/
def Position.shift (k : Descent) (p : Position) : Position :=
  ⟨p.line + k.lines, p.column, p.offset + k.bytes⟩

/-- Spans are changed to those further down. -/
def Descent.toShift (k : Descent) : Shift :=
  ⟨fun s => ⟨s.file, s.start.shift k, s.stop.shift k⟩⟩

instance : Coe Descent Shift := ⟨Descent.toShift⟩

theorem Position.shift_injective (k : Descent) : ∀ p q : Position, p.shift k = q.shift k → p = q := by
  rintro ⟨line, column, offset⟩ ⟨line', column', offset'⟩ h
  simp only [shift, mk.injEq] at h ⊢
  omega

/-- Different spans stay different further down. -/
theorem Span.shift_injective (k : Descent) : ∀ s t : Span, s.shift k = t.shift k → s = t := by
  rintro ⟨file, start, stop⟩ ⟨file', start', stop'⟩ h
  simp only [shift, Descent.toShift, mk.injEq] at h ⊢
  exact ⟨h.1, Position.shift_injective k _ _ h.2.1, Position.shift_injective k _ _ h.2.2⟩

/-- Spans cover further down what they covered. -/
@[simp]
theorem Span.shift_join (k : Descent) (s t : Span) :
    (s.join t).shift k = (s.shift k).join (t.shift k) := by
  simp only [join, shift, Descent.toShift, Position.earlier, Position.later, Position.shift,
    Nat.add_le_add_iff_right, mk.injEq, true_and]
  constructor <;> split <;> rfl

variable (k : Shift)

/-! ## Written types -/

mutual

/-- A written type elsewhere. -/
def TypeExpr.shift : TypeExpr → TypeExpr
  | .named name span => .named name (span.shift k)
  | .function params result span =>
    .function (TypeExpr.shiftAll params)
      (match result with
        | none => none
        | some r => some r.shift) (span.shift k)

/-- Several written types elsewhere. -/
def TypeExpr.shiftAll : List TypeExpr → List TypeExpr
  | [] => []
  | e :: es => e.shift :: TypeExpr.shiftAll es

end

/-- A parameter elsewhere. -/
def Parameter.shift (p : Parameter) : Parameter :=
  ⟨p.name, p.type.shift k, p.span.shift k⟩

/-- A name that stands for no type, elsewhere. -/
def UnknownType.shift (u : UnknownType) : UnknownType :=
  ⟨u.name, u.span.shift k⟩

theorem TypeExpr.shiftAll_eq (es : List TypeExpr) : shiftAll k es = es.map (TypeExpr.shift k) := by
  induction es with
  | nil => rfl
  | cons e es ih => rw [shiftAll, ih, List.map_cons]

@[simp]
theorem TypeExpr.shift_named (name : String) (span : Span) :
    (named name span).shift k = .named name (span.shift k) := rfl

@[simp]
theorem TypeExpr.shift_function (params : List TypeExpr) (result : Option TypeExpr) (span : Span) :
    (function params result span).shift k =
      .function (params.map (TypeExpr.shift k)) (result.map (TypeExpr.shift k)) (span.shift k) := by
  rw [← shiftAll_eq]
  cases result <;> rfl

@[simp]
theorem TypeExpr.span_shift (e : TypeExpr) : (e.shift k).span = e.span.shift k := by
  cases e with
  | named name span => rfl
  | function params result span =>
    rw [shift_function]
    rfl

mutual

/-- A written type stands for what it stood for. -/
theorem TypeExpr.resolve_shift :
    (e : TypeExpr) → (e.shift k).resolve = e.resolve.mapError (UnknownType.shift k)
  | .named name span => by
    simp only [shift_named, resolve]
    cases Ty.named? name <;> rfl
  | .function params result span => by
    rw [shift_function, resolve, resolve, resolveAll_shift params]
    cases resolveAll params with
    | error u => rfl
    | ok ts =>
      rcases result with _ | r
      · rfl
      · simp only [Option.map_some, resolve_shift r]
        cases r.resolve <;> rfl

@[inherit_doc TypeExpr.resolve_shift]
theorem TypeExpr.resolveAll_shift : (es : List TypeExpr) →
    resolveAll (es.map (TypeExpr.shift k)) = (resolveAll es).mapError (UnknownType.shift k)
  | [] => rfl
  | e :: es => by
    rw [List.map_cons, resolveAll, resolveAll, resolve_shift e, resolveAll_shift es]
    cases e.resolve with
    | error u => rfl
    | ok t => cases resolveAll es <;> rfl

end

theorem resultType_shift (result : Option TypeExpr) :
    resultType (result.map (TypeExpr.shift k)) =
      (resultType result).mapError (UnknownType.shift k) := by
  cases result with
  | none => rfl
  | some e => exact e.resolve_shift k

theorem functionType_shift (params : List Parameter) (result : Option TypeExpr) :
    functionType (params.map (Parameter.shift k)) (result.map (TypeExpr.shift k)) =
      (functionType params result).mapError (UnknownType.shift k) := by
  have hparams : (params.map (Parameter.shift k)).map Parameter.type =
      (params.map Parameter.type).map (TypeExpr.shift k) := by
    simp [Parameter.shift, Function.comp_def]
  rw [functionType, functionType, hparams, TypeExpr.resolveAll_shift, resultType_shift]
  cases TypeExpr.resolveAll (params.map Parameter.type) with
  | error u => rfl
  | ok ts => cases resultType result <;> rfl

/-! ## Expressions and statements -/

mutual

/-- An expression elsewhere. -/
def Expr.shift : Expr → Expr
  | .literal value span => .literal value (span.shift k)
  | .identifier name span => .identifier name (span.shift k)
  | .binary op left right span => .binary op left.shift right.shift (span.shift k)
  | .unary op operand span => .unary op operand.shift (span.shift k)
  | .call function arguments span =>
    .call function.shift (Expr.shiftAll arguments) (span.shift k)
  | .selector target member span => .selector target member (span.shift k)
  | .function params result body span =>
    .function (params.map (Parameter.shift k)) (result.map (TypeExpr.shift k)) body.shift
      (span.shift k)

/-- Several expressions elsewhere. -/
def Expr.shiftAll : List Expr → List Expr
  | [] => []
  | e :: es => e.shift :: Expr.shiftAll es

/-- A statement elsewhere. -/
def Stmt.shift : Stmt → Stmt
  | .define name value span => .define name value.shift (span.shift k)
  | .var name type value span =>
    .var name (type.map (TypeExpr.shift k))
      (match value with
        | none => none
        | some e => some e.shift) (span.shift k)
  | .assign target op value span => .assign target op value.shift (span.shift k)
  | .increment target up span => .increment target up (span.shift k)
  | .expr value => .expr value.shift
  | .ret value span =>
    .ret
      (match value with
        | none => none
        | some e => some e.shift) (span.shift k)
  | .breakLoop span => .breakLoop (span.shift k)
  | .continueLoop span => .continueLoop (span.shift k)
  | .cond condition thenBlock elseBlock span =>
    .cond condition.shift thenBlock.shift
      (match elseBlock with
        | none => none
        | some b => some b.shift) (span.shift k)
  | .loop init condition post body span =>
    .loop
      (match init with
        | none => none
        | some i => some i.shift)
      (match condition with
        | none => none
        | some c => some c.shift)
      (match post with
        | none => none
        | some p => some p.shift) body.shift (span.shift k)
  | .block body => .block body.shift

/-- Several statements elsewhere. -/
def Stmt.shiftAll : List Stmt → List Stmt
  | [] => []
  | s :: ss => s.shift :: Stmt.shiftAll ss

/-- A block elsewhere. -/
def Block.shift : Block → Block
  | .mk statements span => .mk (Stmt.shiftAll statements) (span.shift k)

end

theorem Expr.shiftAll_eq (es : List Expr) : shiftAll k es = es.map (Expr.shift k) := by
  induction es with
  | nil => rfl
  | cons e es ih => rw [shiftAll, ih, List.map_cons]

theorem Stmt.shiftAll_eq (ss : List Stmt) : shiftAll k ss = ss.map (Stmt.shift k) := by
  induction ss with
  | nil => rfl
  | cons s ss ih => rw [shiftAll, ih, List.map_cons]

@[simp]
theorem Block.shift_mk (statements : List Stmt) (span : Span) :
    (mk statements span).shift k = .mk (statements.map (Stmt.shift k)) (span.shift k) := by
  rw [shift, Stmt.shiftAll_eq]

@[simp]
theorem Block.statements_shift (b : Block) :
    (b.shift k).statements = b.statements.map (Stmt.shift k) := by
  cases b
  rw [shift_mk, statements_mk, statements_mk]

@[simp]
theorem Block.span_shift (b : Block) : (b.shift k).span = b.span.shift k := by
  cases b
  rfl

namespace Expr

@[simp]
theorem shift_literal (value : Scalar) (span : Span) :
    (literal value span).shift k = .literal value (span.shift k) := rfl

@[simp]
theorem shift_identifier (name : String) (span : Span) :
    (identifier name span).shift k = .identifier name (span.shift k) := rfl

@[simp]
theorem shift_binary (op : BinaryOp) (left right : Expr) (span : Span) :
    (binary op left right span).shift k =
      .binary op (left.shift k) (right.shift k) (span.shift k) := rfl

@[simp]
theorem shift_unary (op : UnaryOp) (operand : Expr) (span : Span) :
    (unary op operand span).shift k = .unary op (operand.shift k) (span.shift k) := rfl

@[simp]
theorem shift_call (function : Expr) (arguments : List Expr) (span : Span) :
    (call function arguments span).shift k =
      .call (function.shift k) (arguments.map (Expr.shift k)) (span.shift k) := by
  rw [shift, shiftAll_eq]

@[simp]
theorem shift_selector (target member : String) (span : Span) :
    (selector target member span).shift k = .selector target member (span.shift k) := rfl

@[simp]
theorem shift_function (params : List Parameter) (result : Option TypeExpr) (body : Block)
    (span : Span) :
    (function params result body span).shift k =
      .function (params.map (Parameter.shift k)) (result.map (TypeExpr.shift k)) (body.shift k)
        (span.shift k) := rfl

end Expr

namespace Stmt

@[simp]
theorem shift_var (name : String) (type : Option TypeExpr) (value : Option Expr) (span : Span) :
    (var name type value span).shift k =
      .var name (type.map (TypeExpr.shift k)) (value.map (Expr.shift k)) (span.shift k) := by
  cases value <;> rfl

@[simp]
theorem shift_ret (value : Option Expr) (span : Span) :
    (ret value span).shift k = .ret (value.map (Expr.shift k)) (span.shift k) := by
  cases value <;> rfl

@[simp]
theorem shift_cond (condition : Expr) (thenBlock : Block) (elseBlock : Option Block)
    (span : Span) :
    (cond condition thenBlock elseBlock span).shift k =
      .cond (condition.shift k) (thenBlock.shift k) (elseBlock.map (Block.shift k))
        (span.shift k) := by
  cases elseBlock <;> rfl

@[simp]
theorem shift_loop (init : Option Stmt) (condition : Option Expr) (post : Option Stmt)
    (body : Block) (span : Span) :
    (loop init condition post body span).shift k =
      .loop (init.map (Stmt.shift k)) (condition.map (Expr.shift k)) (post.map (Stmt.shift k))
        (body.shift k) (span.shift k) := by
  cases init <;> cases condition <;> cases post <;> rfl

end Stmt

/-! ## What is said of trees -/

namespace Expr

@[simp]
theorem span_shift (e : Expr) : (e.shift k).span = e.span.shift k := by
  cases e <;> rfl

@[simp]
theorem isCall_shift (e : Expr) : (e.shift k).isCall = e.isCall := by
  cases e <;> rfl

@[simp]
theorem calleeName_shift (e : Expr) : (e.shift k).calleeName = e.calleeName := by
  cases e <;> rfl

/-- What becomes a floating-point number moves along. -/
theorem constants?_shift :
    (e : Expr) → (e.shift k).constants? = e.constants?.map (List.map (Span.shift k))
  | .literal value span => by cases value <;> rfl
  | .identifier _ _ | .call _ _ _ | .selector _ _ _ | .function _ _ _ _ => rfl
  | .unary op operand span => by
    cases op with
    | neg => exact constants?_shift operand
    | not => rfl
  | .binary op left right span => by
    have hl := constants?_shift left
    have hr := constants?_shift right
    rw [shift_binary]
    cases op <;> simp only [constants?, hl, hr, Option.map_none] <;>
      cases left.constants? <;> cases right.constants? <;> simp

@[simp]
theorem isConstant_shift (e : Expr) : (e.shift k).isConstant = e.isConstant := by
  rw [isConstant, isConstant, constants?_shift, Option.isSome_map]

end Expr

/-! ## Where control can go -/

mutual

/-- A `break` leaves the loop around a statement where it did. -/
theorem Stmt.breaksOut_shift : (s : Stmt) → (s.shift k).breaksOut = s.breaksOut
  | .block b => b.breaksOut_shift
  | .cond _ thenBlock none _ => thenBlock.breaksOut_shift
  | .cond _ thenBlock (some elseBlock) _ => by
    have ht := thenBlock.breaksOut_shift
    have he := elseBlock.breaksOut_shift
    rw [Stmt.shift_cond, Option.map_some, Stmt.breaksOut, Stmt.breaksOut, ht, he]
  | .var _ _ _ _ | .ret _ _ => by simp [Stmt.breaksOut]
  | .loop _ _ _ _ _ => by simp [Stmt.breaksOut]
  | .define _ _ _ | .assign _ _ _ _ | .increment _ _ _ | .expr _ | .breakLoop _
  | .continueLoop _ => rfl

/-- A `break` leaves the loop around a block where it did. -/
theorem Block.breaksOut_shift : (b : Block) → (b.shift k).breaksOut = b.breaksOut
  | .mk statements _ => by
    rw [Block.shift_mk, Block.breaksOut, Block.breaksOut]
    exact anyBreaksOut_shift statements

/-- A `break` leaves the loop around a block where it did. -/
theorem anyBreaksOut_shift :
    (ss : List Stmt) → anyBreaksOut (ss.map (Stmt.shift k)) = anyBreaksOut ss
  | [] => rfl
  | s :: ss => by
    rw [List.map_cons, anyBreaksOut, anyBreaksOut, s.breaksOut_shift, anyBreaksOut_shift ss]

end

mutual

/-- Control goes on behind a statement where it did. -/
theorem Stmt.terminates_shift : (s : Stmt) → (s.shift k).terminates = s.terminates
  | .ret _ _ | .var _ _ _ _ => by simp [Stmt.terminates]
  | .block b => b.terminates_shift
  | .cond _ _ none _ => rfl
  | .cond _ thenBlock (some elseBlock) _ => by
    have ht := thenBlock.terminates_shift
    have he := elseBlock.terminates_shift
    rw [Stmt.shift_cond, Option.map_some, Stmt.terminates, Stmt.terminates, ht, he]
  | .loop _ none _ body _ => by
    rw [Stmt.shift_loop, Option.map_none, Stmt.terminates, Stmt.terminates, Block.breaksOut_shift]
  | .loop _ (some _) _ _ _ => by simp [Stmt.terminates]
  | .define _ _ _ | .assign _ _ _ _ | .increment _ _ _ | .expr _ | .breakLoop _
  | .continueLoop _ => rfl

/-- Control comes to the end of a block where it did. -/
theorem Block.terminates_shift : (b : Block) → (b.shift k).terminates = b.terminates
  | .mk statements _ => by
    rw [Block.shift_mk, Block.terminates, Block.terminates]
    exact lastTerminates_shift statements

/-- Control goes on behind the last of some statements where it did. -/
theorem lastTerminates_shift :
    (ss : List Stmt) → lastTerminates (ss.map (Stmt.shift k)) = lastTerminates ss
  | [] => rfl
  | [s] => s.terminates_shift
  | _ :: s :: ss => lastTerminates_shift (s :: ss)

end

/-! ## Declarations -/

/-- An import elsewhere. -/
def ImportDecl.shift (i : ImportDecl) : ImportDecl :=
  ⟨i.path, i.span.shift k⟩

/-- A package-level variable elsewhere. -/
def VarDecl.shift (d : VarDecl) : VarDecl :=
  ⟨d.name, d.type.map (TypeExpr.shift k), d.value.map (Expr.shift k), d.span.shift k⟩

/-- A package-level function elsewhere. -/
def FunctionDecl.shift (d : FunctionDecl) : FunctionDecl :=
  ⟨d.name, d.params.map (Parameter.shift k), d.result.map (TypeExpr.shift k), d.body.shift k,
    d.span.shift k⟩

/-- A package-level declaration elsewhere. -/
def Item.shift : Item → Item
  | .var d => .var (d.shift k)
  | .function d => .function (d.shift k)

@[simp]
theorem Item.name_shift (i : Item) : (i.shift k).name = i.name := by
  cases i <;> rfl

@[simp]
theorem Item.span_shift (i : Item) : (i.shift k).span = i.span.shift k := by
  cases i <;> rfl

theorem Item.filterMap_var?_shift (items : List Item) :
    (items.map (Item.shift k)).filterMap Item.var? =
      (items.filterMap Item.var?).map (VarDecl.shift k) := by
  rw [List.filterMap_map, List.map_filterMap]
  congr 1
  funext i
  cases i <;> rfl

theorem Item.filterMap_function?_shift (items : List Item) :
    (items.map (Item.shift k)).filterMap Item.function? =
      (items.filterMap Item.function?).map (FunctionDecl.shift k) := by
  rw [List.filterMap_map, List.map_filterMap]
  congr 1
  funext i
  cases i <;> rfl

/-- A program elsewhere. -/
def Program.shift (p : Program) : Program :=
  ⟨p.imports.map (ImportDecl.shift k), p.items.map (Item.shift k)⟩

/-! ## Nodes -/

@[simp]
theorem Stmt.span_shift (s : Stmt) : (s.shift k).span = s.span.shift k := by
  cases s with
  | var | ret | cond | loop => simp [span]
  | expr e => exact e.span_shift k
  | block b => exact b.span_shift k
  | _ => rfl

namespace Program

/-- A node elsewhere. -/
def Node.shift : Node → Node
  | .expr e => .expr (e.shift k)
  | .stmt s => .stmt (s.shift k)
  | .block b => .block (b.shift k)
  | .param p => .param (p.shift k)

@[simp]
theorem Node.span_shift (n : Node) : (n.shift k).span = n.span.shift k := by
  cases n with
  | expr e => exact e.span_shift k
  | stmt s => exact s.span_shift k
  | block b => exact b.span_shift k
  | param p => rfl

/-- The parts of a node elsewhere are its parts elsewhere. -/
theorem Node.parts_shift (n : Node) : (n.shift k).parts = n.parts.map (shift k) := by
  have hexpr (e : Option Expr) : (e.map (Expr.shift k)).toList.map expr =
      (e.toList.map expr).map (shift k) := by
    cases e <;> rfl
  have hstmt (s : Option Stmt) : (s.map (Stmt.shift k)).toList.map stmt =
      (s.toList.map stmt).map (shift k) := by
    cases s <;> rfl
  have hblock (b : Option Block) : (b.map (Block.shift k)).toList.map block =
      (b.toList.map block).map (shift k) := by
    cases b <;> rfl
  cases n with
  | expr e =>
    cases e with
    | call | function => simp [shift, parts, ofExpr, Function.comp_def]
    | _ => rfl
  | stmt s =>
    cases s with
    | var | ret | cond | loop => simp [shift, parts, ofStmt, hexpr, hstmt, hblock]
    | _ => rfl
  | block b => simp [shift, parts, Function.comp_def]
  | param p => rfl

theorem Node.at?_shift (n : Node) (path : List Nat) :
    (n.shift k).at? path = (n.at? path).map (shift k) := by
  induction path generalizing n with
  | nil => rfl
  | cons i path ih =>
    rw [at?_cons, at?_cons, parts_shift, List.getElem?_map]
    cases n.parts[i]? with
    | none => rfl
    | some m => exact ih m

theorem nodes_shift (p : Program) : (p.shift k).nodes = p.nodes.map (Node.shift k) := by
  have hitem (i : Item) : (i.shift k).nodes = i.nodes.map (Node.shift k) := by
    cases i with
    | var d => cases hd : d.value <;> simp [Item.shift, Item.nodes, VarDecl.shift, Node.shift, hd]
    | function d => simp [Item.shift, Item.nodes, FunctionDecl.shift, Node.shift]
  simp [nodes, shift, List.flatMap_map, List.map_flatMap, hitem]

/-- **A path leads elsewhere to the node to which it leads.** -/
theorem at?_shift (p : Program) (path : List Nat) :
    (p.shift k).at? path = (p.at? path).map (Node.shift k) := by
  cases path with
  | nil => rfl
  | cons i path =>
    rw [at?_cons, at?_cons, nodes_shift, List.getElem?_map]
    cases p.nodes[i]? with
    | none => rfl
    | some n => exact n.at?_shift k path

end Program

section Fixed

variable {k}

/-! ## Trees that stay where they are -/

theorem List.map_eq_self {α : Type} {f : α → α} {l : List α} (h : ∀ a ∈ l, f a = a) : l.map f = l :=
  (List.map_congr_left h).trans (List.map_id l)

theorem Option.map_eq_self {α : Type} {f : α → α} {o : Option α} (h : ∀ a ∈ o, f a = a) :
    o.map f = o :=
  (Option.map_congr h).trans Option.map_id'

/-- A written type stays where its spans do. -/
theorem TypeExpr.shift_eq_self :
    (e : TypeExpr) → (∀ s ∈ e.spans, s.shift k = s) → e.shift k = e
  | .named name span, h => by rw [shift_named, h span (List.mem_singleton_self _)]
  | .function params result span, h => by
    rw [spans_function, List.forall_mem_cons, List.forall_mem_append] at h
    obtain ⟨hspan, hparams, hresult⟩ := h
    have hmap : params.map (TypeExpr.shift k) = params := List.map_eq_self fun e he =>
      e.shift_eq_self fun s hs => hparams s (List.mem_flatMap.mpr ⟨e, he, hs⟩)
    rw [shift_function, hspan, hmap]
    cases result with
    | none => rfl
    | some r =>
      have hr : r.shift k = r := r.shift_eq_self fun s hs => hresult s (by simpa [spansIn] using hs)
      rw [Option.map_some, hr]

theorem TypeExpr.map_shift_eq_self {type : Option TypeExpr}
    (h : ∀ s ∈ spansIn type, s.shift k = s) : type.map (TypeExpr.shift k) = type :=
  Option.map_eq_self fun e he => e.shift_eq_self fun s hs =>
    h s (List.mem_flatMap.mpr ⟨e, Option.mem_toList.mpr he, hs⟩)

namespace Program

/-- What is written in a node, but in no part of it, stays where it is. -/
def Node.Fixed (k : Shift) (n : Node) : Prop :=
  n.span.shift k = n.span ∧ ∀ s ∈ n.types, s.shift k = s

/-- A node stays where its spans do. -/
theorem Node.shift_eq_self {n : Node} (h : n.All (Fixed k)) : n.shift k = n := by
  induction n using induction with
  | h n ih =>
    -- the parts stay, and with them the lists and options that hold them
    have hparts : ∀ m ∈ n.parts, m.shift k = m := fun m hm => ih m hm (h.part hm)
    obtain ⟨hspan, htypes⟩ := h.self
    cases n with
    | expr e =>
      have he : e.shift k = e := by
        cases e with
        | call function arguments span =>
          simp only [parts, ofExpr, List.forall_mem_cons, List.forall_mem_map, shift, expr.injEq]
            at hparts
          rw [Expr.shift_call, hparts.1, List.map_eq_self hparts.2]
          exact congrArg _ hspan
        | function params result body span =>
          simp only [parts, ofExpr, List.forall_mem_append, List.forall_mem_singleton,
            List.forall_mem_map, shift, param.injEq, block.injEq] at hparts
          rw [Expr.shift_function, List.map_eq_self hparts.1, hparts.2,
            TypeExpr.map_shift_eq_self htypes]
          exact congrArg _ hspan
        | _ => simp_all [parts, ofExpr, shift, Expr.span]
      exact congrArg expr he
    | stmt s =>
      have hs : s.shift k = s := by
        cases s with
        | var name type value span =>
          simp only [parts, ofStmt, List.forall_mem_map, Option.mem_toList, shift, expr.injEq]
            at hparts
          rw [Stmt.shift_var, TypeExpr.map_shift_eq_self htypes, Option.map_eq_self hparts]
          exact congrArg _ hspan
        | ret value span =>
          simp only [parts, ofStmt, List.forall_mem_map, Option.mem_toList, shift, expr.injEq]
            at hparts
          rw [Stmt.shift_ret, Option.map_eq_self hparts]
          exact congrArg _ hspan
        | cond condition thenBlock elseBlock span =>
          simp only [parts, ofStmt, List.forall_mem_cons, List.forall_mem_map, Option.mem_toList,
            shift, expr.injEq, block.injEq] at hparts
          rw [Stmt.shift_cond, hparts.1, hparts.2.1, Option.map_eq_self hparts.2.2]
          exact congrArg _ hspan
        | loop init condition post body span =>
          simp only [parts, ofStmt, List.forall_mem_append, List.forall_mem_singleton,
            List.forall_mem_map, Option.mem_toList, shift, expr.injEq, stmt.injEq, block.injEq]
            at hparts
          obtain ⟨hinit, hcondition, hpost, hbody⟩ := hparts
          rw [Stmt.shift_loop, Option.map_eq_self hinit, Option.map_eq_self hcondition,
            Option.map_eq_self hpost, hbody]
          exact congrArg _ hspan
        | _ => simp_all [parts, ofStmt, shift, Stmt.shift, Stmt.span]
      exact congrArg stmt hs
    | block b =>
      obtain ⟨statements, span⟩ := b
      simp only [parts, Block.statements_mk, List.forall_mem_map, shift, stmt.injEq] at hparts
      rw [shift, Block.shift_mk, List.map_eq_self hparts]
      exact congrArg (fun s => block (.mk statements s)) hspan
    | param p =>
      obtain ⟨name, type, span⟩ := p
      have htype : type.shift k = type := type.shift_eq_self htypes
      rw [shift, Parameter.shift, htype]
      exact congrArg (fun s => param ⟨name, type, s⟩) hspan

/-- **A program stays where its spans do.** -/
theorem shift_eq_self {p : Program} (h : ∀ s, p.HasSpan s → s.shift k = s) : p.shift k = p := by
  have hnodes : ∀ i ∈ p.items, ∀ n ∈ i.nodes, n.shift k = n := by
    intro i hi n hn
    obtain ⟨j, hj⟩ := List.mem_iff_getElem?.mp (List.mem_flatMap.mpr ⟨i, hi, hn⟩ : n ∈ p.nodes)
    refine Node.shift_eq_self fun path m hm => ?_
    have hm' : p.at? (j :: path) = some m := at?_cons_eq_some.mpr ⟨n, hj, hm⟩
    exact ⟨h _ (.ofNode hm'), fun s hs => h s (.ofNodeType hm' hs)⟩
  have himports : p.imports.map (ImportDecl.shift k) = p.imports := List.map_eq_self fun i hi =>
    congrArg (ImportDecl.mk i.path) (h _ (.ofImport hi))
  have hitems : p.items.map (Item.shift k) = p.items := List.map_eq_self fun i hi => by
    have hspan := h _ (.ofItem hi)
    have htypes := fun s hs => h s (.ofItemType hi hs)
    have hin := hnodes i hi
    cases i with
    | var d =>
      simp only [Item.nodes, List.forall_mem_map, Option.mem_toList, Node.shift, Node.expr.injEq]
        at hin
      rw [Item.shift, VarDecl.shift, TypeExpr.map_shift_eq_self htypes, Option.map_eq_self hin]
      exact congrArg (fun s => Item.var { d with span := s }) hspan
    | function d =>
      simp only [Item.nodes, List.forall_mem_append, List.forall_mem_singleton,
        List.forall_mem_map, Node.shift, Node.param.injEq, Node.block.injEq] at hin
      rw [Item.shift, FunctionDecl.shift, List.map_eq_self hin.1, hin.2,
        TypeExpr.map_shift_eq_self htypes]
      exact congrArg (fun s => Item.function { d with span := s }) hspan
  rw [shift, himports, hitems]

end Program

end Fixed

end Formula
