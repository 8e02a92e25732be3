import Mathlib.Data.List.Forall2
import Mathlib.Data.Option.Basic
import Formula.Proofs.Program.Node
import Formula.Proofs.Typing.Constant
import Formula.Typing.Flow

/-!
# Variants of a program

Two runs are compared of programs that need not be the same. One program is a variant of the other if
it is the same but for assignments that are written out: `x = x op e` stands in it for `x op= e`, and
`x += 1` for `x++`. What is said of a tree without looking into such statements is true of its variants.

## Main definitions

* `Variation`: how two programs and their runs may differ
* `Expr.Variant`, `Stmt.Variant`, `Block.Variant`: variants of a tree
* `Item.Variant`, `Program.Variant`: variants of a program

## Main results

* `Expr.Variant.constants?_eq`: what becomes a floating-point number is the same
* `Block.Variant.terminates_eq`: control comes to the end of a block where it did
* `Program.Variant.refl`: a program all of whose names are seen is a variant of itself
* `Block.Variant.eq`: where nothing is written out, variants are the same
-/

namespace Formula

/-- **How two programs and their runs may differ.** -/
structure Variation where
  /-- The names that stand for the same in both runs, or for variants of the same. -/
  sees : String → Prop := fun _ => True
  /-- The package-level names that may stand for nothing in the second run. -/
  gaps : String → Prop := fun _ => False
  /-- The targets of assignments that are written out, with the places of the operations that they are
  written out with. -/
  operations : String → Span → Prop := fun _ _ => False
  /-- The places of the ones that increments are written out with. -/
  ones : Span → Prop := fun _ => False
  apart : ∀ target span, operations target span → ¬ ones span

/-- A place is not that of a node that something is written out with. -/
structure Variation.Old (V : Variation) (span : Span) : Prop where
  not_operation : ∀ target, ¬ V.operations target span
  not_one : ¬ V.ones span

/-- Two runs of the same program. -/
def Variation.same : Variation where
  apart _ _ h := h.elim

theorem Variation.old_same (span : Span) : same.Old span :=
  ⟨fun _ => not_false, not_false⟩

/-- Whether no function is called where an expression is evaluated. -/
def Expr.isCallFree : Expr → Bool
  | .call _ _ _ => false
  | .binary _ left right _ => left.isCallFree && right.isCallFree
  | .unary _ operand _ => operand.isCallFree
  | .literal _ _ | .identifier _ _ | .selector _ _ _ | .function _ _ _ _ => true

mutual

/-- **A variant of an expression.** -/
inductive Expr.Variant (V : Variation) : Expr → Expr → Prop where
  | literal {value span} (h : V.Old span) : Expr.Variant V (.literal value span) (.literal value span)
  | identifier {name span} (h : V.sees name) :
    Expr.Variant V (.identifier name span) (.identifier name span)
  | binary {op left left' right right' span} (h : V.Old span) (hl : Expr.Variant V left left')
    (hr : Expr.Variant V right right') :
    Expr.Variant V (.binary op left right span) (.binary op left' right' span)
  | unary {op operand operand' span} (ho : Expr.Variant V operand operand') :
    Expr.Variant V (.unary op operand span) (.unary op operand' span)
  | call {function function' arguments arguments' span} (hf : Expr.Variant V function function')
    (ha : List.Forall₂ (Expr.Variant V) arguments arguments') :
    Expr.Variant V (.call function arguments span) (.call function' arguments' span)
  | selector {target member span} (h : V.sees target) :
    Expr.Variant V (.selector target member span) (.selector target member span)
  | function {params result body body' span} (hb : Block.Variant V body body') :
    Expr.Variant V (.function params result body span) (.function params result body' span)

/-- **A variant of a statement.** -/
inductive Stmt.Variant (V : Variation) : Stmt → Stmt → Prop where
  | define {name value value' span} (hv : Expr.Variant V value value') :
    Stmt.Variant V (.define name value span) (.define name value' span)
  | var {name type value value' span} (hv : Option.Rel (Expr.Variant V) value value') :
    Stmt.Variant V (.var name type value span) (.var name type value' span)
  | assign {target op value value' span} (h : V.sees target) (hv : Expr.Variant V value value') :
    Stmt.Variant V (.assign target op value span) (.assign target op value' span)
  | increment {target up span} (h : V.sees target) :
    Stmt.Variant V (.increment target up span) (.increment target up span)
  | expr {value value'} (hv : Expr.Variant V value value') :
    Stmt.Variant V (.expr value) (.expr value')
  | ret {value value' span} (hv : Option.Rel (Expr.Variant V) value value') :
    Stmt.Variant V (.ret value span) (.ret value' span)
  | breakLoop {span} : Stmt.Variant V (.breakLoop span) (.breakLoop span)
  | continueLoop {span} : Stmt.Variant V (.continueLoop span) (.continueLoop span)
  | cond {condition condition' thenBlock thenBlock' elseBlock elseBlock' span}
    (hc : Expr.Variant V condition condition') (ht : Block.Variant V thenBlock thenBlock')
    (he : Option.Rel (Block.Variant V) elseBlock elseBlock') :
    Stmt.Variant V (.cond condition thenBlock elseBlock span)
      (.cond condition' thenBlock' elseBlock' span)
  | loop {init init' condition condition' post post' body body' span}
    (hi : Option.Rel (Stmt.Variant V) init init')
    (hc : Option.Rel (Expr.Variant V) condition condition')
    (hp : Option.Rel (Stmt.Variant V) post post') (hb : Block.Variant V body body') :
    Stmt.Variant V (.loop init condition post body span) (.loop init' condition' post' body' span)
  | block {body body'} (hb : Block.Variant V body body') : Stmt.Variant V (.block body) (.block body')
  /-- `x op= e`, written out: `x = x op e`. -/
  | operation {target op value value' span nameSpan opSpan span'} (h : V.sees target)
    (hnew : V.operations target opSpan) (hop : op.isArithmetic = true)
    (hfree : value.isCallFree = true) (hv : Expr.Variant V value value') :
    Stmt.Variant V (.assign target (some op) value span)
      (.assign target none (.binary op (.identifier target nameSpan) value' opSpan) span')
  /-- `x++` and `x--`, written out: `x += 1` and `x -= 1`. -/
  | one {target up span oneSpan span'} (h : V.sees target) (hnew : V.ones oneSpan) :
    Stmt.Variant V (.increment target up span)
      (.assign target (some (if up then .add else .sub)) (.literal (.int 1) oneSpan) span')

/-- **A variant of a block.** -/
inductive Block.Variant (V : Variation) : Block → Block → Prop where
  | mk {statements statements' span} (h : List.Forall₂ (Stmt.Variant V) statements statements') :
    Block.Variant V (.mk statements span) (.mk statements' span)

end

variable {V : Variation}

theorem Block.Variant.statements {b b' : Block} (h : b.Variant V b') :
    List.Forall₂ (Stmt.Variant V) b.statements b'.statements := by
  cases h with
  | mk h => exact h

/-! ## What is said of an expression -/

namespace Expr.Variant

variable {e e' : Expr}

theorem span_eq (h : e.Variant V e') : e'.span = e.span := by
  cases h <;> rfl

theorem isCall_eq (h : e.Variant V e') : e'.isCall = e.isCall := by
  cases h <;> rfl

theorem calleeName_eq (h : e.Variant V e') : e'.calleeName = e.calleeName := by
  cases h <;> rfl

/-- What becomes a floating-point number is the same. -/
theorem constants?_eq {e e' : Expr} (h : e.Variant V e') : e'.constants? = e.constants? := by
  cases h with
  | @unary op _ _ _ ho =>
    have ih := constants?_eq ho
    cases op with
    | neg => exact ih
    | not => rfl
  | @binary op _ _ _ _ _ _ hl hr =>
    have ihl := constants?_eq hl
    have ihr := constants?_eq hr
    cases op <;> simp only [constants?, ihl, ihr]
  | _ => rfl

theorem isConstant_eq (h : e.Variant V e') : e'.isConstant = e.isConstant := by
  rw [isConstant, isConstant, h.constants?_eq]

/-- What becomes a floating-point number is no node that something is written out with. -/
theorem old_of_constant {spans : List Span} (h : e.Variant V e') (hc : e.Constant spans) :
    ∀ s ∈ spans, V.Old s := by
  induction hc generalizing e' with
  | int =>
    cases h with
    | literal hold => exact List.forall_mem_singleton.mpr hold
  | neg _ ih =>
    cases h with
    | unary ho => exact ih ho
  | sum _ _ _ ihl ihr =>
    cases h with
    | binary _ hl hr => exact List.forall_mem_append.mpr ⟨ihl hl, ihr hr⟩
  | quotient =>
    cases h with
    | binary hold => exact List.forall_mem_singleton.mpr hold

end Expr.Variant

/-! ## Where control can go -/

/-- Control goes on behind variants of statements where it did. -/
structure Stmt.SameExits (s s' : Stmt) : Prop where
  breaksOut : s'.breaksOut = s.breaksOut
  terminates : s'.terminates = s.terminates

/-- **Control goes on behind variants where it did.** -/
theorem sameExits_of_variant : SyntaxCases (fun _ => True) (fun _ => True)
    (fun s => ∀ s', s.Variant V s' → s.SameExits s')
    (fun ss => ∀ ss', List.Forall₂ (Stmt.Variant V) ss ss' →
      anyBreaksOut ss' = anyBreaksOut ss ∧ lastTerminates ss' = lastTerminates ss) where
  literal _ _ := trivial
  identifier _ _ := trivial
  binary _ _ _ _ _ _ := trivial
  unary _ _ _ _ := trivial
  call _ _ _ _ _ := trivial
  selector _ _ _ := trivial
  function _ _ _ _ _ _ := trivial
  noArguments := trivial
  argument _ _ _ _ := trivial
  define _ _ _ _ _ h := by
    cases h
    exact ⟨rfl, rfl⟩
  var _ _ _ _ _ _ h := by
    cases h
    exact ⟨rfl, rfl⟩
  -- what is written out of a statement ends as the statement does
  assign _ _ _ _ _ _ h := by
    cases h <;> exact ⟨rfl, rfl⟩
  increment _ _ _ _ h := by
    cases h <;> exact ⟨rfl, rfl⟩
  expr _ _ _ h := by
    cases h
    exact ⟨rfl, rfl⟩
  ret _ _ _ _ h := by
    cases h
    exact ⟨rfl, rfl⟩
  breakLoop _ _ h := by
    cases h
    exact ⟨rfl, rfl⟩
  continueLoop _ _ h := by
    cases h
    exact ⟨rfl, rfl⟩
  cond condition thenStatements thenSpan elseBlock span _ ht he s' h := by
    cases h with
    | cond _ hthen helse =>
      cases hthen with
      | mk hthen =>
        obtain ⟨hb, hl⟩ := ht _ hthen
        cases helse with
        | none => exact ⟨by simp [Stmt.breaksOut, Block.breaksOut, hb], rfl⟩
        | some helse =>
          cases helse with
          | mk helse =>
            obtain ⟨hb', hl'⟩ := he _ rfl _ helse
            rw [Block.statements_mk] at hb' hl'
            exact ⟨by simp [Stmt.breaksOut, Block.breaksOut, hb, hb'],
              by simp [Stmt.terminates, Block.terminates, hl, hl']⟩
  loop init condition post statements bodySpan span _ _ _ hs s' h := by
    cases h with
    | loop _ hc _ hbody =>
      cases hbody with
      | mk hbody =>
        obtain ⟨hb, -⟩ := hs _ hbody
        cases hc with
        | none => exact ⟨by simp [Stmt.breaksOut], by simp [Stmt.terminates, Block.breaksOut, hb]⟩
        | some => exact ⟨by simp [Stmt.breaksOut], by simp [Stmt.terminates]⟩
  block statements span hs s' h := by
    cases h with
    | block hbody =>
      cases hbody with
      | mk hbody =>
        obtain ⟨hb, hl⟩ := hs _ hbody
        exact ⟨by simp [Stmt.breaksOut, Block.breaksOut, hb],
          by simp [Stmt.terminates, Block.terminates, hl]⟩
  noStatements ss' h := by
    cases h
    exact ⟨rfl, rfl⟩
  statement s ss hs hss ss' h := by
    cases h with
    | cons h hrest =>
      obtain ⟨hb, hl⟩ := hs _ h
      obtain ⟨hb', hl'⟩ := hss _ hrest
      refine ⟨by rw [anyBreaksOut, anyBreaksOut, hb, hb'], ?_⟩
      cases hrest with
      | nil => exact hl
      | cons => exact hl'

/-- Control comes to the end of a block where it did. -/
theorem Block.Variant.terminates_eq {b b' : Block} (h : b.Variant V b') :
    b'.terminates = b.terminates := by
  cases h with
  | @mk statements statements' _ h =>
    exact (sameExits_of_variant.ofStmts statements statements' h).2

/-! ## Declarations and programs -/

/-- A variant of a package-level variable. -/
structure VarDecl.Variant (V : Variation) (d d' : VarDecl) : Prop where
  name : d'.name = d.name
  type : d'.type = d.type
  value : Option.Rel (Expr.Variant V) d.value d'.value
  span : d'.span = d.span

/-- A variant of a package-level function. -/
structure FunctionDecl.Variant (V : Variation) (d d' : FunctionDecl) : Prop where
  name : d'.name = d.name
  params : d'.params = d.params
  result : d'.result = d.result
  body : d.body.Variant V d'.body
  span : d'.span = d.span

/-- A variant of a package-level declaration. -/
inductive Item.Variant (V : Variation) : Item → Item → Prop where
  | var {d d' : VarDecl} (h : d.Variant V d') : Item.Variant V (.var d) (.var d')
  | function {d d' : FunctionDecl} (h : d.Variant V d') : Item.Variant V (.function d) (.function d')

/-- **A variant of a program.** -/
structure Program.Variant (V : Variation) (p p' : Program) : Prop where
  imports : p'.imports = p.imports
  items : List.Forall₂ (Item.Variant V) p.items p'.items

/-- The declarations of one sort in variants. -/
theorem Item.Variant.filterMap {α : Type} {f : Item → Option α} {R : α → α → Prop}
    (hf : ∀ i i' : Item, i.Variant V i' → Option.Rel R (f i) (f i')) {items items' : List Item}
    (h : List.Forall₂ (Item.Variant V) items items') :
    List.Forall₂ R (items.filterMap f) (items'.filterMap f) := by
  induction h with
  | nil => exact .nil
  | cons h _ ih =>
    have hfi := hf _ _ h
    rw [List.filterMap_cons, List.filterMap_cons]
    generalize f _ = a at hfi ⊢
    generalize f _ = a' at hfi ⊢
    cases hfi with
    | none => exact ih
    | some ha => exact .cons ha ih

namespace Program.Variant

variable {p p' : Program}

theorem vars (h : p.Variant V p') : List.Forall₂ (VarDecl.Variant V) p.vars p'.vars := by
  refine Item.Variant.filterMap (fun i i' hi => ?_) h.items
  cases hi with
  | var h => exact .some h
  | function => exact .none

theorem functions (h : p.Variant V p') :
    List.Forall₂ (FunctionDecl.Variant V) p.functions p'.functions := by
  refine Item.Variant.filterMap (fun i i' hi => ?_) h.items
  cases hi with
  | var => exact .none
  | function h => exact .some h

end Program.Variant

/-! ## Programs of which nothing is written out -/

namespace Program.Node

/-- The name that a node looks up. -/
def name? : Node → Option String
  | expr (.identifier name _) | expr (.selector name _ _) => some name
  | stmt (.assign target _ _ _) | stmt (.increment target _ _) => some target
  | _ => none

/-- The names in a node are seen. -/
abbrev Seen (V : Variation) (n : Node) : Prop :=
  n.All fun m => ∀ name ∈ m.name?, V.sees name

end Program.Node

theorem rel_self_of_forall {α : Type} {R : α → α → Prop} : {o : Option α} →
    (∀ a ∈ o, R a a) → Option.Rel R o o
  | none, _ => .none
  | some a, h => .some (h a rfl)

/-- **What is seen is a variant of itself.** -/
theorem variant_refl (hold : ∀ span, V.Old span) : SyntaxCases
    (fun e => (Program.Node.expr e).Seen V → e.Variant V e)
    (fun es => (∀ e ∈ es, (Program.Node.expr e).Seen V) → List.Forall₂ (Expr.Variant V) es es)
    (fun s => (Program.Node.stmt s).Seen V → s.Variant V s)
    (fun ss => (∀ s ∈ ss, (Program.Node.stmt s).Seen V) → List.Forall₂ (Stmt.Variant V) ss ss) where
  literal value span _ := .literal (hold span)
  identifier name span h := .identifier (h.self name rfl)
  binary op left right span hl hr h :=
    .binary (hold span) (hl (h.part List.mem_cons_self))
      (hr (h.part (List.mem_cons_of_mem _ List.mem_cons_self)))
  unary op operand span ho h := .unary (ho (h.part List.mem_cons_self))
  call function arguments span hf ha h :=
    .call (hf (h.part List.mem_cons_self))
      (ha fun _ he => h.part (List.mem_cons_of_mem _ (List.mem_map_of_mem he)))
  selector target member span h := .selector (h.self target rfl)
  function params result statements bodySpan span hs h :=
    have hbody : (Program.Node.block (.mk statements bodySpan)).Seen V :=
      h.part (List.mem_append_right _ List.mem_cons_self)
    .function (.mk (hs fun _ hs => hbody.part (List.mem_map_of_mem hs)))
  noArguments _ := .nil
  argument e es he hes h :=
    have ⟨h, hrest⟩ := List.forall_mem_cons.mp h
    .cons (he h) (hes hrest)
  define name value span hv h := .define (hv (h.part List.mem_cons_self))
  var name type value span hv h :=
    .var (rel_self_of_forall fun e he => hv e he (h.part (List.mem_map_of_mem (Option.mem_toList.mpr he))))
  assign target op value span hv h := .assign (h.self target rfl) (hv (h.part List.mem_cons_self))
  increment target up span h := .increment (h.self target rfl)
  expr value hv h := .expr (hv (h.part List.mem_cons_self))
  ret value span hv h :=
    .ret (rel_self_of_forall fun e he => hv e he (h.part (List.mem_map_of_mem (Option.mem_toList.mpr he))))
  breakLoop span _ := .breakLoop
  continueLoop span _ := .continueLoop
  cond condition thenStatements thenSpan elseBlock span hc ht he h := by
    have hthen : (Program.Node.block (.mk thenStatements thenSpan)).Seen V :=
      h.part (List.mem_cons_of_mem _ List.mem_cons_self)
    refine .cond (hc (h.part List.mem_cons_self))
      (.mk (ht fun _ hs => hthen.part (List.mem_map_of_mem hs))) (rel_self_of_forall fun b hb => ?_)
    have helse : (Program.Node.block b).Seen V := h.part <| List.mem_cons_of_mem _ <|
      List.mem_cons_of_mem _ <| List.mem_map_of_mem (Option.mem_toList.mpr hb)
    obtain ⟨statements, blockSpan⟩ := b
    exact .mk (he _ hb fun _ hs => helse.part (List.mem_map_of_mem hs))
  loop init condition post statements bodySpan span hi hc hp hs h := by
    -- the four parts of a loop are in sight as the loop is
    have hmem (m : Program.Node) (hm : m ∈ init.toList.map .stmt ∨ m ∈ condition.toList.map .expr ∨
        m ∈ post.toList.map .stmt ∨ m ∈ [Program.Node.block (.mk statements bodySpan)]) : m.Seen V := by
      refine h.part ?_
      simpa only [Program.Node.parts, Program.Node.ofStmt, List.mem_append] using hm
    have hbody := hmem _ (.inr (.inr (.inr List.mem_cons_self)))
    refine .loop (rel_self_of_forall fun i hin => hi i hin (hmem _ (.inl ?_)))
      (rel_self_of_forall fun c hin => hc c hin (hmem _ (.inr (.inl ?_))))
      (rel_self_of_forall fun p hin => hp p hin (hmem _ (.inr (.inr (.inl ?_)))))
      (.mk (hs fun _ hs => hbody.part (List.mem_map_of_mem hs)))
    all_goals exact List.mem_map_of_mem (Option.mem_toList.mpr hin)
  block statements span hs h :=
    have hbody : (Program.Node.block (.mk statements span)).Seen V := h.part List.mem_cons_self
    .block (.mk (hs fun _ hs => hbody.part (List.mem_map_of_mem hs)))
  noStatements _ := .nil
  statement s ss hs hss h :=
    have ⟨h, hrest⟩ := List.forall_mem_cons.mp h
    .cons (hs h) (hss hrest)

/-- What all nodes of a program satisfy. -/
theorem Program.forall_at?_iff {p : Program} {Q : Program.Node → Prop} :
    (∀ path n, p.at? path = some n → Q n) ↔ ∀ n ∈ p.nodes, n.All Q := by
  refine ⟨fun h n hn path m hm => ?_, fun h path n hn => ?_⟩
  · obtain ⟨i, hi⟩ := List.mem_iff_getElem?.mp hn
    exact h (i :: path) m (at?_cons_eq_some.mpr ⟨n, hi, hm⟩)
  · obtain ⟨i, rest, m, -, hm, hat⟩ := exists_of_at? hn
    exact h m (List.mem_of_getElem? hm) rest n hat

/-- A program all of whose names are seen is a variant of itself. -/
theorem Program.Variant.refl (hold : ∀ span, V.Old span) {p : Program}
    (h : ∀ path n, p.at? path = some n → ∀ name ∈ n.name?, V.sees name) : p.Variant V p := by
  have hnode : ∀ n ∈ p.nodes, n.Seen V := forall_at?_iff.mp h
  have hcases := variant_refl hold
  refine ⟨rfl, List.forall₂_same.mpr fun i hi => ?_⟩
  have hparts : ∀ n ∈ i.nodes, n.Seen V := fun n hn => hnode n (List.mem_flatMap.mpr ⟨i, hi, hn⟩)
  cases i with
  | var d =>
    refine .var ⟨rfl, rfl, rel_self_of_forall fun e he => hcases.ofExpr e (hparts _ ?_), rfl⟩
    exact List.mem_map_of_mem (Option.mem_toList.mpr he)
  | function d =>
    have hbody := hparts (.block d.body) (List.mem_append_right _ List.mem_cons_self)
    obtain ⟨name, params, result, ⟨statements, bodySpan⟩, span⟩ := d
    exact .function ⟨rfl, rfl, rfl, .mk (hcases.ofStmts statements fun _ hs =>
      hbody.part (List.mem_map_of_mem hs)), rfl⟩

theorem eq_of_rel {α : Type} {R : α → α → Prop} : {o o' : Option α} →
    (∀ a ∈ o, ∀ a', R a a' → a' = a) → Option.Rel R o o' → o' = o
  | none, none, _, .none => rfl
  | some a, some a', h, .some hr => congrArg some (h a rfl a' hr)

/-- **Where nothing is written out, variants are the same.** -/
theorem variant_eq (hold : ∀ span, V.Old span) : SyntaxCases
    (fun e => ∀ e', e.Variant V e' → e' = e)
    (fun es => ∀ es', List.Forall₂ (Expr.Variant V) es es' → es' = es)
    (fun s => ∀ s', s.Variant V s' → s' = s)
    (fun ss => ∀ ss', List.Forall₂ (Stmt.Variant V) ss ss' → ss' = ss) where
  literal value span e' h := by
    cases h
    rfl
  identifier name span e' h := by
    cases h
    rfl
  binary op left right span hl hr e' h := by
    cases h with
    | binary _ hleft hright => rw [hl _ hleft, hr _ hright]
  unary op operand span ho e' h := by
    cases h with
    | unary h => rw [ho _ h]
  call function arguments span hf ha e' h := by
    cases h with
    | call hfunction harguments => rw [hf _ hfunction, ha _ harguments]
  selector target member span e' h := by
    cases h
    rfl
  function params result statements bodySpan span hs e' h := by
    cases h with
    | function hb =>
      cases hb with
      | mk hb => rw [hs _ hb]
  noArguments es' h := by
    cases h
    rfl
  argument e es he hes es' h := by
    cases h with
    | cons h hrest => rw [he _ h, hes _ hrest]
  define name value span hv s' h := by
    cases h with
    | define h => rw [hv _ h]
  var name type value span hv s' h := by
    cases h with
    | var h => rw [eq_of_rel hv h]
  assign target op value span hv s' h := by
    cases h with
    | assign _ h => rw [hv _ h]
    -- an operation would be written out at a new place, and all places are old
    | operation _ hnew => exact absurd hnew ((hold _).not_operation _)
  increment target up span s' h := by
    cases h with
    | increment => rfl
    | one _ hnew => exact absurd hnew (hold _).not_one
  expr value hv s' h := by
    cases h with
    | expr h => rw [hv _ h]
  ret value span hv s' h := by
    cases h with
    | ret h => rw [eq_of_rel hv h]
  breakLoop span s' h := by
    cases h
    rfl
  continueLoop span s' h := by
    cases h
    rfl
  cond condition thenStatements thenSpan elseBlock span hc ht he s' h := by
    cases h with
    | cond hcondition hthen helse =>
      cases hthen with
      | mk hthen =>
        have hsame : ∀ b ∈ elseBlock, ∀ b', b.Variant V b' → b' = b := by
          intro b hb b' h
          cases h with
          | mk h => exact congrArg (Block.mk · _) (he _ hb _ h)
        rw [hc _ hcondition, ht _ hthen, eq_of_rel hsame helse]
  loop init condition post statements bodySpan span hi hc hp hs s' h := by
    cases h with
    | loop hinit hcondition hpost hbody =>
      cases hbody with
      | mk hbody =>
        rw [eq_of_rel hi hinit, eq_of_rel hc hcondition, eq_of_rel hp hpost, hs _ hbody]
  block statements span hs s' h := by
    cases h with
    | block hb =>
      cases hb with
      | mk hb => rw [hs _ hb]
  noStatements ss' h := by
    cases h
    rfl
  statement s ss hs hss ss' h := by
    cases h with
    | cons h hrest => rw [hs _ h, hss _ hrest]

/-- Where nothing is written out, variants of a block are the same. -/
theorem Block.Variant.eq (hold : ∀ span, V.Old span) {b b' : Block} (h : b.Variant V b') :
    b' = b := by
  cases h with
  | mk h => exact congrArg (Block.mk · _) ((variant_eq hold).ofStmts _ _ h)

end Formula
