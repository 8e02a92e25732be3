import Formula.Program.Grammar
import Mathlib.Order.Lattice
import Mathlib.Tactic.Ring

/-!
# How deep programs are

How many expressions and blocks lie within one another in a program, and how many there can be: a
row of operators or of argument lists opens a level for each of them while it is read, and closes
them all when it is complete. What it begins with lies deeper by its length, though, and so a
program may be deeper than there are levels, but no deeper than about the square of their number.

## Main definitions

* `Count`, `Program.nesting`: what is counted on the way to a part, and the most that there is
* `deepest`: how deep an expression can be that is read where so many levels may be opened

## Main results

* `Program.nesting_le_iff`: a program is as deep as its declarations are
* `deepest_zero`, `deepest_one`: the levels, and the expressions and blocks
-/

namespace Formula

/-! ## Nesting -/

/-- What is counted on the way to a part of a program. -/
structure Count where
  /-- How much a left operand or a callee lies below the operator or the argument list behind it. -/
  lead : Nat
  /-- How deep a written type counts as. -/
  type : TypeExpr → Nat

mutual

/-- How many written types lie within one another. -/
def TypeExpr.height : TypeExpr → Nat
  | .named _ _ => 1
  | .function params result _ =>
    max (TypeExpr.heightOfAll params) (match result with
      | some type => type.height
      | none => 0) + 1

/-- How many written types lie within one another at most. -/
def TypeExpr.heightOfAll : List TypeExpr → Nat
  | [] => 0
  | t :: ts => max t.height (TypeExpr.heightOfAll ts)

end

namespace Count

/-- The levels of nesting that are open at once: none for what comes first in a row. -/
def levels : Count := ⟨0, fun _ => 0⟩

/-- Blocks and expressions. -/
def nodes : Count := ⟨1, fun _ => 0⟩

/-- Blocks, expressions and written types. -/
def allNodes : Count := ⟨1, TypeExpr.height⟩

/-- The depth of a type that may be missing. -/
def typeIn (k : Count) : Option TypeExpr → Nat
  | some type => k.type type
  | none => 0

/-- The depth of the types of parameters. -/
def typesOf (k : Count) : List Parameter → Nat
  | [] => 0
  | p :: ps => max (k.type p.type) (k.typesOf ps)

end Count

mutual

/-- **How many expressions and blocks lie within one another** in an expression. -/
def Expr.nesting (k : Count) : Expr → Nat
  | .literal _ _ => 1
  | .identifier _ _ => 1
  | .selector _ _ _ => 1
  | .unary _ operand _ => operand.nesting k + 1
  | .binary _ left right _ => max (left.nesting k + k.lead) (right.nesting k + 1)
  | .call callee arguments _ => max (callee.nesting k + k.lead) (Expr.nestingOfAll k arguments + 1)
  | .function params result (.mk statements _) _ =>
    max (max (k.typesOf params) (k.typeIn result)) (Stmt.nestingOfAll k statements + 1) + 1

/-- How many expressions and blocks lie within one another in some expression. -/
def Expr.nestingOfAll (k : Count) : List Expr → Nat
  | [] => 0
  | e :: es => max (e.nesting k) (Expr.nestingOfAll k es)

/-- How many expressions and blocks lie within one another in a statement. -/
def Stmt.nesting (k : Count) : Stmt → Nat
  | .define _ value _ => value.nesting k
  | .var _ type value _ =>
    max (k.typeIn type) (match value with
      | some e => e.nesting k
      | none => 0)
  | .assign _ _ value _ => value.nesting k
  | .increment _ _ _ => 0
  | .expr value => value.nesting k
  | .ret value _ =>
    match value with
      | some e => e.nesting k
      | none => 0
  | .breakLoop _ => 0
  | .continueLoop _ => 0
  | .cond condition (.mk thenStatements _) elseBlock _ =>
    max (condition.nesting k) (max (Stmt.nestingOfAll k thenStatements + 1) (match elseBlock with
      | some (.mk elseStatements _) => Stmt.nestingOfAll k elseStatements + 1
      | none => 0))
  | .loop init condition post (.mk statements _) _ =>
    max (max (match init with
      | some i => i.nesting k
      | none => 0) (match condition with
      | some c => c.nesting k
      | none => 0)) (max (match post with
      | some p => p.nesting k
      | none => 0) (Stmt.nestingOfAll k statements + 1))
  | .block (.mk statements _) => Stmt.nestingOfAll k statements + 1

/-- How many expressions and blocks lie within one another in some statement. -/
def Stmt.nestingOfAll (k : Count) : List Stmt → Nat
  | [] => 0
  | s :: ss => max (s.nesting k) (Stmt.nestingOfAll k ss)

end

/-- How many expressions and blocks lie within one another in a block, itself included. -/
def Block.nesting (k : Count) (b : Block) : Nat :=
  Stmt.nestingOfAll k b.statements + 1

/-- How many expressions and blocks lie within one another in a declaration. -/
def Item.nesting (k : Count) : Item → Nat
  | .var d => max (k.typeIn d.type) ((d.value.map (Expr.nesting k)).getD 0)
  | .function d => max (max (k.typesOf d.params) (k.typeIn d.result)) (d.body.nesting k)

/-- **How many expressions and blocks lie within one another in a program.** -/
def Program.nesting (k : Count) (p : Program) : Nat :=
  (p.items.map (Item.nesting k)).foldr max 0

section Bounds

variable {k : Count} {bound : Nat}

theorem TypeExpr.heightOfAll_le {ts : List TypeExpr} :
    TypeExpr.heightOfAll ts ≤ bound ↔ ∀ t ∈ ts, t.height ≤ bound := by
  induction ts with
  | nil => simp [TypeExpr.heightOfAll]
  | cons t ts ih => simp [TypeExpr.heightOfAll, ih]

theorem TypeExpr.height_function (params : List TypeExpr) (result : Option TypeExpr) (span : Span) :
    (TypeExpr.function params result span).height =
      max (TypeExpr.heightOfAll params) ((result.map TypeExpr.height).getD 0) + 1 := by
  cases result <;> rfl

theorem Expr.nestingOfAll_le {es : List Expr} :
    Expr.nestingOfAll k es ≤ bound ↔ ∀ e ∈ es, e.nesting k ≤ bound := by
  induction es with
  | nil => simp [Expr.nestingOfAll]
  | cons e es ih => simp [Expr.nestingOfAll, ih]

theorem Stmt.nestingOfAll_le {ss : List Stmt} :
    Stmt.nestingOfAll k ss ≤ bound ↔ ∀ s ∈ ss, s.nesting k ≤ bound := by
  induction ss with
  | nil => simp [Stmt.nestingOfAll]
  | cons s ss ih => simp [Stmt.nestingOfAll, ih]

theorem Program.nesting_le_iff {p : Program} :
    p.nesting k ≤ bound ↔ ∀ i ∈ p.items, i.nesting k ≤ bound := by
  unfold Program.nesting
  induction p.items with
  | nil => simp
  | cons i is ih => simp [ih]

/-- A bound on the depth of a part that may be missing. -/
theorem getD_map_le {α : Type} {f : α → Nat} {o : Option α} :
    (o.map f).getD 0 ≤ bound ↔ ∀ a ∈ o, f a ≤ bound := by
  cases o <;> simp

theorem Count.typeIn_le {type : Option TypeExpr} :
    k.typeIn type ≤ bound ↔ ∀ t ∈ type, k.type t ≤ bound := by
  cases type <;> simp [Count.typeIn]

theorem Stmt.nesting_var (name : String) (type : Option TypeExpr) (value : Option Expr)
    (span : Span) : (Stmt.var name type value span).nesting k =
      max (k.typeIn type) ((value.map (Expr.nesting k)).getD 0) := by
  cases value <;> rfl

theorem Stmt.nesting_cond (condition : Expr) (thenBlock : Block) (elseBlock : Option Block)
    (span : Span) : (Stmt.cond condition thenBlock elseBlock span).nesting k =
      max (condition.nesting k)
        (max (thenBlock.nesting k) ((elseBlock.map (Block.nesting k)).getD 0)) := by
  obtain ⟨thenStatements, thenSpan⟩ := thenBlock
  rcases elseBlock with _ | ⟨elseStatements, elseSpan⟩ <;> rfl

theorem Stmt.nesting_loop (init : Option Stmt) (condition : Option Expr) (post : Option Stmt)
    (body : Block) (span : Span) : (Stmt.loop init condition post body span).nesting k =
      max (max ((init.map (Stmt.nesting k)).getD 0) ((condition.map (Expr.nesting k)).getD 0))
        (max ((post.map (Stmt.nesting k)).getD 0) (body.nesting k)) := by
  obtain ⟨statements, bodySpan⟩ := body
  cases init <;> cases condition <;> cases post <;> rfl

theorem Stmt.nesting_block (body : Block) : (Stmt.block body).nesting k = body.nesting k := by
  cases body
  rfl

end Bounds

/-! ## How deep an expression can be -/

/-- **How deep an expression can be** that is read where `n` levels may be opened. A level less is
left for what stands in parentheses, and behind these there may be as many argument lists and as
many operators as there are levels; the body of a function lies two levels down. -/
def deepest (lead : Nat) : Nat → Nat
  | 0 => 0
  | 1 => 1
  | n + 2 => max (deepest lead (n + 1)) (deepest lead n + 2) + 2 * (lead * (n + 1))

/-- How deep an operand can be, without the rows that it is part of. -/
def deepestOperand (lead : Nat) : Nat → Nat
  | 0 => 1
  | n + 1 => max (deepest lead (n + 1)) (deepest lead n + 2)

section Deepest

variable (lead n : Nat)

theorem deepest_succ :
    deepest lead (n + 1) = deepestOperand lead n + lead * n + lead * n := by
  cases n with
  | zero => rfl
  | succ n =>
    rw [deepest, deepestOperand]
    omega

theorem deepest_le_deepestOperand : deepest lead n ≤ deepestOperand lead n := by
  cases n with
  | zero => exact Nat.zero_le 1
  | succ n => exact Nat.le_max_left _ _

theorem add_two_le_deepestOperand : deepest lead n + 2 ≤ deepestOperand lead (n + 1) :=
  Nat.le_max_right _ _

/-- With another level all can lie deeper. -/
theorem deepest_lt_succ :
    deepest lead n < deepest lead (n + 1) ∧
      deepestOperand lead n < deepestOperand lead (n + 1) := by
  -- Expressions and operands grow by turns, so both are said at once.
  induction n with
  | zero => exact ⟨Nat.zero_lt_one, Nat.lt_of_lt_of_le Nat.one_lt_two (Nat.le_max_right _ _)⟩
  | succ n ih =>
    have hn := deepest_succ lead n
    have hsucc : deepest lead (n + 2) = deepestOperand lead (n + 1) + lead * (n + 1) +
      lead * (n + 1) := deepest_succ lead (n + 1)
    have hoperand : deepestOperand lead (n + 2) =
      max (deepest lead (n + 2)) (deepest lead (n + 1) + 2) := rfl
    have hoperand' : deepestOperand lead (n + 1) =
      max (deepest lead (n + 1)) (deepest lead n + 2) := rfl
    have hmul : lead * (n + 1) = lead * n + lead := Nat.mul_succ lead n
    show deepest lead (n + 1) < deepest lead (n + 2) ∧
      deepestOperand lead (n + 1) < deepestOperand lead (n + 2)
    omega

theorem deepestOperand_pos : 0 < deepestOperand lead n := by
  cases n with
  | zero => exact Nat.zero_lt_one
  | succ n => exact Nat.lt_of_lt_of_le (Nat.succ_pos _) (add_two_le_deepestOperand lead n)

/-- A right operand lies no deeper than what is before it. -/
theorem deepest_add_one_le : deepest lead (n + 1) + 1 ≤ deepestOperand lead (n + 1) + lead := by
  cases lead with
  | succ lead =>
    have := deepest_le_deepestOperand (lead + 1) (n + 1)
    omega
  | zero =>
    -- Without rows it is functions that make operands deep.
    have hadd := add_two_le_deepestOperand 0 n
    have hsucc := deepest_succ 0 n
    cases n with
    | zero => exact Nat.le_refl 2
    | succ n =>
      have hoperand : deepestOperand 0 (n + 1) = max (deepest 0 (n + 1)) (deepest 0 n + 2) := rfl
      have hlt := (deepest_lt_succ 0 n).1
      omega

/-- Without rows, there are as many parts as levels. -/
theorem deepest_zero : deepest 0 n = n := by
  induction n using Nat.twoStepInduction with
  | zero => rfl
  | one => rfl
  | more n ih₁ ih₂ =>
    rw [deepest, ih₁, ih₂]
    omega

/-- With rows, there are as many as the product of two numbers of levels, and two more. -/
theorem deepest_one : deepest 1 (n + 2) = (n + 2) * (n + 1) + 2 := by
  induction n with
  | zero => rfl
  | succ n ih =>
    -- A row at every level makes parentheses deeper than functions.
    have hrow : deepest 1 (n + 1) + 2 ≤ deepest 1 (n + 2) := by
      have hsucc : deepest 1 (n + 2) = deepestOperand 1 (n + 1) + 1 * (n + 1) + 1 * (n + 1) :=
        deepest_succ 1 (n + 1)
      have hle := deepest_le_deepestOperand 1 (n + 1)
      omega
    rw [deepest, max_eq_left hrow, ih]
    ring

end Deepest

end Formula
