import Formula.Proofs.Machine.Equations
import Formula.Proofs.Typing.Constant

/-!
# The values of untyped constants

What an untyped constant stands for, with and without a floating-point number being wanted, told
apart from programs, places and marks. Where a number is wanted, a quotient or remainder is computed
with integers and converted, all other literals are converted, and what is left is computed with
floating-point numbers. A run that finds just the right places marked comes to these values.

## Main definitions

* `Untyped`: integer literals put together by operators
* `Untyped.integer`, `Untyped.floating`: the two values of a constant
* `Expr.untyped?`: the constant that an expression is

## Main results

* `Setting.eval_integer`, `Setting.eval_floating`: a run computes these values
-/

namespace Formula

/-- **An untyped constant**: integer literals put together by operators. -/
inductive Untyped where
  | literal (n : Int64)
  | neg (operand : Untyped)
  | add (left right : Untyped)
  | sub (left right : Untyped)
  | mul (left right : Untyped)
  | div (left right : Untyped)
  | mod (left right : Untyped)
deriving Repr, DecidableEq

namespace Untyped

/-- **A constant among integers**: all of it is computed at 64 bits, around which it wraps. -/
def integer : Untyped → Except Fault Int64
  | literal n => return n
  | neg c => return -(← c.integer)
  | add l r => return (← l.integer) + (← r.integer)
  | sub l r => return (← l.integer) - (← r.integer)
  | mul l r => return (← l.integer) * (← r.integer)
  | div l r => do
    let m ← l.integer
    let n ← r.integer
    if n = 0 then throw .divideByZero else return m / n
  | mod l r => do
    let m ← l.integer
    let n ← r.integer
    if n = 0 then throw .divideByZero else return m % n

/-- **A constant where a floating-point number is wanted.** A quotient or remainder is computed with
integers, whatever is in it, and its result converted; all other literals are converted. -/
def floating : Untyped → Except Fault Float
  | literal n => return n.toFloat
  | neg c => return -(← c.floating)
  | add l r => return (← l.floating) + (← r.floating)
  | sub l r => return (← l.floating) - (← r.floating)
  | mul l r => return (← l.floating) * (← r.floating)
  | div l r => return (← (div l r).integer).toFloat
  | mod l r => return (← (mod l r).integer).toFloat

/-- The constant that an operator makes of two others. -/
def combine? : BinaryOp → Option (Untyped → Untyped → Untyped)
  | .add => some add
  | .sub => some sub
  | .mul => some mul
  | .div => some div
  | .mod => some mod
  | _ => none

/-- The value of a constant at a place, by whether a floating-point number is wanted there. -/
def value (wanted : Option Ty) (u : Untyped) : Except Fault Value :=
  if wanted = some .float then u.floating.map .float else u.integer.map .int

end Untyped

namespace Expr

/-- The constant that an expression is. -/
def untyped? : Expr → Option Untyped
  | literal (.int n) _ => some (.literal n)
  | unary .neg operand _ => operand.untyped?.map .neg
  | binary op left right _ => do
    let combine ← Untyped.combine? op
    return combine (← left.untyped?) (← right.untyped?)
  | _ => none

theorem untyped?_binary {op : BinaryOp} {left right : Expr} {span : Span} {u : Untyped}
    (h : (binary op left right span).untyped? = some u) :
    ∃ combine l r, Untyped.combine? op = some combine ∧ left.untyped? = some l ∧
      right.untyped? = some r ∧ u = combine l r := by
  simp only [untyped?, Option.bind_eq_bind, Option.bind_eq_some_iff] at h
  obtain ⟨combine, hop, l, hl, r, hr, h⟩ := h
  cases h
  exact ⟨combine, l, r, hop, hl, hr, rfl⟩

theorem isConstant_binary (op : BinaryOp) (left right : Expr) (span : Span) :
    (binary op left right span).isConstant =
      (op.isArithmetic && (left.isConstant && right.isConstant)) := by
  unfold isConstant
  cases op <;> cases hl : left.constants? <;> cases hr : right.constants? <;>
    simp [constants?, BinaryOp.isArithmetic, hl, hr]

theorem isConstant_operands {op : BinaryOp} {left right : Expr} {span : Span}
    (h : (binary op left right span).isConstant = true) :
    left.isConstant = true ∧ right.isConstant = true := by
  rw [isConstant_binary, Bool.and_eq_true, Bool.and_eq_true] at h
  exact h.2

/-- The constants of the checker are those that have a value of their own. -/
theorem isSome_untyped? : (e : Expr) → e.untyped?.isSome = e.isConstant
  | literal value _ => by cases value <;> rfl
  | unary op operand _ => by
    cases op with
    | neg =>
      rw [untyped?, Option.isSome_map, isSome_untyped? operand]
      rfl
    | not => rfl
  | binary op left right span => by
    rw [isConstant_binary, ← isSome_untyped? left, ← isSome_untyped? right]
    cases op <;> cases hl : left.untyped? <;> cases hr : right.untyped? <;>
      simp [untyped?, Untyped.combine?, BinaryOp.isArithmetic, hl, hr]
  | identifier _ _ | call _ _ _ | selector _ _ _ | function _ _ _ _ => rfl

end Expr

/-! ## Runs -/

theorem Run.ofExcept_bind {α β : Type} (x : Except Fault α) (f : α → Except Fault β) :
    (Run.ofExcept x >>= fun a => Run.ofExcept (f a)) = Run.ofExcept (x >>= f) := by
  cases x <;> rfl

namespace Setting

variable {s : Setting} {enter : Entry} {env : Env}

theorem computed_of_marked {span : Span} (h : s.types.isFloat span = true)
    (x : Except Fault Int64) : (x.map Value.int).map (s.computed · span) =
      x.map fun n => Value.float n.toFloat := by
  cases x <;> simp [Except.map, computed, h]

theorem computed_of_unmarked {span : Span} (h : s.types.isFloat span = false)
    (x : Except Fault Int64) : (x.map Value.int).map (s.computed · span) = x.map Value.int := by
  cases x <;> simp [Except.map, computed, h]

theorem eval_integerLiteral (n : Int64) (span : Span) :
    s.eval enter env (.literal (.int n) span) =
      Run.ofExcept (((pure n : Except Fault Int64).map Value.int).map (s.computed · span)) := by
  rw [eval]
  rfl

/-- An operation on operands that neither change the machine nor depend on it. -/
theorem eval_operation {op : BinaryOp} (hop : op.isArithmetic = true) {left right : Expr} {span : Span}
    {x y : Except Fault Value} (hl : s.eval enter env left = Run.ofExcept x)
    (hr : s.eval enter env right = Run.ofExcept y) :
    s.eval enter env (.binary op left right span) = Run.ofExcept (Except.map (s.computed · span) (do
      let l ← x
      let r ← y
      operate op l r)) := by
  have hpure (v : Except Fault Value) : (Run.ofExcept v >>= fun v => pure (s.computed v span)) =
      Run.ofExcept (v.map (s.computed · span)) := by
    cases v <;> rfl
  rw [eval_binary s enter env (by rintro rfl; cases hop) (by rintro rfl; cases hop), hl, hr]
  simp only [hpure]
  cases x <;> cases y <;> rfl

theorem eval_neg {operand : Expr} {span : Span} {x : Except Fault Value}
    (h : s.eval enter env operand = Run.ofExcept x) :
    s.eval enter env (.unary .neg operand span) = Run.ofExcept (x >>= operateUnary .neg) := by
  rw [eval, h, Run.ofExcept_bind]

/-- An operator between two integers does what it does between the constants. -/
theorem operate_integer {op : BinaryOp} {combine : Untyped → Untyped → Untyped}
    (hop : Untyped.combine? op = some combine) (l r : Untyped) :
    (do
      let m ← l.integer.map Value.int
      let n ← r.integer.map Value.int
      operate op m n) = (combine l r).integer.map Value.int := by
  have hquotient (n : Int64) (v : Int64) :
      (if n = 0 then .error .divideByZero else .ok (Value.int v)) =
        (if n = 0 then .error .divideByZero else .ok v : Except Fault Int64).map Value.int := by
    split <;> rfl
  cases op <;> cases hop <;> rw [Untyped.integer] <;> cases l.integer <;> cases r.integer <;>
    first
      | rfl
      | exact hquotient _ _

/-- **An untyped constant in which nothing is marked** is computed with integers throughout. -/
theorem eval_integer {e : Expr} {spans : List Span} (he : e.Constant spans) {u : Untyped}
    (hu : e.untyped? = some u) (hmarks : ∀ t ∈ e.spans, s.types.isFloat t = false) :
    s.eval enter env e = Run.ofExcept (u.integer.map .int) := by
  induction he generalizing u with
  | @int n span =>
    cases hu
    rw [eval_integerLiteral, computed_of_unmarked (hmarks span List.mem_cons_self), Untyped.integer]
  | @neg operand span _ _ ih =>
    obtain ⟨v, hv, rfl⟩ := Option.map_eq_some_iff.mp hu
    rw [eval_neg (ih hv fun t ht => hmarks t (List.mem_cons_of_mem _ ht)), Untyped.integer]
    cases v.integer <;> rfl
  | @sum op left right span _ _ _ _ _ ihl ihr | @quotient op left right span _ _ _ _ _ ihl ihr =>
    obtain ⟨combine, l, r, hcombine, hl, hr, rfl⟩ := Expr.untyped?_binary hu
    have hop : op.isArithmetic = true := by
      cases op <;> first | rfl | cases hcombine
    have hparts (t : Span) (ht : t ∈ left.spans ++ right.spans) : s.types.isFloat t = false :=
      hmarks t (List.mem_cons_of_mem _ ht)
    rw [eval_operation hop (ihl hl fun t ht => hparts t (List.mem_append_left _ ht))
        (ihr hr fun t ht => hparts t (List.mem_append_right _ ht)),
      operate_integer hcombine, computed_of_unmarked (hmarks span List.mem_cons_self)]

/-- **An untyped constant in which just those places are marked that become floating-point numbers**
is computed as one. -/
theorem eval_floating {e : Expr} {spans : List Span} (he : e.Constant spans) (hnodup : e.spans.Nodup)
    {u : Untyped} (hu : e.untyped? = some u)
    (hmarks : ∀ t ∈ e.spans, s.types.isFloat t = true ↔ t ∈ spans) :
    s.eval enter env e = Run.ofExcept (u.floating.map .float) := by
  induction he generalizing u with
  | @int n span =>
    cases hu
    rw [eval_integerLiteral,
      computed_of_marked ((hmarks span List.mem_cons_self).mpr List.mem_cons_self), Untyped.floating]
    rfl
  | @neg operand span _ _ ih =>
    obtain ⟨v, hv, rfl⟩ := Option.map_eq_some_iff.mp hu
    have hoperand := ih (List.nodup_cons.mp hnodup).2 hv fun t ht =>
      hmarks t (List.mem_cons_of_mem _ ht)
    rw [eval_neg hoperand, Untyped.floating]
    cases v.floating <;> rfl
  | @sum op left right span ls rs hop hcl hcr ihl ihr =>
    obtain ⟨combine, l, r, hcombine, hl, hr, rfl⟩ := Expr.untyped?_binary hu
    obtain ⟨-, hnodup⟩ := List.nodup_cons.mp hnodup
    obtain ⟨hnl, hnr, hdisjoint⟩ := List.nodup_append.mp hnodup
    -- Each operand has its own marks, as its spans are not those of the other one.
    have hleft := ihl hnl hl fun t ht => by
      rw [hmarks t (List.mem_cons_of_mem _ (List.mem_append_left _ ht)), List.mem_append]
      exact ⟨fun h => h.resolve_right fun h => hdisjoint t ht t (hcr.mem_spans t h) rfl, .inl⟩
    have hright := ihr hnr hr fun t ht => by
      rw [hmarks t (List.mem_cons_of_mem _ (List.mem_append_right _ ht)), List.mem_append]
      exact ⟨fun h => h.resolve_left fun h => hdisjoint t (hcl.mem_spans t h) t ht rfl, .inr⟩
    rcases hop with rfl | rfl | rfl <;> cases hcombine <;>
      rw [eval_operation rfl hleft hright, Untyped.floating] <;>
      cases l.floating <;> cases r.floating <;> rfl
  | @quotient op left right span ls rs hop hcl hcr _ _ =>
    obtain ⟨combine, l, r, hcombine, hl, hr, rfl⟩ := Expr.untyped?_binary hu
    -- Only the place of the quotient is marked, so its operands are computed with integers.
    have hparts (t : Span) (ht : t ∈ left.spans ++ right.spans) : s.types.isFloat t = false := by
      rw [Bool.eq_false_iff]
      intro hfloat
      have hspan := List.mem_singleton.mp ((hmarks t (List.mem_cons_of_mem _ ht)).mp hfloat)
      exact (List.nodup_cons.mp hnodup).1 (hspan ▸ ht)
    have hmarked := (hmarks span List.mem_cons_self).mpr List.mem_cons_self
    have hleft : s.eval enter env left = Run.ofExcept (l.integer.map .int) :=
      eval_integer hcl hl fun t ht => hparts t (List.mem_append_left _ ht)
    have hright : s.eval enter env right = Run.ofExcept (r.integer.map .int) :=
      eval_integer hcr hr fun t ht => hparts t (List.mem_append_right _ ht)
    have harithmetic : op.isArithmetic = true := by
      rcases hop with rfl | rfl <;> rfl
    rw [eval_operation harithmetic hleft hright, operate_integer hcombine, computed_of_marked hmarked]
    rcases hop with rfl | rfl <;> cases hcombine <;> rw [Untyped.floating] <;>
      cases (Untyped.integer _) <;> rfl

end Setting

end Formula
