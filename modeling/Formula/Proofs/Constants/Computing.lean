import Formula.Proofs.Constants.Covering
import Formula.Proofs.Constants.Floats
import Formula.Proofs.Program.Layout
import Formula.Proofs.Program.Reading
import Mathlib.Data.List.Nodup
import Mathlib.Data.List.Pairwise

/-!
# Untyped constants are computed as is wanted of them

The places that the checker marks and the runs that look them up are brought together: what an
untyped constant gives when it is evaluated is its value for the type that is wanted of it, in
whatever function, round of a loop or call it is evaluated. A constant in a constant has the value
that is wanted of it for the sake of the larger one, which is an integer within a quotient or
remainder.

## Main definitions

* `Slot.Settled types p`: just those places of a slot are marked that become floating-point numbers

## Main results

* `Slot.Covers.settled`: the marks of a constant are right for the constants in it
* `SourceFile.constants_are_as_wanted`: all constants in a program have the values that are wanted
  of them
-/

namespace Formula

namespace Slot

variable {types : TypeInfo} {p q : Slot} {wanted : Option Ty} {s : Span}

/-- **Just those places of a slot are marked that become floating-point numbers.** -/
structure Settled (types : TypeInfo) (p : Slot) : Prop where
  constant : p.expr.isConstant = true
  nodup : p.expr.spans.Nodup
  marks : ∀ s ∈ p.expr.spans, types.isFloat s = true ↔ s ∈ p.marks

theorem mem_spans_of_marks (h : s ∈ p.marks) : s ∈ p.expr.spans := by
  unfold marks at h
  split at h
  · cases hc : p.expr.constants? with
    | none =>
      rw [hc] at h
      cases h
    | some spans =>
      rw [hc] at h
      exact (Expr.constant_of_constants? hc).mem_spans s h
  · cases h

/-- What becomes a floating-point number in the operands of an operator is what does in each of
them, or else the place of the operator itself. -/
theorem marks_binary {op : BinaryOp} {left right : Expr} {span : Span}
    (h : (Expr.binary op left right span).isConstant = true) (hs : s ≠ span) :
    s ∈ marks ⟨wanted, .binary op left right span⟩ ↔
      s ∈ marks ⟨operands wanted op, left⟩ ∨ s ∈ marks ⟨operands wanted op, right⟩ := by
  obtain ⟨spans, hspans⟩ := Option.isSome_iff_exists.mp h
  unfold marks
  -- A quotient is marked as a whole, at its operator, and its operands stay integers.
  cases hl : left.constants? <;> cases hr : right.constants? <;> cases op <;>
    simp only [Expr.constants?, hl, hr, reduceCtorEq] at hspans ⊢ <;>
    by_cases hwanted : wanted = some .float <;> simp [operands, hwanted, hs]

/-- **The marks of a constant are right for the constants in it**, as their places are different. -/
theorem Covers.settled (h : p.Covers q) (hp : p.Settled types) : q.Settled types := by
  induction h with
  | self => exact hp
  | operand _ ih =>
    refine ih ⟨hp.constant, (List.nodup_cons.mp hp.nodup).2, fun s hs => ?_⟩
    exact hp.marks s (List.mem_cons_of_mem _ hs)
  | @left wanted op left right span q _ ih =>
    obtain ⟨hspan, hnodup⟩ := List.nodup_cons.mp hp.nodup
    obtain ⟨hnl, -, hdisjoint⟩ := List.nodup_append.mp hnodup
    have hl : left.isConstant = true := (Expr.isConstant_operands hp.constant).1
    -- What is marked in the operand on the other side stands at other places.
    refine ih ⟨hl, hnl, fun s hs => ?_⟩
    have hmem := List.mem_append_left right.spans hs
    rw [hp.marks s (List.mem_cons_of_mem _ hmem), marks_binary hp.constant fun h => hspan (h ▸ hmem)]
    exact or_iff_left fun h => hdisjoint s hs s (mem_spans_of_marks h) rfl
  | @right wanted op left right span q _ ih =>
    obtain ⟨hspan, hnodup⟩ := List.nodup_cons.mp hp.nodup
    obtain ⟨-, hnr, hdisjoint⟩ := List.nodup_append.mp hnodup
    have hr : right.isConstant = true := (Expr.isConstant_operands hp.constant).2
    refine ih ⟨hr, hnr, fun s hs => ?_⟩
    have hmem := List.mem_append_right left.spans hs
    rw [hp.marks s (List.mem_cons_of_mem _ hmem), marks_binary hp.constant fun h => hspan (h ▸ hmem)]
    exact or_iff_right fun h => hdisjoint s (mem_spans_of_marks h) s hs rfl

/-- **A constant whose marks are right has the value that is wanted of it.** -/
theorem Settled.eval (h : p.Settled types) {u : Untyped} (hu : p.expr.untyped? = some u) (s : Setting)
    (htypes : s.types = types) (enter : Entry) (env : Env) :
    s.eval enter env p.expr = Run.ofExcept (u.value p.wanted) := by
  obtain ⟨spans, hspans⟩ := Option.isSome_iff_exists.mp h.constant
  have hconstant := Expr.constant_of_constants? hspans
  have hmarks := h.marks
  rw [← htypes] at hmarks
  unfold Untyped.value
  by_cases hwanted : p.wanted = some .float
  · -- The run looks up the very places that the checker has marked.
    rw [if_pos hwanted]
    refine Setting.eval_floating hconstant h.nodup hu fun t ht => ?_
    rw [hmarks t ht, Slot.marks, if_pos hwanted, hspans]
    rfl
  · rw [if_neg hwanted]
    refine Setting.eval_integer hconstant hu fun t ht => Bool.eq_false_iff.mpr fun hfloat => ?_
    have hmem := (hmarks t ht).mp hfloat
    rw [Slot.marks, if_neg hwanted] at hmem
    cases hmem

end Slot

/-! ## Programs -/

/-- **In a program that is accepted, the marks of all slots are right**, as they do not overlap. -/
theorem Program.settled_of_mem_slots {p : Program} {entryPoint : String} {types : TypeInfo}
    (hcheck : p.check entryPoint = .ok types) (hspans : p.spans.Nodup) {q : Slot}
    (hq : q ∈ p.slots entryPoint) : q.Settled types := by
  obtain ⟨hnodup, hdisjoint⟩ := List.nodup_flatMap.mp (p.nodup_slots hspans entryPoint)
  have : Std.Symm (Function.onFun List.Disjoint fun q : Slot => q.expr.spans) :=
    ⟨fun _ _ h => List.disjoint_symm h⟩
  refine ⟨p.isConstant_of_mem_slots hq, hnodup q hq, fun s hs => ?_⟩
  rw [TypeInfo.isFloat, List.contains_iff_mem, p.mem_floats_iff hcheck]
  refine ⟨fun ⟨q', hq', hmarks⟩ => ?_, fun hmarks => ⟨q, hq, hmarks⟩⟩
  by_cases heq : q = q'
  · rwa [heq]
  · -- A mark of another slot would be a place of that one.
    exact (hdisjoint.forall hq hq' heq hs (Slot.mem_spans_of_marks hmarks)).elim

/-- **All constants in a program have the values that are wanted of them.** However a program is
compiled: each untyped constant at any place of it is one of its slots or lies in one, and wherever
such a constant is evaluated, it gives its value for the type that is wanted of it. -/
theorem SourceFile.constants_are_as_wanted {f : SourceFile} {entryPoint : String} {c : Compilation}
    (hc : f.compile entryPoint = .ok c) :
    (∀ path e, c.program.at? path = some (.expr e) → e.untyped?.isSome = true →
      ∃ p ∈ c.program.slots entryPoint, ∃ wanted, p.Covers ⟨wanted, e⟩) ∧
    ∀ p ∈ c.program.slots entryPoint, ∀ wanted e, p.Covers ⟨wanted, e⟩ →
      ∃ u, e.untyped? = some u ∧ ∀ (s : Setting) enter env, s.types = c.types →
        s.eval enter env e = Run.ofExcept (u.value wanted) := by
  have hparts := SourceFile.compile_eq_ok hc
  obtain ⟨hspans, -⟩ := SourceFile.nodup_spans hparts.1
  refine ⟨fun path e hpath he => ?_, fun p hp wanted e hcovers => ?_⟩
  · rw [Expr.isSome_untyped?] at he
    exact Program.exists_slot hpath he entryPoint
  · have hsettled := hcovers.settled (Program.settled_of_mem_slots hparts.2 hspans hp)
    have hconstant := hsettled.constant
    rw [← Expr.isSome_untyped?] at hconstant
    obtain ⟨u, hu⟩ := Option.isSome_iff_exists.mp hconstant
    exact ⟨u, hu, fun s enter env htypes => hsettled.eval hu s htypes enter env⟩

/-- Constants for a variable of the package, a parameter, a local variable that is declared, assigned
and added to, an operand before and behind a floating-point number, and a result beside another one; in
between, two that stay integers. -/
theorem SourceFile.constants_are_as_wanted_widened : ∃ c, (SourceFile.ofText 0 "widened"
      ("var g float64 = -(7 / 2)\nfunc half(x float64) float64 \x7b return x - 1 \x7d\n" ++
        "func evaluate() \x7b\nvar y float64 = 1 + 9 % 4\ny = 6\ny += 5 / 2\nn := 3 * 4\n" ++
        "if n > 11 \x7b return 10 / 4 \x7d\nreturn 2 * half(3 / 2)\n\x7d")).compile "evaluate" = .ok c ∧
    (c.program.slots "evaluate").map (fun p => (p.wanted, p.expr.untyped?)) =
      [(some .float, some (.neg (.div (.literal 7) (.literal 2)))), (some .float, some (.literal 1)),
        (some .float, some (.add (.literal 1) (.mod (.literal 9) (.literal 4)))),
        (some .float, some (.literal 6)), (some .float, some (.div (.literal 5) (.literal 2))),
        (none, some (.mul (.literal 3) (.literal 4))), (some .int, some (.literal 11)),
        (some .float, some (.div (.literal 10) (.literal 4))), (some .float, some (.literal 2)),
        (some .float, some (.div (.literal 3) (.literal 2)))] ∧
    ∀ p ∈ c.program.slots "evaluate", ∀ wanted e, p.Covers ⟨wanted, e⟩ →
      ∃ u, e.untyped? = some u ∧ ∀ (s : Setting) enter env, s.types = c.types →
        s.eval enter env e = Run.ofExcept (u.value wanted) := by
  have hslots : ((SourceFile.ofText 0 "widened"
      ("var g float64 = -(7 / 2)\nfunc half(x float64) float64 \x7b return x - 1 \x7d\n" ++
        "func evaluate() \x7b\nvar y float64 = 1 + 9 % 4\ny = 6\ny += 5 / 2\nn := 3 * 4\n" ++
        "if n > 11 \x7b return 10 / 4 \x7d\nreturn 2 * half(3 / 2)\n\x7d")).compile "evaluate").toOption.any
      (fun c => decide ((c.program.slots "evaluate").map (fun p => (p.wanted, p.expr.untyped?)) =
        [(some .float, some (.neg (.div (.literal 7) (.literal 2)))), (some .float, some (.literal 1)),
          (some .float, some (.add (.literal 1) (.mod (.literal 9) (.literal 4)))),
          (some .float, some (.literal 6)), (some .float, some (.div (.literal 5) (.literal 2))),
          (none, some (.mul (.literal 3) (.literal 4))), (some .int, some (.literal 11)),
          (some .float, some (.div (.literal 10) (.literal 4))), (some .float, some (.literal 2)),
          (some .float, some (.div (.literal 3) (.literal 2)))])) = true := by
    decide +kernel
  obtain ⟨c, hc, hslots⟩ := Except.exists_of_any hslots
  exact ⟨c, hc, of_decide_eq_true hslots, (SourceFile.constants_are_as_wanted hc).2⟩

end Formula
