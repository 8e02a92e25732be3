import Formula.Typing.Constant
import Formula.Proofs.Program.Spans
import Formula.Proofs.Typing.Rules

/-!
# The types of constants

An untyped constant is an integer as long as nothing in it is marked. If just those places are marked
that become floating-point numbers, it is such a number.

## Main definitions

* `Expr.Constant`: untyped constants, with the places that become floating-point numbers

## Main results

* `Expr.Constant.typed_int`, `Expr.Constant.typed_float`: the two types of a constant
-/

namespace Formula

/-- The untyped constants, with the places that become floating-point numbers where such a number is
wanted. -/
inductive Expr.Constant : Expr → List Span → Prop where
  | int {n s} : Expr.Constant (.literal (.int n) s) [s]
  | neg {operand s spans} (h : Expr.Constant operand spans) :
    Expr.Constant (.unary .neg operand s) spans
  | sum {op left right s ls rs} (hop : op = .add ∨ op = .sub ∨ op = .mul)
    (hl : Expr.Constant left ls) (hr : Expr.Constant right rs) :
    Expr.Constant (.binary op left right s) (ls ++ rs)
  | quotient {op left right s ls rs} (hop : op = .div ∨ op = .mod)
    (hl : Expr.Constant left ls) (hr : Expr.Constant right rs) :
    Expr.Constant (.binary op left right s) [s]

namespace Expr

/-- The checker's untyped constants are those. -/
theorem constant_of_constants? {e : Expr} {spans : List Span} (h : e.constants? = some spans) :
    e.Constant spans := by
  fun_induction Expr.constants? e generalizing spans with
  | case1 => cases h; exact .int
  | case2 operand _ ih => exact .neg (ih h)
  | case3 left right _ l r hr hl ihl ihr => cases h; exact .sum (.inl rfl) (ihl hl) (ihr hr)
  | case5 left right _ l r hr hl ihl ihr => cases h; exact .sum (.inr (.inl rfl)) (ihl hl) (ihr hr)
  | case7 left right _ l r hr hl ihl ihr => cases h; exact .sum (.inr (.inr rfl)) (ihl hl) (ihr hr)
  | case9 left right _ l r hr hl ihl ihr => cases h; exact .quotient (.inl rfl) (ihl hl) (ihr hr)
  | case11 left right _ l r hr hl ihl ihr => cases h; exact .quotient (.inr rfl) (ihl hl) (ihr hr)
  | case4 | case6 | case8 | case10 | case12 | case13 => cases h

/-- The type of what is computed where nothing is marked. -/
theorem computedAt_of_notMem {floats : List Span} {span : Span} (h : span ∉ floats) (t : Ty) :
    t.computedAt floats span = t :=
  if_neg fun hs => h hs.2

theorem computedAt_of_mem {floats : List Span} {span : Span} (h : span ∈ floats) :
    Ty.int.computedAt floats span = .float :=
  if_pos ⟨rfl, h⟩

theorem computedAt_float (floats : List Span) (span : Span) :
    Ty.float.computedAt floats span = .float :=
  if_neg fun hs => nomatch hs.1

namespace Constant

variable {e : Expr} {spans floats : List Span} {scopes : Scoped Ty}

theorem mem_spans (h : e.Constant spans) : ∀ s ∈ spans, s ∈ e.spans := by
  induction h with
  | int => exact fun _ => id
  | neg _ ih => exact fun s hs => List.mem_cons_of_mem _ (ih s hs)
  | sum _ _ _ ihl ihr =>
    intro s hs
    refine List.mem_cons_of_mem _ (List.mem_append.mpr ?_)
    exact (List.mem_append.mp hs).imp (ihl s) (ihr s)
  | quotient =>
    intro s hs
    exact List.mem_cons.mpr (.inl (List.mem_singleton.mp hs))

/-- A constant of which nothing is marked is an integer. -/
theorem typed_int (h : e.Constant spans) (hfloats : ∀ s ∈ e.spans, s ∉ floats) :
    e.Typed floats scopes .int := by
  induction h with
  | @int n s =>
    have : Expr.Typed floats scopes (.literal (.int n) s) _ := .literal
    rwa [computedAt_of_notMem (hfloats s List.mem_cons_self)] at this
  | neg _ ih => exact .unary (ih fun s hs => hfloats s (List.mem_cons_of_mem _ hs)) rfl
  | @sum op left right s ls rs hop _ _ ihl ihr =>
    have hl := ihl fun s hs => hfloats s (List.mem_cons_of_mem _ (List.mem_append_left _ hs))
    have hr := ihr fun s hs => hfloats s (List.mem_cons_of_mem _ (List.mem_append_right _ hs))
    rw [← computedAt_of_notMem (hfloats s List.mem_cons_self) .int]
    refine .binary hl hr ?_
    rcases hop with rfl | rfl | rfl <;> rfl
  | @quotient op left right s ls rs hop _ _ ihl ihr =>
    have hl := ihl fun s hs => hfloats s (List.mem_cons_of_mem _ (List.mem_append_left _ hs))
    have hr := ihr fun s hs => hfloats s (List.mem_cons_of_mem _ (List.mem_append_right _ hs))
    rw [← computedAt_of_notMem (hfloats s List.mem_cons_self) .int]
    refine .binary hl hr ?_
    rcases hop with rfl | rfl <;> rfl

/-- **A constant of which just those places are marked that become floating-point numbers is such a
number.** -/
theorem typed_float (h : e.Constant spans) (hnodup : e.spans.Nodup)
    (hfloats : ∀ s ∈ e.spans, s ∈ floats ↔ s ∈ spans) : e.Typed floats scopes .float := by
  induction h with
  | @int n s =>
    have : Expr.Typed floats scopes (.literal (.int n) s) _ := .literal
    rwa [show Ty.ofScalar (Scalar.int n).type = .int from rfl,
      computedAt_of_mem ((hfloats s List.mem_cons_self).mpr List.mem_cons_self)] at this
  | neg _ ih =>
    exact .unary (ih (List.nodup_cons.mp hnodup).2 fun s hs => hfloats s (List.mem_cons_of_mem _ hs))
      rfl
  | @sum op left right s ls rs hop hl hr ihl ihr =>
    obtain ⟨-, hnodup⟩ := List.nodup_cons.mp hnodup
    obtain ⟨hnl, hnr, hdisjoint⟩ := List.nodup_append.mp hnodup
    -- Each operand has its own marks, as its spans are not those of the other one.
    have htl := ihl hnl fun u hu => by
      rw [hfloats u (List.mem_cons_of_mem _ (List.mem_append_left _ hu)), List.mem_append]
      exact ⟨fun h => h.resolve_right fun h => hdisjoint u hu u (hr.mem_spans u h) rfl, .inl⟩
    have htr := ihr hnr fun u hu => by
      rw [hfloats u (List.mem_cons_of_mem _ (List.mem_append_right _ hu)), List.mem_append]
      exact ⟨fun h => h.resolve_left fun h => hdisjoint u (hl.mem_spans u h) u hu rfl, .inr⟩
    rw [← computedAt_float floats s]
    refine .binary htl htr ?_
    rcases hop with rfl | rfl | rfl <;> rfl
  | @quotient op left right s ls rs hop hl hr ihl ihr =>
    -- The operands are computed as integers, and their quotient becomes a floating-point number.
    obtain ⟨hs, -⟩ := List.nodup_cons.mp hnodup
    have hints : ∀ u ∈ left.spans ++ right.spans, u ∉ floats := by
      intro u hu hfloat
      have := List.mem_singleton.mp ((hfloats u (List.mem_cons_of_mem _ hu)).mp hfloat)
      exact hs (this ▸ hu)
    have hl : left.Typed floats scopes .int :=
      hl.typed_int fun u hu => hints u (List.mem_append_left _ hu)
    have hr : right.Typed floats scopes .int :=
      hr.typed_int fun u hu => hints u (List.mem_append_right _ hu)
    rw [← computedAt_of_mem ((hfloats s List.mem_cons_self).mpr List.mem_cons_self)]
    refine .binary hl hr ?_
    rcases hop with rfl | rfl <;> rfl

end Constant

end Expr

end Formula
