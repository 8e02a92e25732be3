import Formula.Program

/-!
# Untyped constants

An expression made of integer constants has no type of its own: where a floating-point number is
wanted it becomes one. What becomes a floating-point number are its constants, except that a
division or remainder is computed with integers and its result converted.

## Main definitions

* `Expr.constants?`: the places that become floating-point numbers.
-/

namespace Formula

/-- The places within an untyped constant that become floating-point numbers where such a number is
wanted; `none` for any other expression. -/
def Expr.constants? : Expr → Option (List Span)
  | .literal (.int _) span => some [span]
  | .unary .neg operand _ => operand.constants?
  | .binary .add left right _ | .binary .sub left right _ | .binary .mul left right _ =>
    match left.constants?, right.constants? with
    | some l, some r => some (l ++ r)
    | _, _ => none
  | .binary .div left right span | .binary .mod left right span =>
    match left.constants?, right.constants? with
    | some _, some _ => some [span]
    | _, _ => none
  | _ => none

/-- Whether an expression is an untyped constant. -/
def Expr.isConstant (e : Expr) : Bool :=
  e.constants?.isSome

end Formula
