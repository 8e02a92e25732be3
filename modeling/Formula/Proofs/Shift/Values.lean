import Formula.Proofs.Machine.Alike
import Formula.Proofs.Shift.Trees

/-!
# Values of programs further down

A function of a program keeps its body, which stands further down with the program. All other values
are what they were. Operations look at scalars and at the kinds and texts of other values, so they
have the same results and go wrong alike.

## Main definitions

* `Closure.shift`, `Value.shift`: values of a program further down

## Main results

* `operate_shift`, `operateUnary_shift`: operators
* `Builtin.call_shift`, `Native.call_shift`: functions that are not of the program
-/

namespace Formula

variable {k : Shift}

/-- A function further down. -/
def Closure.shift (k : Shift) (c : Closure) : Closure :=
  ⟨c.name, c.params.map (Parameter.shift k), c.body.shift k, c.env⟩

namespace Value

/-- A value of a program further down. -/
def shift (k : Shift) : Value → Value
  | closure c => .closure (c.shift k)
  | v => v

@[simp]
theorem shift_scalar (s : Scalar) : (scalar s).shift k = .scalar s := rfl

@[simp]
theorem shift_eq_scalar {v : Value} {s : Scalar} : v.shift k = .scalar s ↔ v = .scalar s := by
  cases v <;> simp [shift]

/-- Values further down differ in the functions of the program alone. -/
theorem shift_eq_onClosure : shift k = onClosure (Closure.shift k) := by
  funext v
  cases v <;> rfl

/-- What is no function of the program stays what it is. -/
theorem shift_of_plain {v : Value} (h : ∀ c, v ≠ .closure c) : v.shift k = v := by
  cases v with
  | closure c => exact absurd rfl (h c)
  | _ => rfl

theorem map_shift_of_plain {r : Except Fault Value} (h : Plain r) : r.map (shift k) = r := by
  cases r with
  | error f => rfl
  | ok v => exact congrArg Except.ok (shift_of_plain h)

end Value

/-! ## Operators -/

theorem operate_shift (op : BinaryOp) (l r : Value) :
    operate op (l.shift k) (r.shift k) = (operate op l r).map (Value.shift k) := by
  rw [Value.map_shift_of_plain (operate_plain op l r), Value.shift_eq_onClosure, operate_onClosure]

theorem operateUnary_shift (op : UnaryOp) (v : Value) :
    operateUnary op (v.shift k) = (operateUnary op v).map (Value.shift k) := by
  rw [Value.map_shift_of_plain (operateUnary_plain op v)]
  cases v <;> cases op <;> rfl

theorem stepNumber_shift (up : Bool) (v : Value) :
    stepNumber up (v.shift k) = (stepNumber up v).map (Value.shift k) := by
  rw [Value.map_shift_of_plain (stepNumber_plain up v)]
  cases v <;> rfl

theorem zeroOf_shift (type : Option TypeExpr) :
    zeroOf (type.map (TypeExpr.shift k)) = (zeroOf type).map (Value.shift k) := by
  rw [Value.map_shift_of_plain (zeroOf_plain type)]
  cases type with
  | none => rfl
  | some e =>
    simp only [zeroOf, Option.map_some, TypeExpr.resolve_shift]
    cases e.resolve <;> rfl

theorem selectMember_shift (v : Value) (target member : String) :
    selectMember (v.shift k) target member = (selectMember v target member).map (Value.shift k) := by
  rw [Value.map_shift_of_plain (selectMember_plain v target member)]
  cases v <;> rfl

/-! ## Functions that are not of the program -/

theorem Builtin.call_shift (b : Builtin) (args : List Value) :
    b.call (args.map (Value.shift k)) = (b.call args).map (Value.shift k) := by
  rw [Value.map_shift_of_plain (b.call_plain args), Value.shift_eq_onClosure, b.call_onClosure]

theorem Native.call_shift (draw : Nat) (n : Native) (args : List Value) :
    n.call draw (args.map (Value.shift k)) = (n.call draw args).map (Value.shift k) := by
  have hname (c : Closure) : (c.shift k).name = c.name := rfl
  rw [Value.map_shift_of_plain (n.call_plain draw args), Value.shift_eq_onClosure,
    n.call_onClosure hname]

end Formula
