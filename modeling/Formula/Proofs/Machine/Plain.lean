import Formula.Machine.Exec

/-!
# What operations give

The operators, the predeclared functions and the functions of packages give values that are no
functions of the program, and they never fail to find a name.

## Main definitions

* `Value.Plain`: the result of an operation is of this sort

## Main results

* `operate_plain`, `operateUnary_plain`, `stepNumber_plain`: operators
* `Builtin.call_plain`, `Native.call_plain`: functions that are not of the program
-/

namespace Formula

/-- What an operation gives is no function of the program, and it does not fail to find a name. -/
def Value.Plain (r : Except Fault Value) : Prop :=
  match r with
  | .ok v => ∀ c, v ≠ .closure c
  | .error f => ∀ name, f ≠ .undefinedName name

theorem operate_plain (op : BinaryOp) (v w : Value) : Value.Plain (operate op v w) := by
  unfold operate
  split
  · unfold compareValues
    split
    · exact nofun
    · exact nofun
  · split <;> first | (intro _ h; cases h) | (split <;> exact nofun)

theorem operateUnary_plain (op : UnaryOp) (v : Value) : Value.Plain (operateUnary op v) := by
  unfold operateUnary
  split <;> exact nofun

theorem stepNumber_plain (up : Bool) (v : Value) : Value.Plain (stepNumber up v) := by
  unfold stepNumber
  split <;> exact nofun

theorem zeroOf_plain (type : Option TypeExpr) : Value.Plain (zeroOf type) := by
  unfold zeroOf
  split
  · intro c h
    cases h
  · split
    · rename_i t _
      intro c h
      cases t <;> cases h
    · intro name h
      cases h

theorem selectMember_plain (v : Value) (target member : String) :
    Value.Plain (selectMember v target member) := by
  unfold selectMember
  split
  · split <;> exact nofun
  · exact nofun

theorem Builtin.call_plain (b : Builtin) (args : List Value) : Value.Plain (b.call args) := by
  unfold Builtin.call
  split
  · split <;> exact nofun
  · exact nofun

theorem Native.call_plain (draw : Nat) (n : Native) (args : List Value) :
    Value.Plain (n.call draw args) := by
  unfold Native.call
  split <;> first
    | (intro _ h; cases h)
    | (unfold repeated
       split
       · exact nofun
       · split <;> exact nofun)
    | (split <;> exact nofun)

end Formula
