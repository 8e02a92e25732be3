import Formula.Machine.Exec
import Formula.Proofs.Typing.Values

/-!
# Operations on values of the right types

An operation that the checker lets pass gives a value of the type that the checker finds for it, or
fails for a reason that is in the values and not in their types.

## Main definitions

* `Fault.ofValues`: faults that types do not exclude
* `Value.Results`: an operation gives a value of a type, or fails for such a reason

## Main results

* `operate_results`, `operateUnary_results`, `stepNumber_results`: operators
* `Builtin.call_results`, `Native.call_results`: predeclared functions and those of packages
-/

namespace Formula

/-- Whether a fault is in the values that an operation is given, and not in their types. -/
def Fault.ofValues : Fault → Bool
  | divideByZero | callNil | negativeRepeat | longText .repeat | emptyRange .intn
  | emptyRange .randomInt => true
  | _ => false

/-- **An operation gives a value of a type**, or fails for a reason that is in the values. -/
def Value.Results (H : StoreTy) (r : Except Fault Value) (t : Ty) : Prop :=
  match r with
  | .ok v => v.HasType H t
  | .error f => f.ofValues = true

open Value

variable {H : StoreTy}

/-! ## Operators -/

/-- Values of one type that may be compared have an order, or are not-a-number. -/
theorem compareValues_results {op : BinaryOp} {t : Ty} {v w : Value}
    (hcomparison : op.isComparison = true) (hop : op.isDefinedOn t = true) (hv : v.HasType H t)
    (hw : w.HasType H t) : Results H (compareValues op v w) .bool := by
  -- the types with comparisons are those of values with an order
  have horder : ∃ order, valueOrder? op v w = some order := by
    cases t with
    | int =>
      obtain ⟨m, rfl⟩ := hv.int
      obtain ⟨n, rfl⟩ := hw.int
      exact ⟨_, rfl⟩
    | float =>
      obtain ⟨x, rfl⟩ := hv.float
      obtain ⟨y, rfl⟩ := hw.float
      exact ⟨_, rfl⟩
    | string =>
      obtain ⟨a, rfl⟩ := hv.string
      obtain ⟨b, rfl⟩ := hw.string
      exact ⟨_, rfl⟩
    | bool =>
      obtain ⟨a, rfl⟩ := hv.bool
      obtain ⟨b, rfl⟩ := hw.bool
      cases op <;> first | exact ⟨_, rfl⟩ | (cases hop; done) | cases hcomparison
    | void | function | package | builtin | any =>
      cases op <;> cases hop
  obtain ⟨order, horder⟩ := horder
  rw [compareValues, horder]
  exact .scalar (.bool _)

theorem operate_results {op : BinaryOp} {l r t : Ty} {span : Span} {v w : Value}
    (hop : operationType op l r span = .ok t) (hv : v.HasType H l) (hw : w.HasType H r) :
    Results H (operate op v w) t := by
  obtain ⟨rfl, hdefined, rfl⟩ := operationType_eq_ok hop
  by_cases hcomparison : op.isComparison = true
  · unfold operate
    rw [if_pos hcomparison, if_pos hcomparison]
    exact compareValues_results hcomparison hdefined hv hw
  rw [if_neg hcomparison]
  cases l with
  | int =>
    obtain ⟨m, rfl⟩ := hv.int
    obtain ⟨n, rfl⟩ := hw.int
    -- Only a division or remainder can fail.
    have hquotient (q : Int64) : Results H (if n = 0 then .error .divideByZero else .ok (.int q))
        .int := by
      split
      · rfl
      · exact .scalar (.int q)
    cases op <;> first
      | cases hdefined; done
      | exact absurd rfl hcomparison
      | exact hquotient _
      | exact .scalar (.int _)
  | float =>
    obtain ⟨x, rfl⟩ := hv.float
    obtain ⟨y, rfl⟩ := hw.float
    cases op <;> first
      | cases hdefined; done
      | exact absurd rfl hcomparison
      | exact .scalar (.float _)
  | bool =>
    obtain ⟨a, rfl⟩ := hv.bool
    obtain ⟨b, rfl⟩ := hw.bool
    cases op <;> first
      | cases hdefined; done
      | exact absurd rfl hcomparison
      | exact .scalar (.bool _)
  | string =>
    obtain ⟨a, rfl⟩ := hv.string
    obtain ⟨b, rfl⟩ := hw.string
    cases op <;> first
      | cases hdefined; done
      | exact absurd rfl hcomparison
      | exact .scalar (.string _)
  | void | function | package | builtin | any => cases op <;> cases hdefined

theorem operateUnary_results {op : UnaryOp} {t u : Ty} {span : Span} {v : Value}
    (hop : unaryType op t span = .ok u) (hv : v.HasType H t) : Results H (operateUnary op v) u := by
  cases op <;> cases t <;> cases hop
  · obtain ⟨n, rfl⟩ := hv.int
    exact .scalar (.int _)
  · obtain ⟨x, rfl⟩ := hv.float
    exact .scalar (.float _)
  · obtain ⟨b, rfl⟩ := hv.bool
    exact .scalar (.bool _)

theorem stepNumber_results {up : Bool} {t : Ty} {v : Value} (ht : t.isNumeric = true)
    (hv : v.HasType H t) : Results H (stepNumber up v) t := by
  cases t <;> cases ht
  · obtain ⟨n, rfl⟩ := hv.int
    exact .scalar (.int _)
  · obtain ⟨x, rfl⟩ := hv.float
    exact .scalar (.float _)

/-- What is computed at a place where integers become floating-point numbers. -/
theorem Value.HasType.computed {s : Setting} (hfloats : H.floats = s.types.floats) {v : Value}
    {t : Ty} (hv : v.HasType H t) (span : Span) :
    (s.computed v span).HasType H (t.computedAt H.floats span) := by
  have hfloat : s.types.isFloat span = true ↔ span ∈ H.floats := by
    rw [TypeInfo.isFloat, ← hfloats, List.contains_iff_mem]
  -- only integers are converted, and only where a place is marked
  by_cases ht : t = .int
  · subst ht
    obtain ⟨n, rfl⟩ := hv.int
    by_cases hspan : span ∈ H.floats
    · rw [Ty.computedAt, if_pos ⟨rfl, hspan⟩, Setting.computed, if_pos (hfloat.mpr hspan)]
      exact .scalar (.float _)
    · rw [Ty.computedAt, if_neg fun h => hspan h.2, Setting.computed,
        if_neg fun h => hspan (hfloat.mp h)]
      exact .scalar (.int n)
  · rw [Ty.computedAt, if_neg fun h => ht h.1]
    unfold Setting.computed
    split
    · cases hv
      exact absurd rfl ht
    · exact hv

/-! ## Predeclared functions and functions of packages -/

theorem Builtin.call_results {b : Builtin} {t u : Ty} {span : Span} {v : Value}
    (hresult : builtinResult b t span = .ok u) (hv : v.HasType H t) :
    Results H (b.call [v]) u := by
  cases t with
  | int =>
    obtain ⟨n, rfl⟩ := hv.int
    cases b <;> cases hresult <;> first | exact .scalar (.int _) | exact .scalar (.float _)
  | float =>
    obtain ⟨x, rfl⟩ := hv.float
    cases b <;> cases hresult <;> first | exact .scalar (.int _) | exact .scalar (.float _)
  | string =>
    obtain ⟨a, rfl⟩ := hv.string
    cases b <;> cases hresult <;> first | exact .scalar (.string _) | exact .scalar (.int _)
  | bool | void | function | package | builtin | any => cases b <;> cases hresult

/-- The first of some arguments has the type of the first parameter. -/
theorem Value.AllHaveTypes.of_cons {variadic : Option Ty} {p : Ty} {ps : List Ty}
    {vs : List Value} (hp : p.isProper = true) (h : AllHaveTypes H variadic (p :: ps) vs) :
    ∃ v rest, vs = v :: rest ∧ v.HasType H p ∧ AllHaveTypes H variadic ps rest := by
  cases h with
  | param hv haccepts hvs =>
    obtain rfl := Ty.eq_of_accepts hp haccepts
    exact ⟨_, _, rfl, hv, hvs⟩

/-- **A function of a package gives a result of its type**, or fails for a reason that is in its
arguments. -/
theorem Native.call_results {n : Native} {params : List Ty} {variadic : Option Ty} {result : Ty}
    {args : List Value} (draw : Nat) (hn : n.signature = .function params variadic result)
    (hargs : AllHaveTypes H variadic params args) : Results H (n.call draw args) result := by
  cases n <;> cases hn
  case sprintf =>
    obtain ⟨v, rest, rfl, hv, -⟩ := hargs.of_cons rfl
    obtain ⟨a, rfl⟩ := hv.string
    exact .scalar (.string _)
  case sprint | sprintln => exact .scalar (.string _)
  case toUpper | toLower | trimSpace =>
    obtain ⟨v, rest, rfl, hv, -⟩ := hargs.of_cons rfl
    obtain ⟨a, rfl⟩ := hv.string
    exact .scalar (.string _)
  case contains | hasPrefix | hasSuffix =>
    obtain ⟨v, rest, rfl, hv, hargs⟩ := hargs.of_cons rfl
    obtain ⟨w, rest, rfl, hw, -⟩ := hargs.of_cons rfl
    obtain ⟨a, rfl⟩ := hv.string
    obtain ⟨b, rfl⟩ := hw.string
    exact .scalar (.bool _)
  case «repeat» =>
    obtain ⟨v, rest, rfl, hv, hargs⟩ := hargs.of_cons rfl
    obtain ⟨w, rest, rfl, hw, -⟩ := hargs.of_cons rfl
    obtain ⟨a, rfl⟩ := hv.string
    obtain ⟨count, rfl⟩ := hw.int
    show Results H (repeated a count) .string
    unfold repeated
    split
    · rfl
    split
    · exact .scalar (.string _)
    · rfl
  case replaceAll =>
    obtain ⟨v, rest, rfl, hv, hargs⟩ := hargs.of_cons rfl
    obtain ⟨w, rest, rfl, hw, hargs⟩ := hargs.of_cons rfl
    obtain ⟨x, rest, rfl, hx, -⟩ := hargs.of_cons rfl
    obtain ⟨a, rfl⟩ := hv.string
    obtain ⟨b, rfl⟩ := hw.string
    obtain ⟨c, rfl⟩ := hx.string
    exact .scalar (.string _)
  case sqrt | abs | floor | ceil | round =>
    obtain ⟨v, rest, rfl, hv, -⟩ := hargs.of_cons rfl
    obtain ⟨x, rfl⟩ := hv.float
    exact .scalar (.float _)
  case pow | max | min =>
    obtain ⟨v, rest, rfl, hv, hargs⟩ := hargs.of_cons rfl
    obtain ⟨w, rest, rfl, hw, -⟩ := hargs.of_cons rfl
    obtain ⟨x, rfl⟩ := hv.float
    obtain ⟨y, rfl⟩ := hw.float
    exact .scalar (.float _)
  case intn =>
    obtain ⟨v, rest, rfl, hv, -⟩ := hargs.of_cons rfl
    obtain ⟨high, rfl⟩ := hv.int
    show Results H (if high ≤ 0 then .error (.emptyRange .intn) else .ok (.int _)) .int
    split
    · rfl
    · exact .scalar (.int _)
  case randomInt =>
    obtain ⟨v, rest, rfl, hv, hargs⟩ := hargs.of_cons rfl
    obtain ⟨w, rest, rfl, hw, -⟩ := hargs.of_cons rfl
    obtain ⟨low, rfl⟩ := hv.int
    obtain ⟨high, rfl⟩ := hw.int
    show Results H (if high ≤ low then .error (.emptyRange .randomInt) else .ok (.int _)) .int
    split
    · rfl
    · exact .scalar (.int _)
  case float64 => exact .scalar (.float _)

end Formula
