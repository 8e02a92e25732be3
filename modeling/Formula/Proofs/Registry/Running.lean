import Formula.Proofs.Machine.Equations
import Formula.Proofs.Registry.Parsing
import Formula.Registry.Validation

/-!
# What declared inputs come to

An input is declared with its type in the checker, which has nothing to note about it, and with its
value on the machine, in no step at all.

## Main definitions

* `Variable.startValue`: what an input holds before values from outside are put in
* `Expr.computedSpans`: where an expression made of constants computes

## Main results

* `checkVars_of_declares`: the checker declares the inputs with their types
* `initVars_of_declares`: the machine gives them their values
-/

namespace Formula

open Parse

/-- What an input holds before values from outside are put in: its value where that has a source
text. -/
def Variable.startValue (v : Variable) : Scalar :=
  if v.initialValue.literal?.isSome then v.initialValue else v.type.zero

/-- Declarations that pass validation have no wrong values. -/
theorem Registry.findSome?_of_validate {r : Registry} (h : r.validate = .ok ()) :
    r.vars.findSome? Variable.defaultError? = none := by
  unfold validate at h
  repeat' split at h
  all_goals first | cases h; done | assumption

/-- Values that pass validation have the type that is declared. -/
theorem Registry.type_initialValue {r : Registry} (h : r.validate = .ok ()) {v : Variable}
    (hv : v ∈ r.vars) : v.initialValue.type = v.type := by
  have herror := List.findSome?_eq_none_iff.mp (findSome?_of_validate h) v hv
  unfold Variable.defaultError? at herror
  unfold Variable.initialValue
  cases hdefault : v.default with
  | none => exact Scalar.type_zero _
  | some value =>
    simp only [hdefault] at herror
    split at herror
    · assumption
    · cases herror

/-! ## The checker -/

theorem resolve_type (t : ScalarType) (s : Span) :
    (TypeExpr.named t.name s).resolve = .ok (.ofScalar t) := by
  cases t <;> rfl

theorem initialisedType_of_isLiteral {e : Expr} {v : Scalar} (h : IsLiteral e v) (s : Span)
    (scopes : Scoped Ty) (n : Notes) :
    initialisedType (some (.named v.type.name s)) e (checkExpr scopes e) n =
      .ok (.ofScalar v.type, n) := by
  cases h with
  | constant v s => cases v <;> rfl
  | _ => rfl

/-- The scopes in which the inputs are declared. -/
def declareVars (vars : List Variable) (scopes : Scoped Ty) : Scoped Ty :=
  vars.foldl (fun scopes v => scopes.declare v.name (.ofScalar v.type)) scopes

/-- **The checker declares the inputs with their types**, and notes nothing. -/
theorem checkVars_of_declares {vars : List Variable} {ds : List VarDecl}
    (h : List.Forall₂ (fun v d => VarDecl.Declares d v) vars ds)
    (htypes : ∀ v ∈ vars, v.initialValue.type = v.type) (more : List VarDecl) (scopes : Scoped Ty)
    (n : Notes) :
    checkVars scopes (ds ++ more) n = checkVars (declareVars vars scopes) more n := by
  induction h generalizing scopes with
  | nil => rfl
  | @cons v d vars ds hd _ ih =>
    obtain ⟨hname, ⟨s, htype⟩, hvalue⟩ := hd
    have ht := htypes v List.mem_cons_self
    have hstep : checkVars scopes (d :: ds ++ more) n =
        checkVars (scopes.declare v.name (.ofScalar v.type)) (ds ++ more) n := by
      rcases hvalue with ⟨hnone, -⟩ | ⟨e, hsome, hliteral, -⟩
      · rw [List.cons_append, checkVars, hname, htype, hnone]
        simp only [uninitialisedType, resolve_type]
        rfl
      · have hinit := initialisedType_of_isLiteral hliteral s scopes n
        rw [ht] at hinit
        rw [List.cons_append, checkVars, hname, htype, hsome]
        simp only [bind, StateT.bind, hinit, Except.bind]
    rw [hstep, ih fun w hw => htypes w (List.mem_cons_of_mem v hw)]
    rfl

/-! ## The machine -/

/-- Where an expression that is made of constants computes. -/
def Expr.computedSpans : Expr → List Span
  | .literal _ s => [s]
  | .unary _ e _ => e.computedSpans
  | .binary _ l r s => l.computedSpans ++ r.computedSpans ++ [s]
  | _ => []

theorem Setting.computed_of_not_isFloat (s : Setting) {span : Span}
    (h : s.types.isFloat span = false) (v : Scalar) : s.computed (.scalar v) span = .scalar v := by
  cases v <;> simp [computed, h]

/-- **A written value is computed as it is**, where no integer becomes a floating-point number. -/
theorem Setting.eval_of_isLiteral (s : Setting) {e : Expr} {v : Scalar} (h : IsLiteral e v)
    (hfloats : ∀ span ∈ e.computedSpans, s.types.isFloat span = false) (enter : Entry) (env : Env)
    (m : Machine) : s.eval enter env e m = .ok (.scalar v) m := by
  have hliteral : ∀ w span, s.types.isFloat span = false →
      s.eval enter env (.literal w span) m = .ok (.scalar w) m := by
    intro w span hspan
    rw [eval, s.computed_of_not_isFloat hspan]
    rfl
  have hneg : ∀ w w' span t, s.types.isFloat span = false → operateUnary .neg (.scalar w) = .ok w' →
      s.eval enter env (.unary .neg (.literal w span) t) m = .ok w' m := by
    intro w w' span t hspan hop
    rw [eval, Run.bind_of_ok (hliteral w span hspan), hop]
    rfl
  cases h with
  | constant v span => exact hliteral v span (hfloats span (by simp [Expr.computedSpans]))
  | negatedInt n t u => exact hneg _ _ t u (hfloats t (by simp [Expr.computedSpans])) rfl
  | negatedFloat x t u => exact hneg _ _ t u (hfloats t (by simp [Expr.computedSpans])) rfl
  | least t u w z =>
    have hleft := hneg (.int Int64.maxValue) (.int (-Int64.maxValue)) t u
      (hfloats t (by simp [Expr.computedSpans])) rfl
    have hright := hliteral (.int 1) w (hfloats w (by simp [Expr.computedSpans]))
    have hz := hfloats z (by simp [Expr.computedSpans])
    rw [s.eval_binary enter env (by decide) (by decide), Run.bind_of_ok hleft,
      Run.bind_of_ok hright]
    change EStateM.Result.ok (s.computed (.scalar (.int Int64.minValue)) z) m = _
    rw [s.computed_of_not_isFloat hz]

/-- What the machine holds when the inputs have their values. -/
def setVars (vars : List Variable) (m : Machine) : Machine :=
  vars.foldl (fun m v => { m with globals := m.globals.set v.name (.scalar v.startValue) }) m

/-- **The machine gives the inputs their values** and takes no step for it. -/
theorem Setting.initVars_of_declares (s : Setting) {vars : List Variable} {ds : List VarDecl}
    (h : List.Forall₂ (fun v d => VarDecl.Declares d v) vars ds)
    (hfloats : ∀ d ∈ ds, ∀ e, d.value = some e → ∀ span ∈ e.computedSpans,
      s.types.isFloat span = false) (more : List VarDecl) (m : Machine) :
    s.initVars (ds ++ more) m = s.initVars more (setVars vars m) := by
  induction h generalizing m with
  | nil => rfl
  | @cons v d vars ds hd _ ih =>
    obtain ⟨hname, ⟨t, htype⟩, hvalue⟩ := hd
    have hstep : s.initVars (d :: ds ++ more) m = s.initVars (ds ++ more)
        { m with globals := m.globals.set v.name (.scalar v.startValue) } := by
      rcases hvalue with ⟨hnone, hunset⟩ | ⟨e, hsome, hliteral, hset⟩
      · have hzero : zeroOf (some (.named v.type.name t)) = .ok (.scalar v.type.zero) := by
          cases v.type <;> rfl
        rw [List.cons_append, initVars, hname, htype, hnone]
        simp only [hzero, Variable.startValue, hunset, Option.isSome_none, Bool.false_eq_true,
          if_false]
        rfl
      · have heval := s.eval_of_isLiteral hliteral (hfloats d List.mem_cons_self e hsome) s.enterTop
          .empty m
        rw [List.cons_append, initVars, hname, hsome]
        simp only [Variable.startValue, hset, if_true]
        rw [Run.bind_of_ok heval]
        rfl
    rw [hstep, ih fun d' hd' => hfloats d' (List.mem_cons_of_mem d hd')]
    rfl

theorem steps_setVars (vars : List Variable) (m : Machine) : (setVars vars m).steps = m.steps := by
  induction vars generalizing m with
  | nil => rfl
  | cons v vars ih => exact ih _

theorem get?_setVars_of_notMem {vars : List Variable} {name : String}
    (h : ∀ v ∈ vars, v.name ≠ name) (m : Machine) :
    (setVars vars m).globals.get? name = m.globals.get? name := by
  induction vars generalizing m with
  | nil => rfl
  | cons v vars ih =>
    have hrest := ih (fun w hw => h w (List.mem_cons_of_mem v hw))
      { m with globals := m.globals.set v.name (.scalar v.startValue) }
    rw [Bindings.get?_set, if_neg (h v List.mem_cons_self)] at hrest
    exact hrest

/-- An input is found with its value. -/
theorem get?_setVars {vars : List Variable} (hnodup : (vars.map Variable.name).Nodup) {v : Variable}
    (hv : v ∈ vars) (m : Machine) :
    (setVars vars m).globals.get? v.name = some (.scalar v.startValue) := by
  induction vars generalizing m with
  | nil => cases hv
  | cons w vars ih =>
    obtain ⟨hnot, hnodup⟩ := List.nodup_cons.mp hnodup
    rcases List.mem_cons.mp hv with rfl | hv
    · have hne : ∀ u ∈ vars, u.name ≠ v.name := fun u hu heq =>
        hnot (heq ▸ List.mem_map_of_mem hu)
      have hrest := get?_setVars_of_notMem hne
        { m with globals := m.globals.set v.name (.scalar v.startValue) }
      rw [Bindings.get?_set, if_pos rfl] at hrest
      exact hrest
    · exact ih hnodup hv _

namespace Setting

/-- A step that the budget allows and that comes before the first look at the clock. -/
theorem tick_eq (s : Setting) {m : Machine} (hsteps : ∀ n, s.config.maxSteps = some n → m.steps + 1 ≤ n)
    (hclock : (m.steps + 1) % clockInterval ≠ 0) :
    s.tick m = .ok () { m with steps := m.steps + 1 } := by
  have hlate : s.isLate (m.steps + 1) = false := by
    unfold isLate
    cases s.config.timeout with
    | none => rfl
    | some limit => simp [hclock]
  unfold tick
  cases hmax : s.config.maxSteps with
  | none => simp [hlate]
  | some n =>
    have := hsteps n hmax
    simp [hlate, Nat.not_lt.mpr this]

/-- A run calls the entry function when variables and values from outside are set. -/
theorem execute_of_ready (s : Setting) {p : Program} {values : List (String × Scalar)} {m m₁ : Machine}
    (hinit : s.initVars p.vars ⟨#[], p.initialGlobals, 0, 0⟩ = .ok () m)
    (hvalues : (values.forM fun (name, v) => Run.setGlobal name (.scalar v)) m = .ok () m₁) :
    s.execute p values {} = s.callEntry m₁ := by
  change (s.initVars p.vars >>= fun _ =>
    (values.forM fun (name, v) => Run.setGlobal name (.scalar v)) >>= fun _ => s.callEntry)
      ⟨#[], p.initialGlobals, 0, 0⟩ = _
  rw [Run.bind_of_ok hinit, Run.bind_of_ok hvalues]

end Setting

end Formula
