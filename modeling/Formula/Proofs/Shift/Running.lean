import Formula.Proofs.Machine.Equations
import Formula.Proofs.Program.Induction
import Formula.Proofs.Shift.Values

/-!
# Running programs further down

Spans play a part in a run only where they say that an integer becomes a floating-point number. As
the types of a program further down say it of the same places further down, a run of it does what a run
of the program does, on values that stand further down with the program.

## Main definitions

* `Machine.Below`: a machine whose values stand further down
* `Run.Shifts`: a computation does further down what another one does
* `Setting.Below`: a setting that differs in the places of the types alone

## Main results

* `Run.Shifts.bind`, `Run.Shifts.iterate`: sequences and loops
* `Setting.Below.runs`: expressions and statements
* `Setting.Below.enter`, `Setting.Below.apply`: calls
-/

namespace Formula

variable {k : Shift} {α β γ δ : Type} {w : α → β} {w' : γ → δ}

/-! ## Machines -/

/-- **A machine whose values stand further down.** Package-level names may come in another order. -/
structure Machine.Below (k : Shift) (m m' : Machine) : Prop where
  cells : m'.cells = m.cells.map (Value.shift k)
  globals : ∀ name, m'.globals.get? name = (m.globals.get? name).map (Value.shift k)
  steps : m'.steps = m.steps
  drawn : m'.drawn = m.drawn

/-- How a statement ends, further down. -/
def Flow.shift (k : Shift) : Flow → Flow
  | .returns v => .returns (v.shift k)
  | flow => flow

theorem Flow.leaves?_shift (flow : Flow) :
    (flow.shift k).leaves? = flow.leaves?.map (Flow.shift k) := by
  cases flow <;> rfl

namespace Run

/-- What is left of two computations of which the second one stands further down. -/
def EndsBelow (k : Shift) (w : α → β) :
    EStateM.Result Stop Machine α → EStateM.Result Stop Machine β → Prop
  | .ok a m, .ok b m' => b = w a ∧ m.Below k m'
  | .error e _, .error e' _ => e' = e
  | _, _ => False

/-- **A computation does further down what another one does.** -/
def Shifts (k : Shift) (w : α → β) (x : Run α) (y : Run β) : Prop :=
  ∀ m m', m.Below k m' → EndsBelow k w (x m) (y m')

namespace Shifts

theorem pure {a : α} {b : β} (h : b = w a) : Shifts k w (pure a) (pure b) :=
  fun _ _ hm => ⟨h, hm⟩

theorem fail (e : RunError) : Shifts k w (fail e) (fail e) :=
  fun _ _ _ => rfl

theorem bind {x : Run α} {y : Run β} {f : α → Run γ} {g : β → Run δ} (h : Shifts k w x y)
    (hf : ∀ a, Shifts k w' (f a) (g (w a))) : Shifts k w' (x >>= f) (y >>= g) := by
  intro m m' hm
  have hxy := h m m' hm
  simp only [Bind.bind, EStateM.bind]
  cases hx : x m with
  | error e m₁ =>
    cases hy : y m' with
    | error e' m₁' =>
      rw [hx, hy] at hxy
      exact hxy
    | ok b m₁' =>
      rw [hx, hy] at hxy
      exact hxy.elim
  | ok a m₁ =>
    cases hy : y m' with
    | error e' m₁' =>
      rw [hx, hy] at hxy
      exact hxy.elim
    | ok b m₁' =>
      rw [hx, hy] at hxy
      obtain ⟨rfl, hm₁⟩ := hxy
      exact hf a m₁ m₁' hm₁

theorem map {x : Run α} {y : Run β} (h : Shifts k w x y) {f : α → γ} {g : β → δ}
    (hfg : ∀ a, g (w a) = w' (f a)) : Shifts k w' (f <$> x) (g <$> y) := by
  rw [map_eq_pure_bind, map_eq_pure_bind]
  exact h.bind fun a => .pure (hfg a)

theorem ofExcept {r : Except Fault α} {r' : Except Fault β} (h : r' = r.map w) :
    Shifts k w (ofExcept r) (ofExcept r') := by
  rw [h]
  cases r with
  | ok a => exact .pure rfl
  | error f => exact .fail _

theorem ite {c : Prop} [Decidable c] {x x' : Run α} {y y' : Run β} (h : Shifts k w x y)
    (h' : Shifts k w x' y') :
    Shifts k w (if c then x else x') (if c then y else y') := by
  split
  · exact h
  · exact h'

theorem condition {x y : Run Value} (h : Shifts k (Value.shift k) x y) :
    Shifts k id (Run.condition x) (Run.condition y) := by
  refine h.bind fun v => ?_
  rcases v with (_ | _ | _ | b) | _ | c | _ | _ | _
  case scalar.bool => exact .pure rfl
  all_goals exact .fail _

theorem alloc (v : Value) : Shifts k id (Run.alloc v) (Run.alloc (v.shift k)) := by
  intro m m' hm
  refine ⟨by rw [hm.cells, Array.size_map]; rfl, ?_, hm.globals, hm.steps, hm.drawn⟩
  rw [hm.cells, Array.map_push]

theorem declare (env : Env) (name : String) (v : Value) :
    Shifts k id (Run.declare env name v) (Run.declare env name (v.shift k)) :=
  (alloc v).bind fun _ => .pure rfl

theorem lookup (env : Env) (name : String) :
    Shifts k (Value.shift k) (Run.lookup env name) (Run.lookup env name) := by
  intro m m' hm
  simp only [Run.lookup]
  cases env.find? name with
  | some a =>
    refine ⟨?_, hm⟩
    rw [hm.cells, Array.getD_eq_getD_getElem?, Array.getD_eq_getD_getElem?, Array.getElem?_map]
    cases m.cells[a]? <;> rfl
  | none =>
    simp only [hm.globals]
    cases m.globals.get? name with
    | some v => exact ⟨rfl, hm⟩
    | none => rfl

theorem setGlobal (name : String) (v : Value) :
    Shifts k id (Run.setGlobal name v) (Run.setGlobal name (v.shift k)) := by
  intro m m' hm
  refine ⟨rfl, hm.cells, fun other => ?_, hm.steps, hm.drawn⟩
  rw [Bindings.get?_set, Bindings.get?_set, hm.globals]
  split <;> rfl

theorem store (env : Env) (name : String) (v : Value) :
    Shifts k id (Run.store env name v) (Run.store env name (v.shift k)) := by
  intro m m' hm
  simp only [Run.store]
  cases env.find? name with
  | some a =>
    refine ⟨rfl, ?_, hm.globals, hm.steps, hm.drawn⟩
    rw [hm.cells, Array.map_setIfInBounds]
  | none =>
    simp only [hm.globals, Option.isSome_map]
    cases (m.globals.get? name).isSome with
    | true => exact setGlobal name v m m' hm
    | false => rfl

/-- **Loops whose rounds do further down what others do.** -/
theorem iterate {f g : Env → Run (Env ⊕ Flow)}
    (h : ∀ env, Shifts k (Sum.map id (Flow.shift k)) (f env) (g env)) (n : Nat) (env : Env) :
    Shifts k (Flow.shift k) (Formula.iterate f n env) (Formula.iterate g n env) := by
  induction n generalizing env with
  | zero => exact fun _ _ _ => rfl
  | succ n ih =>
    rw [Formula.iterate, Formula.iterate]
    refine (h env).bind fun r => ?_
    cases r with
    | inl env => exact ih env
    | inr flow => exact .pure rfl

end Shifts

end Run

open Run

namespace Setting

/-- **A setting for a program further down**: the same integers become floating-point numbers. -/
structure Below (k : Shift) (s s' : Setting) : Prop where
  floats : ∀ span, s'.types.isFloat (span.shift k) = s.types.isFloat span
  config : s'.config = s.config
  world : s'.world = s.world
  fuel : s'.fuel = s.fuel

namespace Below

variable {s s' : Setting}

theorem computed (h : Below k s s') (v : Value) (span : Span) :
    s'.computed (v.shift k) (span.shift k) = (s.computed v span).shift k := by
  rcases v with (n | _ | _ | _) | _ | _ | _ | _ | _
  case scalar.int =>
    simp only [Value.shift_scalar, Setting.computed, h.floats]
    split <;> rfl
  all_goals rfl

theorem tick (h : Below k s s') : Run.Shifts k id s.tick s'.tick := by
  intro m m' hm
  have hlate : s'.isLate = s.isLate := by
    funext step
    simp only [isLate, h.config, h.world]
  have hnext : Machine.Below k { m with steps := m.steps + 1 } { m' with steps := m'.steps + 1 } :=
    ⟨hm.cells, hm.globals, by rw [hm.steps], hm.drawn⟩
  simp only [Setting.tick, h.config, hlate, hm.steps] at hnext ⊢
  cases s.config.maxSteps with
  | none =>
    dsimp only
    cases s.isLate (m.steps + 1) with
    | true => rfl
    | false => exact ⟨rfl, hnext⟩
  | some limit =>
    dsimp only
    by_cases hlimit : limit < m.steps + 1
    · rw [if_pos hlimit, if_pos hlimit]
      rfl
    · rw [if_neg hlimit, if_neg hlimit]
      cases s.isLate (m.steps + 1) with
      | true => rfl
      | false => exact ⟨rfl, hnext⟩

theorem callNative (h : Below k s s') (n : Native) (args : List Value) :
    Run.Shifts k (Value.shift k) (s.callNative n args)
      (s'.callNative n (args.map (Value.shift k))) := by
  intro m m' hm
  have hcall : Run.Shifts k (Value.shift k) (do
      let v ← Run.ofExcept (n.call (s.world.draws m.drawn) args)
      if n.draws then modify fun m => { m with drawn := m.drawn + 1 }
      return v) (do
      let v ← Run.ofExcept (n.call (s'.world.draws m'.drawn) (args.map (Value.shift k)))
      if n.draws then modify fun m => { m with drawn := m.drawn + 1 }
      return v) := by
    rw [hm.drawn, h.world]
    refine (Shifts.ofExcept (n.call_shift _ args)).bind fun v => ?_
    have hdraw : Run.Shifts k (Value.shift k)
        ((modify fun m => { m with drawn := m.drawn + 1 } : Run Unit) >>= fun _ => Pure.pure v)
        ((modify fun m => { m with drawn := m.drawn + 1 } : Run Unit) >>= fun _ =>
          Pure.pure (v.shift k)) :=
      fun m m' hm => ⟨rfl, hm.cells, hm.globals, hm.steps, congrArg (· + 1) hm.drawn⟩
    exact .ite hdraw (.pure rfl)
  exact hcall m m' hm

section Parts

variable {enter enter' : Entry} (h : Below k s s')
include h

/-- Calls do further down what they do, if the bodies of functions do. -/
theorem apply (he : ∀ c args, Run.Shifts k (Value.shift k) (enter c args)
      (enter' (c.shift k) (args.map (Value.shift k)))) (callee : Value) (args : List Value) :
    Run.Shifts k (Value.shift k) (s.apply enter callee args)
      (s'.apply enter' (callee.shift k) (args.map (Value.shift k))) := by
  refine h.tick.bind fun _ => ?_
  cases callee with
  | closure c =>
    simp only [Value.shift, Closure.shift, List.length_map]
    exact .ite (he c args) (.fail _)
  | native n => exact h.callNative n args
  | builtin b => exact .ofExcept (b.call_shift args)
  | nil | scalar | package => exact .fail _

/-- A loop does further down what it does, if its parts do. -/
theorem rounds {condition : Option Expr} {post : Option Stmt} {statements : List Stmt}
    (hc : ∀ c ∈ condition, ∀ env,
      Run.Shifts k (Value.shift k) (s.eval enter env c) (s'.eval enter' env (c.shift k)))
    (hp : ∀ p ∈ post, ∀ env, Run.Shifts k (Prod.map id (Flow.shift k)) (s.exec enter env p)
      (s'.exec enter' env (p.shift k)))
    (hs : ∀ env, Run.Shifts k (Flow.shift k) (s.execAll enter env statements)
      (s'.execAll enter' env (statements.map (Stmt.shift k)))) (env : Env) :
    Run.Shifts k (Flow.shift k)
      (iterate (fun env => s.round enter env condition post statements) s.fuel env)
      (iterate (fun env => s'.round enter' env (condition.map (Expr.shift k))
        (post.map (Stmt.shift k)) (statements.map (Stmt.shift k))) s'.fuel env) := by
  rw [h.fuel]
  refine .iterate (fun env => ?_) _ env
  refine h.tick.bind fun _ => ?_
  refine Shifts.bind (w := id) ?_ fun b => .ite ((hs _).bind fun flow => ?_) (.pure rfl)
  · cases condition with
    | none => exact .pure rfl
    | some c => exact (hc c rfl env).condition
  · rw [Flow.leaves?_shift]
    cases flow.leaves? with
    | some flow => exact .pure rfl
    | none =>
      refine Shifts.bind (w := id) ?_ fun _ => .pure rfl
      cases post with
      | none => exact .pure rfl
      | some p => exact (hp p rfl env).map fun _ => rfl

/-- **What is evaluated and executed does further down what it does**, if the bodies of functions
do. -/
theorem runs (he : ∀ c args, Run.Shifts k (Value.shift k) (enter c args)
      (enter' (c.shift k) (args.map (Value.shift k)))) :
    SyntaxCases
      (fun e => ∀ env,
        Run.Shifts k (Value.shift k) (s.eval enter env e) (s'.eval enter' env (e.shift k)))
      (fun es => ∀ env, Run.Shifts k (List.map (Value.shift k)) (s.evalAll enter env es)
        (s'.evalAll enter' env (es.map (Expr.shift k))))
      (fun st => ∀ env, Run.Shifts k (Prod.map id (Flow.shift k)) (s.exec enter env st)
        (s'.exec enter' env (st.shift k)))
      (fun sts => ∀ env, Run.Shifts k (Flow.shift k) (s.execAll enter env sts)
        (s'.execAll enter' env (sts.map (Stmt.shift k)))) where
  literal value span env := by
    rw [Expr.shift_literal, eval, eval, ← Value.shift_scalar, h.computed]
    exact .pure rfl
  identifier name span env := by
    rw [Expr.shift_identifier, eval, eval]
    exact .lookup env name
  binary op left right span hl hr env := by
    rw [Expr.shift_binary]
    -- The right operands of `and` and `or` are evaluated in one case only.
    by_cases hand : op = .and
    · subst hand
      rw [eval_and, eval_and]
      exact (hl env).condition.bind fun b =>
        .ite ((hr env).condition.bind fun _ => .pure rfl) (.pure rfl)
    by_cases hor : op = .or
    · subst hor
      rw [eval_or, eval_or]
      exact (hl env).condition.bind fun b =>
        .ite (.pure rfl) ((hr env).condition.bind fun _ => .pure rfl)
    rw [eval_binary _ _ _ hand hor, eval_binary _ _ _ hand hor]
    refine (hl env).bind fun l => (hr env).bind fun r => ?_
    exact (Shifts.ofExcept (operate_shift op l r)).bind fun v => .pure (h.computed v span)
  unary op operand span ho env := by
    rw [Expr.shift_unary, eval, eval]
    exact (ho env).bind fun v => .ofExcept (operateUnary_shift op v)
  call function arguments span hf ha env := by
    rw [Expr.shift_call, eval, eval]
    exact (hf env).bind fun f => (ha env).bind fun args => h.apply he f args
  selector target member span env := by
    rw [Expr.shift_selector, eval, eval]
    exact (Shifts.lookup env target).bind fun v => .ofExcept (selectMember_shift v target member)
  function params result statements bodySpan span _ env := by
    rw [Expr.shift_function, eval, eval]
    exact .pure rfl
  noArguments env := by
    rw [List.map_nil, evalAll, evalAll]
    exact .pure rfl
  argument e es hv hvs env := by
    rw [List.map_cons, evalAll, evalAll]
    exact (hv env).bind fun v => (hvs env).bind fun vs => .pure rfl
  define name value span hv env := by
    rw [Stmt.shift, exec, exec]
    refine h.tick.bind fun _ => (hv env).bind fun v => ?_
    exact (Shifts.declare env name v).bind fun _ => .pure rfl
  var name type value span hv env := by
    rw [Stmt.shift_var, exec_var, exec_var]
    refine h.tick.bind fun _ => Shifts.bind (w := Value.shift k) ?_ fun v =>
      (Shifts.declare env name v).bind fun _ => .pure rfl
    cases value with
    | none => exact .ofExcept (zeroOf_shift type)
    | some e => exact hv e rfl env
  assign target op value span hv env := by
    rw [Stmt.shift, exec, exec]
    refine h.tick.bind fun _ => (hv env).bind fun v => ?_
    cases op with
    | none =>
      exact Shifts.bind (.pure rfl) fun v => (Shifts.store env target v).bind fun _ => .pure rfl
    | some op =>
      refine (Shifts.lookup env target).bind fun l => ?_
      refine (Shifts.ofExcept (operate_shift op l v)).bind fun v => ?_
      exact (Shifts.store env target v).bind fun _ => .pure rfl
  increment target up span env := by
    rw [Stmt.shift, exec, exec]
    refine h.tick.bind fun _ => (Shifts.lookup env target).bind fun v => ?_
    refine (Shifts.ofExcept (stepNumber_shift up v)).bind fun v => ?_
    exact (Shifts.store env target v).bind fun _ => .pure rfl
  expr value hv env := by
    rw [Stmt.shift, exec, exec]
    exact h.tick.bind fun _ => (hv env).bind fun _ => .pure rfl
  ret value span hv env := by
    rw [Stmt.shift_ret, exec_ret, exec_ret]
    refine h.tick.bind fun _ => Shifts.bind (w := Value.shift k) ?_ fun v => .pure rfl
    cases value with
    | none => exact .pure rfl
    | some e => exact hv e rfl env
  breakLoop span env := by
    rw [Stmt.shift, exec, exec]
    exact h.tick.bind fun _ => .pure rfl
  continueLoop span env := by
    rw [Stmt.shift, exec, exec]
    exact h.tick.bind fun _ => .pure rfl
  cond condition thenStatements thenSpan elseBlock span hc ht hb env := by
    rw [Stmt.shift_cond, Block.shift_mk, exec_cond, exec_cond]
    refine h.tick.bind fun _ => Shifts.bind (w := Flow.shift k) ?_ fun _ => .pure rfl
    refine (hc env).condition.bind fun b => .ite (ht _) ?_
    cases elseBlock with
    | none => exact .pure rfl
    | some b =>
      have hb := hb b rfl env.push
      rwa [← Block.statements_shift] at hb
  loop init condition post statements bodySpan span hi hc hp hs env := by
    rw [Stmt.shift_loop, Block.shift_mk, exec_loop, exec_loop]
    refine h.tick.bind fun _ => Shifts.bind (w := id) ?_ fun start =>
      (h.rounds hc hp hs start).bind fun _ => .pure rfl
    cases init with
    | none => exact .pure rfl
    | some i => exact (hi i rfl _).map fun _ => rfl
  block statements span hs env := by
    rw [Stmt.shift, Block.shift_mk, exec, exec]
    exact h.tick.bind fun _ => (hs _).bind fun _ => .pure rfl
  noStatements env := by
    rw [List.map_nil, execAll, execAll]
    exact .pure rfl
  statement st sts hst hsts env := by
    rw [List.map_cons, execAll_cons, execAll_cons]
    refine (hst env).bind fun r => ?_
    obtain ⟨env, flow⟩ := r
    cases flow with
    | normal => exact hsts env
    | breaks | continues | returns => exact .pure rfl

end Parts

theorem bindParams (params : List Parameter) (env : Env) (args : List Value) :
    Run.Shifts k id (bindParams env params args)
      (Setting.bindParams env (params.map (Parameter.shift k)) (args.map (Value.shift k))) := by
  induction params generalizing env args with
  | nil => exact .pure rfl
  | cons p params ih =>
    cases args with
    | nil => exact .pure rfl
    | cons v args => exact (Shifts.declare env p.name v).bind fun env => ih env args

section Calls

variable (h : Below k s s')
include h

/-- **The bodies of functions do further down what they do**, to any depth of calls. -/
theorem enter (depth : Nat) (c : Closure) (args : List Value) :
    Run.Shifts k (Value.shift k) (s.enter depth c args)
      (s'.enter depth (c.shift k) (args.map (Value.shift k))) := by
  induction depth generalizing c args with
  | zero =>
    rw [Setting.enter, Setting.enter, h.config]
    exact .fail _
  | succ depth ih =>
    rw [Setting.enter, Setting.enter]
    refine (bindParams c.params c.env.push args).bind fun env => ?_
    have hbody := (h.runs ih).ofStmts c.body.statements env
    rw [← Block.statements_shift] at hbody
    refine hbody.bind fun flow => ?_
    cases flow <;> exact .pure rfl

theorem enterTop (c : Closure) (args : List Value) :
    Run.Shifts k (Value.shift k) (s.enterTop c args)
      (s'.enterTop (c.shift k) (args.map (Value.shift k))) := by
  rw [Setting.enterTop, Setting.enterTop, h.config]
  exact h.enter _ c args

/-- Package-level variables get what they got. -/
theorem initVars (vars : List VarDecl) :
    Run.Shifts k id (s.initVars vars) (s'.initVars (vars.map (VarDecl.shift k))) := by
  induction vars with
  | nil => exact .pure rfl
  | cons d vars ih =>
    rw [List.map_cons, initVars_cons, initVars_cons]
    refine Shifts.bind (w := Value.shift k) ?_ fun v =>
      (Shifts.setGlobal d.name v).bind fun _ => ih
    obtain ⟨name, type, value, span⟩ := d
    cases value with
    | none => exact .ofExcept (zeroOf_shift type)
    | some e => exact (h.runs h.enterTop).ofExpr e .empty

end Calls

end Below

end Setting

end Formula
