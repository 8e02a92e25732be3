import Formula.Proofs.Machine.Equations
import Formula.Proofs.Program.Induction

/-!
# Relations that evaluation passes on

Two runs of one program that differ in their budgets alone do the same operations in the same order.
A relation between computations holds of the two runs as soon as it is passed on by sequences and by
loops, and holds of the steps, of the operations that take no step, and of a step with the opening
of a call behind it.

## Main definitions

* `Run.Quiet`: computations that take no step and are not stopped by a budget
* `Setting.Passes R s s'`: what has to be known of `R` for runs under `s` and `s'`

## Main results

* `Setting.Passes.syntaxCases`: `R` holds of what is evaluated and executed, if it holds of a step
  with a call behind it
* `Setting.Passes.execute`: `R` holds of the runs of a program, if it holds of that
-/

namespace Formula

/-- Whether a run was stopped because a budget is used up. -/
def Stop.ofBudget : Stop → Bool
  | error (.timeout _) | error (.stepLimit _) | error (.callDepth _) | outOfFuel => true
  | error (.fault _) | error (.noEntryPoint _) => false

namespace Run

variable {α : Type}

/-- A computation takes no step, and is not stopped by a budget. -/
def Quiet (x : Run α) : Prop :=
  ∀ m, match x m with
    | .ok _ m' => m'.steps = m.steps
    | .error e m' => m'.steps = m.steps ∧ e.ofBudget = false

theorem Quiet.pure (a : α) : Quiet (pure a : Run α) :=
  fun _ => rfl

theorem Quiet.fault (f : Fault) : Quiet (fail (.fault f) : Run α) :=
  fun _ => ⟨rfl, rfl⟩

theorem Quiet.noEntryPoint (name : String) : Quiet (fail (.noEntryPoint name) : Run α) :=
  fun _ => ⟨rfl, rfl⟩

theorem Quiet.ofExcept (r : Except Fault α) : Quiet (ofExcept r) := by
  cases r with
  | ok a => exact .pure a
  | error f => exact .fault f

theorem Quiet.get : Quiet (get : Run Machine) :=
  fun _ => rfl

theorem Quiet.alloc (v : Value) : Quiet (alloc v) :=
  fun _ => rfl

theorem Quiet.setGlobal (name : String) (v : Value) : Quiet (setGlobal name v) :=
  fun _ => rfl

theorem Quiet.lookup (env : Env) (name : String) : Quiet (lookup env name) := by
  intro m
  unfold Run.lookup
  cases env.find? name with
  | some a => exact rfl
  | none =>
    cases m.globals.get? name with
    | some v => exact rfl
    | none => exact ⟨rfl, rfl⟩

theorem Quiet.store (env : Env) (name : String) (v : Value) : Quiet (store env name v) := by
  intro m
  unfold Run.store
  cases env.find? name with
  | some a => exact rfl
  | none =>
    cases (m.globals.get? name).isSome with
    | true => exact rfl
    | false => exact ⟨rfl, rfl⟩

end Run

open Run

namespace Setting

/-- **A relation is passed on by evaluation**, from runs under `s` to runs under `s'`, which differ
in their budgets alone. -/
structure Passes (R : ∀ {α : Type}, Run α → Run α → Prop) (s s' : Setting) : Prop where
  types : s.types = s'.types
  world : s.world = s'.world
  entryPoint : s.config.entryPoint = s'.config.entryPoint
  tick : R s.tick s'.tick
  quiet : ∀ {α : Type} {x : Run α}, x.Quiet → R x x
  bind : ∀ {α β : Type} {x y : Run α} {f g : α → Run β},
    R x y → (∀ a, R (f a) (g a)) → R (x >>= f) (y >>= g)
  /-- Loops whose rounds are related are related. A round begins with a step. -/
  loop : ∀ {f g : Env → Run (Env ⊕ Flow)}, (∀ env, R (f env) (g env)) → ∀ env,
    R (iterate (fun env => s.tick >>= fun _ => f env) s.fuel env)
      (iterate (fun env => s'.tick >>= fun _ => g env) s'.fuel env)

namespace Passes

variable {R : ∀ {α : Type}, Run α → Run α → Prop} {s s' : Setting} {enter enter' : Entry}
  {α β : Type}

theorem pure (h : Passes R s s') (a : α) : R (pure a) (pure a) :=
  h.quiet (.pure a)

theorem map (h : Passes R s s') {x y : Run α} (hxy : R x y) (f : α → β) :
    R (f <$> x) (f <$> y) := by
  rw [map_eq_pure_bind, map_eq_pure_bind]
  exact h.bind hxy fun _ => h.pure _

theorem ite {c : Prop} [Decidable c] {x y x' y' : Run α} (hxy : R x y) (hxy' : R x' y') :
    R (if c then x else x') (if c then y else y') := by
  split
  · exact hxy
  · exact hxy'

theorem condition (h : Passes R s s') {x y : Run Value} (hxy : R x y) :
    R (Run.condition x) (Run.condition y) := by
  refine h.bind hxy fun v => ?_
  split
  · exact h.pure _
  · exact h.quiet (.fault _)

theorem declare (h : Passes R s s') (env : Env) (name : String) (v : Value) :
    R (Run.declare env name v) (Run.declare env name v) :=
  h.bind (h.quiet (.alloc v)) fun _ => h.pure _

theorem bindParams (h : Passes R s s') (params : List Parameter) (env : Env)
    (args : List Value) : R (bindParams env params args) (bindParams env params args) := by
  induction params generalizing env args with
  | nil => exact h.pure _
  | cons p params ih =>
    cases args with
    | nil => exact h.pure _
    | cons v args => exact h.bind (h.declare env p.name v) fun env => ih env args

theorem computed (h : Passes R s s') (v : Value) (span : Span) :
    s.computed v span = s'.computed v span := by
  simp only [Setting.computed, h.types]

theorem callNative (h : Passes R s s') (n : Native) (args : List Value) :
    R (s.callNative n args) (s'.callNative n args) := by
  refine h.bind (h.quiet .get) fun m => ?_
  rw [h.world]
  refine h.bind (h.quiet (.ofExcept _)) fun v => ?_
  split
  · exact h.bind (h.quiet fun _ => rfl) fun _ => h.pure _
  · exact h.pure _

/-- Calls are related behind their step if they are related. -/
theorem behind_tick (h : Passes R s s') (he : ∀ c args, R (enter c args) (enter' c args))
    (c : Closure) (args : List Value) :
    R (s.tick >>= fun _ => enter c args) (s'.tick >>= fun _ => enter' c args) :=
  h.bind h.tick fun _ => he c args

theorem apply (h : Passes R s s')
    (he : ∀ c args, R (s.tick >>= fun _ => enter c args) (s'.tick >>= fun _ => enter' c args))
    (callee : Value) (args : List Value) :
    R (s.apply enter callee args) (s'.apply enter' callee args) := by
  unfold Setting.apply
  cases callee with
  | closure c =>
    by_cases hlen : args.length = c.params.length
    · simp only [hlen, if_true]
      exact he c args
    · simp only [hlen, if_false]
      exact h.bind h.tick fun _ => h.quiet (.fault _)
  | native n => exact h.bind h.tick fun _ => h.callNative n args
  | builtin b => exact h.bind h.tick fun _ => h.quiet (.ofExcept _)
  | nil => exact h.bind h.tick fun _ => h.quiet (.fault _)
  | scalar v => exact h.bind h.tick fun _ => h.quiet (.fault _)
  | package path => exact h.bind h.tick fun _ => h.quiet (.fault _)

/-- A loop passes the relation on from its parts. -/
theorem rounds (h : Passes R s s') {condition : Option Expr} {post : Option Stmt}
    {statements : List Stmt}
    (hc : ∀ c ∈ condition, ∀ env, R (s.eval enter env c) (s'.eval enter' env c))
    (hp : ∀ p ∈ post, ∀ env, R (s.exec enter env p) (s'.exec enter' env p))
    (hs : ∀ env, R (s.execAll enter env statements) (s'.execAll enter' env statements))
    (env : Env) :
    R (iterate (fun env => s.round enter env condition post statements) s.fuel env)
      (iterate (fun env => s'.round enter' env condition post statements) s'.fuel env) := by
  refine h.loop (fun env => ?_) env
  refine h.bind ?_ fun b => ite (h.bind (hs _) fun flow => ?_) (h.pure _)
  · cases condition with
    | none => exact h.pure _
    | some c => exact h.condition (hc c rfl env)
  · split
    · exact h.pure _
    · refine h.bind ?_ fun _ => h.pure _
      cases post with
      | none => exact h.pure _
      | some p => exact h.map (hp p rfl env) _

/-- **What is evaluated and executed is related, if calls are behind their step.** -/
theorem syntaxCases (h : Passes R s s')
    (he : ∀ c args, R (s.tick >>= fun _ => enter c args) (s'.tick >>= fun _ => enter' c args)) :
    SyntaxCases (fun e => ∀ env, R (s.eval enter env e) (s'.eval enter' env e))
      (fun es => ∀ env, R (s.evalAll enter env es) (s'.evalAll enter' env es))
      (fun st => ∀ env, R (s.exec enter env st) (s'.exec enter' env st))
      (fun sts => ∀ env, R (s.execAll enter env sts) (s'.execAll enter' env sts)) where
  literal value span env := by
    rw [eval, eval, h.computed]
    exact h.pure _
  identifier name span env := by
    rw [eval, eval]
    exact h.quiet (.lookup env name)
  binary op left right span hl hr env := by
    -- The right operands of `and` and `or` are evaluated in one case only.
    by_cases hand : op = .and
    · subst hand
      rw [eval_and, eval_and]
      exact h.bind (h.condition (hl env)) fun b =>
        ite (h.bind (h.condition (hr env)) fun _ => h.pure _) (h.pure _)
    by_cases hor : op = .or
    · subst hor
      rw [eval_or, eval_or]
      exact h.bind (h.condition (hl env)) fun b =>
        ite (h.pure _) (h.bind (h.condition (hr env)) fun _ => h.pure _)
    rw [eval_binary _ _ _ hand hor, eval_binary _ _ _ hand hor]
    refine h.bind (hl env) fun l => h.bind (hr env) fun r => ?_
    refine h.bind (h.quiet (.ofExcept _)) fun v => ?_
    rw [h.computed]
    exact h.pure _
  unary op operand span ho env := by
    rw [eval, eval]
    exact h.bind (ho env) fun v => h.quiet (.ofExcept _)
  call function arguments span hf ha env := by
    rw [eval, eval]
    exact h.bind (hf env) fun f => h.bind (ha env) fun args => h.apply he f args
  selector target member span env := by
    rw [eval, eval]
    exact h.bind (h.quiet (.lookup env target)) fun v => h.quiet (.ofExcept _)
  function params result statements bodySpan span _ env := by
    rw [eval, eval]
    exact h.pure _
  noArguments env := by
    rw [evalAll, evalAll]
    exact h.pure _
  argument e es hv hvs env := by
    rw [evalAll, evalAll]
    exact h.bind (hv env) fun v => h.bind (hvs env) fun vs => h.pure _
  define name value span hv env := by
    rw [exec, exec]
    refine h.bind h.tick fun _ => h.bind (hv env) fun v => ?_
    exact h.bind (h.declare env name v) fun _ => h.pure _
  var name type value span hv env := by
    rw [exec_var, exec_var]
    refine h.bind h.tick fun _ => h.bind ?_ fun v => h.bind (h.declare env name v) fun _ => h.pure _
    cases value with
    | none => exact h.quiet (.ofExcept _)
    | some e => exact hv e rfl env
  assign target op value span hv env := by
    rw [exec, exec]
    refine h.bind h.tick fun _ => h.bind (hv env) fun v => ?_
    cases op with
    | none =>
      exact h.bind (h.pure _) fun _ => h.bind (h.quiet (.store _ _ _)) fun _ => h.pure _
    | some op =>
      refine h.bind (h.quiet (.lookup _ _)) fun _ => h.bind (h.quiet (.ofExcept _)) fun _ => ?_
      exact h.bind (h.quiet (.store _ _ _)) fun _ => h.pure _
  increment target up span env := by
    rw [exec, exec]
    refine h.bind h.tick fun _ => h.bind (h.quiet (.lookup _ _)) fun _ => ?_
    refine h.bind (h.quiet (.ofExcept _)) fun _ => ?_
    exact h.bind (h.quiet (.store _ _ _)) fun _ => h.pure _
  expr value hv env := by
    rw [exec, exec]
    exact h.bind h.tick fun _ => h.bind (hv env) fun _ => h.pure _
  ret value span hv env := by
    rw [exec_ret, exec_ret]
    refine h.bind h.tick fun _ => h.bind ?_ fun v => h.pure _
    cases value with
    | none => exact h.pure _
    | some e => exact hv e rfl env
  breakLoop span env := by
    rw [exec, exec]
    exact h.bind h.tick fun _ => h.pure _
  continueLoop span env := by
    rw [exec, exec]
    exact h.bind h.tick fun _ => h.pure _
  cond condition thenStatements thenSpan elseBlock span hc ht hb env := by
    rw [exec_cond, exec_cond]
    refine h.bind h.tick fun _ => h.bind ?_ fun _ => h.pure _
    refine h.bind (h.condition (hc env)) fun b => ite (ht _) ?_
    cases elseBlock with
    | none => exact h.pure _
    | some b => exact hb b rfl _
  loop init condition post statements bodySpan span hi hc hp hs env := by
    rw [exec_loop, exec_loop]
    refine h.bind h.tick fun _ => h.bind ?_ fun start =>
      h.bind (h.rounds hc hp hs start) fun _ => h.pure _
    cases init with
    | none => exact h.pure _
    | some i => exact h.map (hi i rfl _) _
  block statements span hs env := by
    rw [exec, exec]
    exact h.bind h.tick fun _ => h.bind (hs _) fun _ => h.pure _
  noStatements env := by
    rw [execAll, execAll]
    exact h.pure _
  statement st sts hst hsts env := by
    rw [execAll_cons, execAll_cons]
    refine h.bind (hst env) fun r => ?_
    obtain ⟨env, flow⟩ := r
    cases flow with
    | normal => exact hsts env
    | breaks => exact h.pure _
    | continues => exact h.pure _
    | returns v => exact h.pure _

/-- A call of a function is related, if the calls in it are behind their step. -/
theorem enter_succ (h : Passes R s s') (depth depth' : Nat)
    (he : ∀ c args, R (s.tick >>= fun _ => s.enter depth c args)
      (s'.tick >>= fun _ => s'.enter depth' c args)) (c : Closure) (args : List Value) :
    R (s.enter (depth + 1) c args) (s'.enter (depth' + 1) c args) := by
  refine h.bind (h.bindParams ..) fun env => ?_
  refine h.bind ((h.syntaxCases he).ofStmts c.body.statements env) fun flow => ?_
  cases flow <;> exact h.pure _

theorem initVars (h : Passes R s s')
    (he : ∀ c args, R (s.tick >>= fun _ => s.enterTop c args)
      (s'.tick >>= fun _ => s'.enterTop c args)) (vars : List VarDecl) : R (s.initVars vars) (s'.initVars vars) := by
  induction vars with
  | nil => exact h.pure _
  | cons d vars ih =>
    rw [initVars_cons, initVars_cons]
    refine h.bind ?_ fun v => h.bind (h.quiet (.setGlobal d.name v)) fun _ => ih
    cases d.value with
    | none => exact h.quiet (.ofExcept _)
    | some e => exact (h.syntaxCases he).ofExpr e .empty

/-- **The runs of a program are related, if calls are behind their step.** -/
theorem execute (h : Passes R s s')
    (he : ∀ c args, R (s.tick >>= fun _ => s.enterTop c args)
      (s'.tick >>= fun _ => s'.enterTop c args))
    (p : Program) (bindings : List (String × Scalar)) :
    R (s.execute p bindings) (s'.execute p bindings) := by
  have hbind (f : String × Scalar → Run Unit) (hf : ∀ b, R (f b) (f b)) :
      R (bindings.forM f) (bindings.forM f) := by
    induction bindings with
    | nil => exact h.pure _
    | cons b bindings ih => exact h.bind (hf b) fun _ => ih
  refine h.bind (h.quiet fun _ => rfl) fun _ => ?_
  refine h.bind (h.initVars he p.vars) fun _ => ?_
  refine h.bind (hbind _ fun b => h.quiet (.setGlobal b.1 _)) fun _ => ?_
  refine h.bind (h.quiet .get) fun m => ?_
  rw [h.entryPoint]
  cases m.globals.get? s'.config.entryPoint with
  | none => exact h.quiet (.noEntryPoint _)
  | some f => exact h.apply he f []

end Passes

end Setting

end Formula
