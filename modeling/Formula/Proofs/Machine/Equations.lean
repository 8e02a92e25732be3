import Formula.Machine.Execution

/-!
# Evaluation, form by form

What evaluation does with each form of expression and statement, as one equation for each. The
optional parts of statements and a round of a loop are computations of their own here, so that what
holds of a statement is put together from what holds of its parts.

## Main definitions

* `Run.after`: the machine behind a computation, also behind one that fails
* `Setting.evalOr`, `Setting.holds`, `Setting.execIn`, `Setting.execElse`: the optional parts
* `Flow.leaves?`: how a loop goes on after its body
* `Setting.branch`: a choice
* `Setting.round`: a round of a loop
* `Setting.callEntry`: the call of the entry function

## Main results

* `Setting.exec_loop`: a loop is its rounds, repeated from the scopes of its own
-/

namespace Formula

/-! ## Sequences -/

/-- The machine behind a computation, also behind one that fails. -/
def Run.after {α : Type} (x : Run α) (m : Machine) : Machine :=
  match x m with
  | .ok _ m' => m'
  | .error _ m' => m'

namespace Run

variable {α β : Type} {x : Run α} {f : α → Run β} {m m' : Machine}

theorem after_of_ok {a : α} (h : x m = .ok a m') : x.after m = m' := by
  simp only [after, h]

theorem after_of_error {e : Stop} (h : x m = .error e m') : x.after m = m' := by
  simp only [after, h]

theorem bind_of_ok {a : α} (h : x m = .ok a m') (f : α → Run β) : (x >>= f) m = f a m' := by
  simp only [bind, EStateM.bind, h]

theorem bind_of_error {e : Stop} (h : x m = .error e m') (f : α → Run β) :
    (x >>= f) m = .error e m' := by
  simp only [bind, EStateM.bind, h]

theorem bind_eq_ok {b : β} (h : (x >>= f) m = .ok b m') :
    ∃ a m₁, x m = .ok a m₁ ∧ f a m₁ = .ok b m' := by
  cases hx : x m with
  | ok a m₁ => exact ⟨a, m₁, rfl, (bind_of_ok hx f).symm.trans h⟩
  | error e m₁ => cases (bind_of_error hx f).symm.trans h

theorem bind_eq_error {e : Stop} (h : (x >>= f) m = .error e m') :
    x m = .error e m' ∨ ∃ a m₁, x m = .ok a m₁ ∧ f a m₁ = .error e m' := by
  cases hx : x m with
  | ok a m₁ => exact .inr ⟨a, m₁, rfl, (bind_of_ok hx f).symm.trans h⟩
  | error e' m₁ =>
    cases (bind_of_error hx f).symm.trans h
    exact .inl rfl

theorem exists_of_isSome (h : (x.run' m).isSome = true) : ∃ a m₁, x m = .ok a m₁ := by
  dsimp only [EStateM.run', EStateM.run] at h
  cases hx : x m with
  | ok a m₁ => exact ⟨a, m₁, rfl⟩
  | error e m₁ =>
    rw [hx] at h
    cases h

end Run

/-! ## Parts -/

/-- How a loop ends after its body has ended so; none if another round follows. -/
def Flow.leaves? : Flow → Option Flow
  | breaks => some normal
  | returns v => some (returns v)
  | normal | continues => none

namespace Setting

variable (s : Setting) (enter : Entry) (env : Env)

/-- The value of an expression, or of something else where there is none. -/
def evalOr (other : Run Value) : Option Expr → Run Value
  | some e => s.eval enter env e
  | none => other

/-- Whether a condition holds; where there is none, it does. -/
def holds : Option Expr → Run Bool
  | some c => Run.condition (s.eval enter env c)
  | none => pure true

/-- The scopes behind a statement that may be missing. -/
def execIn : Option Stmt → Run Env
  | some i => Prod.fst <$> s.exec enter env i
  | none => pure env

/-- Runs a block that may be missing, in a scope of its own. -/
def execElse : Option Block → Run Flow
  | some b => s.execAll enter env.push b.statements
  | none => pure .normal

/-- Runs one of two blocks, of which the other one may be missing. -/
def branch (condition : Expr) (thenStatements : List Stmt) (elseBlock : Option Block) :
    Run Flow := do
  if ← Run.condition (s.eval enter env condition) then s.execAll enter env.push thenStatements
  else s.execElse enter env elseBlock

/-- A round of a loop: the scopes of the next round, or how the loop ends. -/
def round (condition : Option Expr) (post : Option Stmt) (statements : List Stmt) :
    Run (Env ⊕ Flow) := do
  s.tick
  if ← s.holds enter env condition then
    match (← s.execAll enter env.push statements).leaves? with
    | some flow => return .inr flow
    | none => return .inl (← s.execIn enter env post)
  else return .inr .normal

/-- Calls the entry function. -/
def callEntry : Run Value := fun m =>
  (match m.globals.get? s.config.entryPoint with
    | some f => s.apply s.enterTop f []
    | none => Run.fail (.noEntryPoint s.config.entryPoint)) m

/-! ## Expressions -/

theorem eval_binary {op : BinaryOp} (hand : op ≠ .and) (hor : op ≠ .or) (left right : Expr)
    (span : Span) :
    s.eval enter env (.binary op left right span) = (do
      let l ← s.eval enter env left
      let r ← s.eval enter env right
      return s.computed (← Run.ofExcept (operate op l r)) span) := by
  cases op <;> first | contradiction | (rw [eval] <;> simp)

theorem eval_and (left right : Expr) (span : Span) :
    s.eval enter env (.binary .and left right span) = (do
      if ← Run.condition (s.eval enter env left) then
        return .bool (← Run.condition (s.eval enter env right))
      else return .bool false) := by
  rw [eval]

theorem eval_or (left right : Expr) (span : Span) :
    s.eval enter env (.binary .or left right span) = (do
      if ← Run.condition (s.eval enter env left) then return .bool true
      else return .bool (← Run.condition (s.eval enter env right))) := by
  rw [eval]

/-! ## Statements -/

theorem exec_var (name : String) (type : Option TypeExpr) (value : Option Expr) (span : Span) :
    s.exec enter env (.var name type value span) = (do
      s.tick
      let v ← s.evalOr enter env (Run.ofExcept (zeroOf type)) value
      return (← Run.declare env name v, .normal)) := by
  rw [exec]
  cases value <;> rfl

theorem exec_ret (value : Option Expr) (span : Span) :
    s.exec enter env (.ret value span) = (do
      s.tick
      let v ← s.evalOr enter env (pure .nil) value
      return (env, .returns v)) := by
  rw [exec]
  cases value <;> rfl

theorem exec_cond (condition : Expr) (thenStatements : List Stmt) (thenSpan : Span)
    (elseBlock : Option Block) (span : Span) :
    s.exec enter env (.cond condition (.mk thenStatements thenSpan) elseBlock span) = (do
      s.tick
      let flow ← s.branch enter env condition thenStatements elseBlock
      return (env, flow)) := by
  rw [exec]
  refine congrArg _ (funext fun _ => ?_)
  rw [branch, bind_assoc]
  refine congrArg _ (funext fun b => ?_)
  cases b <;> rcases elseBlock with _ | ⟨statements, blockSpan⟩ <;> rfl

theorem exec_loop (init : Option Stmt) (condition : Option Expr) (post : Option Stmt)
    (statements : List Stmt) (bodySpan span : Span) :
    s.exec enter env (.loop init condition post (.mk statements bodySpan) span) = (do
      s.tick
      let start ← s.execIn enter env.push init
      let flow ← iterate (fun inner => s.round enter inner condition post statements) s.fuel start
      return (env, flow)) := by
  have hround (inner : Env) : s.round enter inner condition post statements = (do
      s.tick
      let goesOn ← s.holds enter inner condition
      if !goesOn then return .inr .normal
      match ← s.execAll enter inner.push statements with
      | .breaks => return .inr .normal
      | .returns v => return .inr (.returns v)
      | .normal | .continues => return .inl (← s.execIn enter inner post)) := by
    refine congrArg _ (funext fun _ => congrArg _ (funext fun b => ?_))
    cases b
    · rfl
    · refine bind_congr fun flow => ?_
      cases flow <;> rfl
  rw [exec, funext hround]
  cases init <;> cases condition <;> cases post <;>
    simp only [execIn, holds, map_eq_pure_bind, bind_assoc, pure_bind] <;> rfl

theorem execAll_cons (statement : Stmt) (statements : List Stmt) :
    s.execAll enter env (statement :: statements) = (do
      let (env, flow) ← s.exec enter env statement
      match flow with
      | .normal => s.execAll enter env statements
      | flow => return flow) := by
  rw [execAll]
  refine congrArg _ (funext fun r => ?_)
  obtain ⟨env, flow⟩ := r
  cases flow <;> rfl

/-! ## Programs -/

theorem initVars_cons (d : VarDecl) (vars : List VarDecl) :
    s.initVars (d :: vars) = (do
      let v ← s.evalOr s.enterTop .empty (Run.ofExcept (zeroOf d.type)) d.value
      Run.setGlobal d.name v
      s.initVars vars) := by
  rw [initVars]
  cases d.value <;> rfl

end Setting

end Formula
