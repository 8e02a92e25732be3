import Formula.Proofs.Machine.Equations

/-!
# A machine with frames

A machine that keeps the scopes that are open and the number of open calls in its state. Scopes are
opened and closed by hand around blocks and loops, and swapped for those of a function around the
run of its body; a call is refused where too many are open. What is opened is closed behind a run
that fails, too.

## Main definitions

* `Stack`, `Stacked`: the state of the machine, and computations on it
* `Stacked.inScope`: something is done in a scope of its own
* `Stacked.called`, `Stacked.opened`: something is done in the scopes of a function
* `Stacked.eval`, `Stacked.exec`, `Stacked.call`: running expressions, statements and functions
* `Compilation.stacked`: a run of a program
-/

namespace Formula

/-- **A machine with its frames**: the scopes that are open, how many calls are, and how many have
been at once. -/
structure Stack where
  machine : Machine := {}
  env : Env := .empty
  depth : Nat := 0
  deepest : Nat := 0

/-- A computation on a machine with frames. -/
abbrev Stacked := EStateM Stop Stack

/-- How the body of a function is run for given arguments. -/
abbrev StackedEntry := Closure → List Value → Stacked Value

namespace Stacked

variable {α : Type}

/-- The stack behind a computation, also behind one that fails. -/
def after (x : Stacked α) (k : Stack) : Stack :=
  match x k with
  | .ok _ k' => k'
  | .error _ k' => k'

/-- Does something in the scopes that are open, which leaves them. -/
def here (x : Env → Run α) : Stacked α := fun k =>
  match x k.env k.machine with
  | .ok a m => .ok a { k with machine := m }
  | .error e m => .error e { k with machine := m }

/-- Does something that has nothing to do with scopes. -/
def lift (x : Run α) : Stacked α :=
  here fun _ => x

/-- Declares a variable that holds a value, in the innermost scope. -/
def declare (name : String) (v : Value) : Stacked Unit := fun k =>
  match Run.declare k.env name v k.machine with
  | .ok env m => .ok () { k with machine := m, env := env }
  | .error e m => .error e { k with machine := m }

/-- Does something, and changes the stack behind it, also if it failed. -/
def behind (x : Stacked α) (f : Stack → Stack) : Stacked α := fun k =>
  match x k with
  | .ok a k' => .ok a (f k')
  | .error e k' => .error e (f k')

theorem after_behind (x : Stacked α) (f : Stack → Stack) (k : Stack) :
    (x.behind f).after k = f (x.after k) := by
  unfold after behind
  cases x k <;> rfl

/-- Does something in a scope of its own, which is closed behind it. -/
def inScope (x : Stacked α) : Stacked α := fun k =>
  x.behind (fun k' => { k' with env := k'.env.pop }) { k with env := k.env.push }

theorem after_inScope (x : Stacked α) (k : Stack) :
    (inScope x).after k = { x.after { k with env := k.env.push } with
      env := (x.after { k with env := k.env.push }).env.pop } :=
  after_behind ..

/-- Does something in the scopes of a function, while one more call is open. -/
def called (env : Env) (x : Stacked α) : Stacked α := fun k =>
  x.behind (fun k' => { k' with env := k.env, depth := k'.depth - 1 })
    { k with env := env, depth := k.depth + 1, deepest := max k.deepest (k.depth + 1) }

theorem after_called (env : Env) (x : Stacked α) (k : Stack) {inner : Stack}
    (hinner : inner =
      { k with env := env, depth := k.depth + 1, deepest := max k.deepest (k.depth + 1) }) :
    (called env x).after k =
      { x.after inner with env := k.env, depth := (x.after inner).depth - 1 } := by
  rw [hinner]
  exact after_behind ..

/-- Does something in the scopes of a function, unless too many calls are open. -/
def opened (limit : Nat) (env : Run Env) (x : Stacked α) : Stacked α := do
  if limit ≤ (← get).depth then lift (Run.fail (.callDepth limit))
  else called (← lift env) x

theorem opened_apply (limit : Nat) (env : Run Env) (x : Stacked α) (k : Stack) :
    opened limit env x k = (if limit ≤ k.depth then lift (Run.fail (.callDepth limit))
      else lift env >>= fun env => called env x) k := rfl

/-- The truth value of a condition. -/
def condition (value : Stacked Value) : Stacked Bool := do
  lift (Run.condition (pure (← value)))

/-- Repeats a step until it says how the loop ends; at most so many times. -/
def iterate (step : Stacked (Option Flow)) : Nat → Stacked Flow
  | 0 => throw .outOfFuel
  | n + 1 => do
    match ← step with
    | none => iterate step n
    | some flow => return flow

variable (s : Setting)

/-- Calls a value. -/
def apply (enter : StackedEntry) (callee : Value) (args : List Value) : Stacked Value :=
  match callee with
  | .closure c => do
    lift s.tick
    if args.length = c.params.length then enter c args
    else lift (Run.fail (.fault (.argumentCount c.name c.params.length args.length)))
  | callee => lift (s.apply (fun _ _ => pure .nil) callee args)

mutual

/-- The value of an expression. -/
def eval (enter : StackedEntry) : Expr → Stacked Value
  | .literal value span => return s.computed (.scalar value) span
  | .identifier name _ => here fun env => Run.lookup env name
  | .binary .and left right _ => do
    if ← condition (eval enter left) then return .bool (← condition (eval enter right))
    else return .bool false
  | .binary .or left right _ => do
    if ← condition (eval enter left) then return .bool true
    else return .bool (← condition (eval enter right))
  | .binary op left right span => do
    let l ← eval enter left
    let r ← eval enter right
    return s.computed (← lift (Run.ofExcept (operate op l r))) span
  | .unary op operand _ => do
    lift (Run.ofExcept (operateUnary op (← eval enter operand)))
  | .call callee arguments _ => do
    let f ← eval enter callee
    let args ← evalAll enter arguments
    apply s enter f args
  | .selector target member _ => do
    let found ← here fun env => Run.lookup env target
    lift (Run.ofExcept (selectMember found target member))
  | .function params _ body _ =>
    here fun env => return .closure ⟨"func literal", params, body, env⟩

/-- The values of several expressions, from the first on. -/
def evalAll (enter : StackedEntry) : List Expr → Stacked (List Value)
  | [] => return []
  | e :: es => do
    let v ← eval enter e
    let vs ← evalAll enter es
    return v :: vs

/-- Runs a statement, and gives how it ends. -/
def exec (enter : StackedEntry) (statement : Stmt) : Stacked Flow := do
  lift s.tick
  match statement with
  | .define name value _ =>
    let v ← eval enter value
    declare name v
    return .normal
  | .var name type value _ =>
    let v ← match value with
      | some e => eval enter e
      | none => lift (Run.ofExcept (zeroOf type))
    declare name v
    return .normal
  | .assign target op value _ =>
    let v ← eval enter value
    let v ← match op with
      | some op => do
        let old ← here fun env => Run.lookup env target
        lift (Run.ofExcept (operate op old v))
      | none => pure v
    here fun env => Run.store env target v
    return .normal
  | .increment target up _ =>
    let old ← here fun env => Run.lookup env target
    let v ← lift (Run.ofExcept (stepNumber up old))
    here fun env => Run.store env target v
    return .normal
  | .expr e =>
    let _ ← eval enter e
    return .normal
  | .ret value _ =>
    let v ← match value with
      | some e => eval enter e
      | none => pure .nil
    return .returns v
  | .breakLoop _ => return .breaks
  | .continueLoop _ => return .continues
  | .cond test (.mk thenStatements _) elseBlock _ =>
    if ← condition (eval enter test) then inScope (execAll enter thenStatements)
    else match elseBlock with
      | some (.mk elseStatements _) => inScope (execAll enter elseStatements)
      | none => return .normal
  | .loop init test post (.mk statements _) _ =>
    inScope do
      match init with
      | some i =>
        let _ ← exec enter i
      | none => pure ()
      iterate (do
        lift s.tick
        let goesOn ← match test with
          | some c => condition (eval enter c)
          | none => pure true
        if goesOn then
          let flow ← inScope (execAll enter statements)
          match flow.leaves? with
          | some flow => return some flow
          | none =>
            match post with
            | some p =>
              let _ ← exec enter p
              return none
            | none => return none
        else return some .normal) s.fuel
  | .block (.mk statements _) => inScope (execAll enter statements)

/-- Runs statements one after the other until one does not end normally. -/
def execAll (enter : StackedEntry) : List Stmt → Stacked Flow
  | [] => return .normal
  | statement :: statements => do
    match ← exec enter statement with
    | .normal => execAll enter statements
    | flow => return flow

end

/-- Runs the body of a function unless too many calls are open. The number bounds how many calls may
lie within this one; it is not looked at before. -/
def call : Nat → StackedEntry
  | 0, _, _ => throw .outOfFuel
  | n + 1, c, args => do
    match ← opened s.config.maxDepth (Setting.bindParams c.env.push c.params args)
      (execAll s (call n) c.body.statements) with
    | .returns v => return v
    | _ => return .nil

/-! ## Form by form -/

section Forms

variable (enter : StackedEntry)

/-- The value of an expression, or of something else where there is none. -/
def evalOr (other : Run Value) : Option Expr → Stacked Value
  | some e => eval s enter e
  | none => lift other

/-- Whether a condition holds; where there is none, it does. -/
def holds : Option Expr → Stacked Bool
  | some c => condition (eval s enter c)
  | none => pure true

/-- Runs a statement that may be missing. -/
def execIn : Option Stmt → Stacked Unit
  | some i => do
    let _ ← exec s enter i
  | none => pure ()

/-- Runs a block in a scope of its own. -/
def block (b : Block) : Stacked Flow :=
  inScope (execAll s enter b.statements)

/-- Runs a block that may be missing. -/
def execElse : Option Block → Stacked Flow
  | some b => block s enter b
  | none => pure .normal

/-- A round of a loop. It says how the loop ends, if it does. -/
def round (test : Option Expr) (post : Option Stmt) (body : Block) : Stacked (Option Flow) := do
  lift s.tick
  if ← holds s enter test then
    match (← block s enter body).leaves? with
    | some flow => return some flow
    | none =>
      execIn s enter post
      return none
  else return some .normal

theorem eval_binary {op : BinaryOp} (hand : op ≠ .and) (hor : op ≠ .or) (left right : Expr)
    (span : Span) :
    eval s enter (.binary op left right span) = (do
      let l ← eval s enter left
      let r ← eval s enter right
      return s.computed (← lift (Run.ofExcept (operate op l r))) span) := by
  cases op <;> first | contradiction | (rw [eval] <;> simp)

theorem exec_var (name : String) (type : Option TypeExpr) (value : Option Expr) (span : Span) :
    exec s enter (.var name type value span) = (do
      lift s.tick
      let v ← evalOr s enter (Run.ofExcept (zeroOf type)) value
      declare name v
      return .normal) := by
  rw [exec]
  cases value <;> rfl

theorem exec_ret (value : Option Expr) (span : Span) :
    exec s enter (.ret value span) = (do
      lift s.tick
      let v ← evalOr s enter (pure .nil) value
      return .returns v) := by
  rw [exec]
  cases value <;> rfl

theorem exec_cond (test : Expr) (thenStatements : List Stmt) (thenSpan : Span)
    (elseBlock : Option Block) (span : Span) :
    exec s enter (.cond test (.mk thenStatements thenSpan) elseBlock span) = (do
      lift s.tick
      if ← condition (eval s enter test) then block s enter (.mk thenStatements thenSpan)
      else execElse s enter elseBlock) := by
  rw [exec.eq_def]
  rcases elseBlock with _ | ⟨statements, blockSpan⟩ <;> rfl

theorem exec_loop (init : Option Stmt) (test : Option Expr) (post : Option Stmt)
    (statements : List Stmt) (bodySpan span : Span) :
    exec s enter (.loop init test post (.mk statements bodySpan) span) = (do
      lift s.tick
      inScope do
        execIn s enter init
        iterate (round s enter test post (.mk statements bodySpan)) s.fuel) := by
  rw [exec.eq_def]
  cases init <;> cases test <;> cases post <;>
    simp only [execIn, holds, round, block, Block.statements, bind_assoc, pure_bind]

theorem execAll_cons (statement : Stmt) (statements : List Stmt) :
    execAll s enter (statement :: statements) = (do
      match ← exec s enter statement with
      | .normal => execAll s enter statements
      | flow => return flow) := by
  rw [execAll]

end Forms

/-! ## Programs -/

/-- How functions are run where no call is open. -/
def callTop : StackedEntry :=
  call s (s.config.maxDepth + 1)

/-- Gives package-level variables their initial values in order. -/
def initVars : List VarDecl → Stacked Unit
  | [] => return ()
  | d :: vars => do
    let v ← evalOr s (callTop s) (Run.ofExcept (zeroOf d.type)) d.value
    lift (Run.setGlobal d.name v)
    initVars vars

/-- Calls the entry function. -/
def callEntry : Stacked Value := fun k =>
  (match k.machine.globals.get? s.config.entryPoint with
    | some f => apply s (callTop s) f []
    | none => lift (Run.fail (.noEntryPoint s.config.entryPoint))) k

/-- Runs a program: its variables get their initial values, then those of `bindings`, and the
entry function is called. -/
def execute (p : Program) (bindings : List (String × Scalar)) : Stacked Value := do
  lift (modify fun m => { m with globals := p.initialGlobals })
  initVars s p.vars
  lift (bindings.forM fun (name, value) => Run.setGlobal name (.scalar value))
  callEntry s

/-- How a run ends, without the stack behind it. -/
def outcome (x : Stacked Value) (k : Stack) : Outcome :=
  match x k with
  | .ok v _ => .value v
  | .error (.error e) _ => .error e
  | .error .outOfFuel _ => .outOfFuel

end Stacked

/-- A run of a program on a machine with frames. -/
def Compilation.stacked (c : Compilation) (config : Config) (world : World)
    (bindings : List (String × Scalar)) (fuel : Nat) : Stacked Value :=
  Stacked.execute ⟨c.types, config, world, fuel⟩ c.program bindings

end Formula
