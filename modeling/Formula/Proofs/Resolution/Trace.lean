import Formula.Proofs.Machine.Equations
import Formula.Proofs.Resolution.Declaration

/-!
# Runs that keep track of declarations

A run that remembers by which declaration each cell was made, and writes down each use of a name with
the declaration of what it reaches. Apart from that it does what a run does.

## Main definitions

* `Access`: a name is used, and the declaration of what is reached
* `Track`: a machine with the declarations of its cells and of its package-level names
* `Tracked`: computations that keep track
* `Tracked.eval`, `Tracked.exec`, `Tracked.enter`: running expressions, statements and functions
* `Compilation.track`: a run of a program that keeps track
-/

namespace Formula

/-- **A name is used**: the place, the declaration of the variable or package-level name that is
reached, and how many package-level variables have got their initial values. -/
structure Access where
  span : Span
  name : String
  reached : Option Declaration
  initialised : Nat
deriving Repr, DecidableEq

/-- A machine with the declarations by which its cells were made and its package-level names were
given their meanings, and with the uses of names so far, the last one first. -/
structure Track where
  machine : Machine := {}
  cells : List Declaration := []
  globals : Bindings Declaration := []
  initialised : Nat := 0
  accesses : List Access := []

/-- The declaration of what a name stands for: a variable in scope, or else a package-level name. -/
def Track.find? (t : Track) (env : Env) (name : String) : Option Declaration :=
  match env.find? name with
  | some a => t.cells[a]?
  | none => t.globals.get? name

/-- A computation that keeps track. -/
abbrev Tracked := EStateM Stop Track

/-- How the body of a function is run for given arguments. -/
abbrev TrackedEntry := Closure → List Value → Tracked Value

namespace Tracked

variable {α : Type}

/-- Does something that neither declares nor uses a name. -/
def lift (x : Run α) : Tracked α := fun t =>
  match x t.machine with
  | .ok a m => .ok a { t with machine := m }
  | .error e m => .error e { t with machine := m }

/-- Writes down that a name is used. -/
def note (env : Env) (name : String) (span : Span) : Tracked Unit := fun t =>
  .ok () { t with accesses := ⟨span, name, t.find? env name, t.initialised⟩ :: t.accesses }

/-- What a name stands for. -/
def lookup (env : Env) (name : String) (span : Span) : Tracked Value := do
  note env name span
  lift (Run.lookup env name)

/-- Gives a new value to what a name stands for. -/
def store (env : Env) (name : String) (span : Span) (v : Value) : Tracked Unit := do
  note env name span
  lift (Run.store env name v)

/-- Declares a variable that holds a value, in a new cell. -/
def declare (env : Env) (name : String) (span : Span) (v : Value) : Tracked Env := fun t =>
  lift (Run.declare env name v) { t with cells := t.cells ++ [.cell span] }

/-- The truth value of a condition. -/
def condition (value : Tracked Value) : Tracked Bool := do
  lift (Run.condition (pure (← value)))

/-- Repeats a step until it says how the loop ends; at most so many times. -/
def iterate (step : Env → Tracked (Env ⊕ Flow)) : Nat → Env → Tracked Flow
  | 0, _ => throw .outOfFuel
  | n + 1, env => do
    match ← step env with
    | .inl env => iterate step n env
    | .inr flow => return flow

variable (s : Setting)

/-- Calls a value. -/
def apply (enter : TrackedEntry) (callee : Value) (args : List Value) : Tracked Value :=
  match callee with
  | .closure c => do
    lift s.tick
    if args.length = c.params.length then enter c args
    else lift (Run.fail (.fault (.argumentCount c.name c.params.length args.length)))
  | callee => lift (s.apply (fun _ _ => pure .nil) callee args)

mutual

/-- The value of an expression. -/
def eval (enter : TrackedEntry) (env : Env) : Expr → Tracked Value
  | .literal value span => return s.computed (.scalar value) span
  | .identifier name span => lookup env name span
  | .binary .and left right _ => do
    if ← condition (eval enter env left) then
      return .bool (← condition (eval enter env right))
    else return .bool false
  | .binary .or left right _ => do
    if ← condition (eval enter env left) then return .bool true
    else return .bool (← condition (eval enter env right))
  | .binary op left right span => do
    let l ← eval enter env left
    let r ← eval enter env right
    return s.computed (← lift (Run.ofExcept (operate op l r))) span
  | .unary op operand _ => do
    lift (Run.ofExcept (operateUnary op (← eval enter env operand)))
  | .call callee arguments _ => do
    let f ← eval enter env callee
    let args ← evalAll enter env arguments
    apply s enter f args
  | .selector target member span => do
    lift (Run.ofExcept (selectMember (← lookup env target span) target member))
  | .function params _ body _ => return .closure ⟨"func literal", params, body, env⟩

/-- The values of several expressions, from the first on. -/
def evalAll (enter : TrackedEntry) (env : Env) : List Expr → Tracked (List Value)
  | [] => return []
  | e :: es => do
    let v ← eval enter env e
    let vs ← evalAll enter env es
    return v :: vs

/-- Runs a statement, and gives the scopes behind it and how it ends. -/
def exec (enter : TrackedEntry) (env : Env) (statement : Stmt) : Tracked (Env × Flow) := do
  lift s.tick
  match statement with
  | .define name value span =>
    let v ← eval enter env value
    return (← declare env name span v, .normal)
  | .var name type value span =>
    let v ← match value with
      | some e => eval enter env e
      | none => lift (Run.ofExcept (zeroOf type))
    return (← declare env name span v, .normal)
  | .assign target op value span =>
    let v ← eval enter env value
    let v ← match op with
      | some op => do
        let old ← lookup env target span
        lift (Run.ofExcept (operate op old v))
      | none => pure v
    store env target span v
    return (env, .normal)
  | .increment target up span =>
    let v ← lift (Run.ofExcept (stepNumber up (← lookup env target span)))
    store env target span v
    return (env, .normal)
  | .expr e =>
    let _ ← eval enter env e
    return (env, .normal)
  | .ret value _ =>
    let v ← match value with
      | some e => eval enter env e
      | none => pure .nil
    return (env, .returns v)
  | .breakLoop _ => return (env, .breaks)
  | .continueLoop _ => return (env, .continues)
  | .cond test (.mk thenStatements _) elseBlock _ =>
    let flow ←
      if ← condition (eval enter env test) then execAll enter env.push thenStatements
      else match elseBlock with
        | some (.mk elseStatements _) => execAll enter env.push elseStatements
        | none => pure .normal
    return (env, flow)
  | .loop init test post (.mk statements _) _ =>
    let start ← match init with
      | some i => do
        let (inner, _) ← exec enter env.push i
        pure inner
      | none => pure env.push
    let flow ← iterate (fun inner => do
      lift s.tick
      let goesOn ← match test with
        | some c => condition (eval enter inner c)
        | none => pure true
      if goesOn then
        let flow ← execAll enter inner.push statements
        match flow.leaves? with
        | some flow => return .inr flow
        | none =>
          match post with
          | some p => do
            let (inner, _) ← exec enter inner p
            return .inl inner
          | none => return .inl inner
      else return .inr .normal) s.fuel start
    return (env, flow)
  | .block (.mk statements _) => return (env, ← execAll enter env.push statements)

/-- Runs statements one after the other until one does not end normally. -/
def execAll (enter : TrackedEntry) (env : Env) : List Stmt → Tracked Flow
  | [] => return .normal
  | statement :: statements => do
    match ← exec enter env statement with
    | (env, .normal) => execAll enter env statements
    | (_, flow) => return flow

end

/-- Declares parameters that hold the given arguments. -/
def bindParams (env : Env) : List Parameter → List Value → Tracked Env
  | p :: params, v :: args => do bindParams (← declare env p.name p.span v) params args
  | _, _ => return env

/-- Runs the body of a function where so many calls may still be opened. -/
def enter : Nat → TrackedEntry
  | 0, _, _ => lift (Run.fail (.callDepth s.config.maxDepth))
  | depth + 1, c, args => do
    let env ← bindParams c.env.push c.params args
    match ← execAll s (enter depth) env c.body.statements with
    | .returns v => return v
    | _ => return .nil

/-! ## Form by form -/

section Forms

variable (enter : TrackedEntry) (env : Env)

/-- The value of an expression, or of something else where there is none. -/
def evalOr (other : Run Value) : Option Expr → Tracked Value
  | some e => eval s enter env e
  | none => lift other

/-- Whether a condition holds; where there is none, it does. -/
def holds : Option Expr → Tracked Bool
  | some c => condition (eval s enter env c)
  | none => pure true

/-- The scopes behind a statement that may be missing. -/
def execIn : Option Stmt → Tracked Env
  | some i => Prod.fst <$> exec s enter env i
  | none => pure env

/-- Runs a block that may be missing, in a scope of its own. -/
def execElse : Option Block → Tracked Flow
  | some b => execAll s enter env.push b.statements
  | none => pure .normal

/-- Runs one of two blocks, of which the other one may be missing. -/
def branch (test : Expr) (thenStatements : List Stmt) (elseBlock : Option Block) :
    Tracked Flow := do
  if ← condition (eval s enter env test) then execAll s enter env.push thenStatements
  else execElse s enter env elseBlock

/-- A round of a loop: the scopes of the next round, or how the loop ends. -/
def round (test : Option Expr) (post : Option Stmt) (statements : List Stmt) :
    Tracked (Env ⊕ Flow) := do
  lift s.tick
  if ← holds s enter env test then
    match (← execAll s enter env.push statements).leaves? with
    | some flow => return .inr flow
    | none => return .inl (← execIn s enter env post)
  else return .inr .normal

theorem eval_binary {op : BinaryOp} (hand : op ≠ .and) (hor : op ≠ .or) (left right : Expr)
    (span : Span) :
    eval s enter env (.binary op left right span) = (do
      let l ← eval s enter env left
      let r ← eval s enter env right
      return s.computed (← lift (Run.ofExcept (operate op l r))) span) := by
  cases op <;> first | contradiction | (rw [eval] <;> simp)

theorem exec_var (name : String) (type : Option TypeExpr) (value : Option Expr) (span : Span) :
    exec s enter env (.var name type value span) = (do
      lift s.tick
      let v ← evalOr s enter env (Run.ofExcept (zeroOf type)) value
      return (← declare env name span v, .normal)) := by
  rw [exec]
  cases value <;> rfl

theorem exec_ret (value : Option Expr) (span : Span) :
    exec s enter env (.ret value span) = (do
      lift s.tick
      let v ← evalOr s enter env (pure .nil) value
      return (env, .returns v)) := by
  rw [exec]
  cases value <;> rfl

theorem exec_cond (test : Expr) (thenStatements : List Stmt) (thenSpan : Span)
    (elseBlock : Option Block) (span : Span) :
    exec s enter env (.cond test (.mk thenStatements thenSpan) elseBlock span) = (do
      lift s.tick
      let flow ← branch s enter env test thenStatements elseBlock
      return (env, flow)) := by
  rw [exec]
  refine congrArg _ (funext fun _ => ?_)
  rw [branch, bind_assoc]
  refine congrArg _ (funext fun b => ?_)
  cases b <;> rcases elseBlock with _ | ⟨statements, blockSpan⟩ <;> rfl

theorem exec_loop (init : Option Stmt) (test : Option Expr) (post : Option Stmt)
    (statements : List Stmt) (bodySpan span : Span) :
    exec s enter env (.loop init test post (.mk statements bodySpan) span) = (do
      lift s.tick
      let start ← execIn s enter env.push init
      let flow ← iterate (fun inner => round s enter inner test post statements) s.fuel start
      return (env, flow)) := by
  rw [exec]
  cases init <;> cases test <;> cases post <;>
    simp only [execIn, holds, round, map_eq_pure_bind, bind_assoc, pure_bind]

theorem execAll_cons (statement : Stmt) (statements : List Stmt) :
    execAll s enter env (statement :: statements) = (do
      let (env, flow) ← exec s enter env statement
      match flow with
      | .normal => execAll s enter env statements
      | flow => return flow) := by
  rw [execAll]
  refine congrArg _ (funext fun r => ?_)
  obtain ⟨env, flow⟩ := r
  cases flow <;> rfl

end Forms

/-! ## Programs -/

/-- How functions are entered where no call is open. -/
def enterTop : TrackedEntry :=
  enter s s.config.maxDepth

/-- A package-level variable gets its initial value. -/
def initialise (name : String) (v : Value) : Tracked Unit := fun t =>
  .ok () { t with
    machine := { t.machine with globals := t.machine.globals.set name v }
    globals := t.globals.set name (.global t.initialised)
    initialised := t.initialised + 1 }

/-- Gives package-level variables their initial values in order. -/
def initVars : List VarDecl → Tracked Unit
  | [] => return ()
  | d :: vars => do
    let v ← evalOr s (enterTop s) .empty (Run.ofExcept (zeroOf d.type)) d.value
    initialise d.name v
    initVars vars

/-- Runs a program: its variables get their initial values, then those of `bindings`, and the entry
function is called. -/
def execute (p : Program) (bindings : List (String × Scalar)) : Tracked Value := do
  modify fun t => { t with
    machine := { t.machine with globals := p.initialGlobals }
    globals := Bindings.setAll [] (Program.predeclared ++ p.declarations (fun _ => true) 0) }
  initVars s p.vars
  lift (bindings.forM fun (name, value) => Run.setGlobal name (.scalar value))
  match (← get).machine.globals.get? s.config.entryPoint with
  | some f => apply s (enterTop s) f []
  | none => lift (Run.fail (.noEntryPoint s.config.entryPoint))

end Tracked

end Formula
