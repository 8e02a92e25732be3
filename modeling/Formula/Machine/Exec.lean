import Formula.Machine.Operation
import Formula.Machine.State

/-!
# Running expressions and statements

Scopes are passed down: a statement gives the scopes behind it, and what was declared in a block is
out of scope behind the block. How a function is entered is an argument of everything here; that
ties the knot in `Setting.enter`, which goes down in the number of calls that may still be opened.

## Main definitions

* `Flow`: how a statement ends.
* `Setting.eval`, `Setting.exec`: running expressions and statements.
* `Setting.apply`: calling a value.
* `Setting.enter`: running the body of a function.
-/

namespace Formula

/-- How a statement ends. -/
inductive Flow where
  | normal
  | breaks
  | continues
  | returns (value : Value)
deriving Inhabited

/-- How the body of a function is run for given arguments. -/
abbrev Entry := Closure → List Value → Run Value

/-- Repeats a step until it says how the loop ends; at most so many times. -/
def iterate (step : Env → Run (Env ⊕ Flow)) : Nat → Env → Run Flow
  | 0, _ => throw .outOfFuel
  | n + 1, env => do
    match ← step env with
    | .inl env => iterate step n env
    | .inr flow => return flow

/-- The value of a variable without an initial value. -/
def zeroOf (type : Option TypeExpr) : Except Fault Value :=
  match type with
  | none => .ok .nil
  | some e =>
    match e.resolve with
    | .ok t => .ok (.zero t)
    | .error u => .error (.unknownType u.name)

/-- A member of what a name stands for. -/
def selectMember (found : Value) (target member : String) : Except Fault Value :=
  match found with
  | .package path =>
    match Package.member? path member with
    | some n => .ok (.native n)
    | none => .error (.undefinedMember target member)
  | other => .error (.noMembers target member other.kind)

namespace Setting

variable (s : Setting)

/-- What a constant or the result of an operation stands for at its place: an integer is a
floating-point number where the types say so. -/
def computed (value : Value) (span : Span) : Value :=
  match value with
  | .int n => if s.types.isFloat span then .float n.toFloat else .int n
  | v => v

/-- The result of a function of a package, which may take the next draw. -/
def callNative (n : Native) (args : List Value) : Run Value := do
  let m ← get
  let v ← Run.ofExcept (n.call (s.world.draws m.drawn) args)
  if n.draws then modify fun m => { m with drawn := m.drawn + 1 }
  return v

/-- Calls a value. -/
def apply (enter : Entry) (callee : Value) (args : List Value) : Run Value := do
  s.tick
  match callee with
  | .closure c =>
    if args.length = c.params.length then enter c args
    else Run.fail (.fault (.argumentCount c.name c.params.length args.length))
  | .native n => s.callNative n args
  | .builtin b => Run.ofExcept (b.call args)
  | .nil => Run.fail (.fault .callNil)
  | other => Run.fail (.fault (.callee other.kind))

mutual

/-- The value of an expression. -/
def eval (enter : Entry) (env : Env) : Expr → Run Value
  | .literal value span => return s.computed (.scalar value) span
  | .identifier name _ => Run.lookup env name
  | .binary .and left right _ => do
    if ← Run.condition (eval enter env left) then
      return .bool (← Run.condition (eval enter env right))
    else return .bool false
  | .binary .or left right _ => do
    if ← Run.condition (eval enter env left) then return .bool true
    else return .bool (← Run.condition (eval enter env right))
  | .binary op left right span => do
    let l ← eval enter env left
    let r ← eval enter env right
    return s.computed (← Run.ofExcept (operate op l r)) span
  | .unary op operand _ => do
    Run.ofExcept (operateUnary op (← eval enter env operand))
  | .call callee arguments _ => do
    let f ← eval enter env callee
    let args ← evalAll enter env arguments
    s.apply enter f args
  | .selector target member _ => do
    Run.ofExcept (selectMember (← Run.lookup env target) target member)
  | .function params _ body _ => return .closure ⟨"func literal", params, body, env⟩

/-- The values of several expressions, from the first on. -/
def evalAll (enter : Entry) (env : Env) : List Expr → Run (List Value)
  | [] => return []
  | e :: es => do
    let v ← eval enter env e
    let vs ← evalAll enter env es
    return v :: vs

/-- Runs a statement, and gives the scopes behind it and how it ends. -/
def exec (enter : Entry) (env : Env) (statement : Stmt) : Run (Env × Flow) := do
  s.tick
  match statement with
  | .define name value _ =>
    let v ← eval enter env value
    return (← Run.declare env name v, .normal)
  | .var name type value _ =>
    let v ← match value with
      | some e => eval enter env e
      | none => Run.ofExcept (zeroOf type)
    return (← Run.declare env name v, .normal)
  | .assign target op value _ =>
    let v ← eval enter env value
    let v ← match op with
      | some op => Run.ofExcept (operate op (← Run.lookup env target) v)
      | none => pure v
    Run.store env target v
    return (env, .normal)
  | .increment target up _ =>
    let v ← Run.ofExcept (stepNumber up (← Run.lookup env target))
    Run.store env target v
    return (env, .normal)
  | .expr e =>
    let _ ← eval enter env e
    return (env, .normal)
  | .ret value _ =>
    let v ← match value with
      | some e => eval enter env e
      | none => pure .nil
    return (env, .returns v)
  | .breakLoop _ => return (env, .breaks)
  | .continueLoop _ => return (env, .continues)
  | .cond condition (.mk thenStatements _) elseBlock _ =>
    let flow ←
      if ← Run.condition (eval enter env condition) then execAll enter env.push thenStatements
      else match elseBlock with
        | some (.mk elseStatements _) => execAll enter env.push elseStatements
        | none => pure .normal
    return (env, flow)
  | .loop init condition post (.mk statements _) _ =>
    let start ← match init with
      | some i => do
        let (inner, _) ← exec enter env.push i
        pure inner
      | none => pure env.push
    let flow ← iterate (fun inner => do
      s.tick
      let goesOn ← match condition with
        | some c => Run.condition (eval enter inner c)
        | none => pure true
      if !goesOn then return .inr .normal
      match ← execAll enter inner.push statements with
      | .breaks => return .inr .normal
      | .returns v => return .inr (.returns v)
      | .normal | .continues =>
        match post with
        | some p => do
          let (inner, _) ← exec enter inner p
          return .inl inner
        | none => return .inl inner) s.fuel start
    return (env, flow)
  | .block (.mk statements _) => return (env, ← execAll enter env.push statements)

/-- Runs statements one after the other until one does not end normally. -/
def execAll (enter : Entry) (env : Env) : List Stmt → Run Flow
  | [] => return .normal
  | statement :: statements => do
    match ← exec enter env statement with
    | (env, .normal) => execAll enter env statements
    | (_, flow) => return flow

end

/-- Declares parameters that hold the given arguments. -/
def bindParams (env : Env) : List Parameter → List Value → Run Env
  | p :: params, v :: args => do bindParams (← Run.declare env p.name v) params args
  | _, _ => return env

/-- Runs the body of a function where so many calls may still be opened. A function without a
result gives no value. -/
def enter : Nat → Entry
  | 0, _, _ => Run.fail (.callDepth s.config.maxDepth)
  | depth + 1, c, args => do
    let env ← bindParams c.env.push c.params args
    match ← s.execAll (enter depth) env c.body.statements with
    | .returns v => return v
    | _ => return .nil

end Setting

end Formula
