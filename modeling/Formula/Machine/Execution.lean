import Formula.Machine.Exec

/-!
# Running programs

Predeclared names, packages and functions are there from the start; then the package-level
variables get their initial values in order. After that the values from outside replace those of
the variables, and the entry function is called.

## Main definitions

* `Outcome`: how a run ends.
* `Compilation.run`: a run of a program.
-/

namespace Formula

/-- How a run ends. -/
inductive Outcome where
  | value (value : Value)
  | error (error : RunError)
  | outOfFuel
deriving Inhabited

/-- How many rounds loops may take when a run is not meant to be given up. -/
def ampleFuel : Nat := 0x1000000000000000

/-- A package-level function as a value. -/
def FunctionDecl.closure (d : FunctionDecl) : Closure :=
  ⟨d.name, d.params, d.body, .empty⟩

/-- What the names of a program stand for before its variables get their initial values. -/
def Program.initialGlobals (p : Program) : Bindings Value :=
  let predeclared : Bindings Value := Builtin.all.foldl (fun b f => b.set f.name (.builtin f)) []
  let imported : Bindings Value :=
    p.imports.foldl (fun b i => b.set i.binding (.package i.path)) predeclared
  p.functions.foldl (fun b d => b.set d.name (.closure d.closure)) imported

namespace Setting

variable (s : Setting)

/-- How functions are entered where no call is open. -/
def enterTop : Entry :=
  s.enter s.config.maxDepth

/-- Gives package-level variables their initial values in order. -/
def initVars : List VarDecl → Run Unit
  | [] => return ()
  | d :: vars => do
    let v ← match d.value with
      | some e => s.eval s.enterTop .empty e
      | none => Run.ofExcept (zeroOf d.type)
    Run.setGlobal d.name v
    initVars vars

/-- Runs a program: its variables get their initial values, then those of `bindings`, and the
entry function is called. -/
def execute (p : Program) (bindings : List (String × Scalar)) : Run Value := do
  modify fun m => { m with globals := p.initialGlobals }
  s.initVars p.vars
  bindings.forM fun (name, value) => Run.setGlobal name (.scalar value)
  match (← get).globals.get? s.config.entryPoint with
  | some f => s.apply s.enterTop f []
  | none => Run.fail (.noEntryPoint s.config.entryPoint)

end Setting

/-- Runs a program from a fresh machine, on which values from outside replace those of its
variables. Loops are given up after `fuel` rounds. -/
def Compilation.run (c : Compilation) (config : Config) (world : World)
    (bindings : List (String × Scalar)) (fuel : Nat) : Outcome :=
  match (Setting.execute ⟨c.types, config, world, fuel⟩ c.program bindings).run {} with
  | .ok v _ => .value v
  | .error (.error e) _ => .error e
  | .error .outOfFuel _ => .outOfFuel

end Formula
