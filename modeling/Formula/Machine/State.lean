import Formula.Compilation
import Formula.Package.Call

/-!
# The machine

A run has cells for variables, the package-level names, and a count of the steps it has taken. It
is bounded by budgets of steps, of nested calls, and of time. The clock and the draws of random
numbers are given from outside, by the number of the step and of the draw.

## Main definitions

* `Config`: the budgets of a run and the function that it calls.
* `Setting`: all that a run depends on besides the program's text.
* `Machine`: the state of a run.
* `Run`, `Stop`: computations on a machine, and why they stop.
* `Setting.tick`: one step.
-/

namespace Formula

/-- The budgets of a run, and the function that it calls. -/
structure Config where
  entryPoint : String := defaultEntryPoint
  /-- How many milliseconds a run may take. -/
  timeout : Option Nat := some 10000
  /-- How many statements, rounds of loops and calls a run may take. -/
  maxSteps : Option Nat := none
  /-- How many calls of functions of the program may be open at once. -/
  maxDepth : Nat := 128
deriving Repr, DecidableEq, Inhabited

/-- The clock and the source of random numbers. -/
structure World where
  /-- How many milliseconds have passed at a step. -/
  clock : Nat → Nat
  /-- The number that is drawn, by how many were drawn before. -/
  draws : Nat → Nat

/-- A world in which a step takes four microseconds and the draws are spread out. -/
def World.regular : World where
  clock step := step * 4 / 1000
  draws count := (count + 1) * 6364136223846793005 + 1442695040888963407

/-- What a run depends on besides the program's text. -/
structure Setting where
  types : TypeInfo
  config : Config
  world : World
  /-- How many rounds a loop may take before the run is given up. -/
  fuel : Nat

/-- The state of a run. -/
structure Machine where
  /-- What variables hold, by the number of their cell. -/
  cells : Array Value := #[]
  /-- What package-level names stand for. -/
  globals : Bindings Value := []
  /-- How many steps have been taken. -/
  steps : Nat := 0
  /-- How many random numbers have been drawn. -/
  drawn : Nat := 0

/-- Why a run stops before its end. -/
inductive Stop where
  | error (error : RunError)
  /-- The run is given up: it may not end at all. -/
  | outOfFuel
deriving Repr, DecidableEq

/-- A computation on a machine. -/
abbrev Run := EStateM Stop Machine

namespace Run

variable {α : Type}

/-- Stops with an error. -/
def fail (e : RunError) : Run α :=
  throw (.error e)

/-- Stops if an operation is not defined. -/
def ofExcept (r : Except Fault α) : Run α :=
  match r with
  | .ok a => pure a
  | .error f => fail (.fault f)

/-- A new cell that holds a value. -/
def alloc (v : Value) : Run Address := fun m =>
  .ok m.cells.size { m with cells := m.cells.push v }

/-- Declares a variable that holds a value, in a new cell. -/
def declare (env : Env) (name : String) (v : Value) : Run Env := do
  return env.declare name (← alloc v)

/-- What a name stands for: a variable in scope, or else a package-level name. -/
def lookup (env : Env) (name : String) : Run Value := fun m =>
  match env.find? name with
  | some a => .ok (m.cells.getD a .nil) m
  | none =>
    match m.globals.get? name with
    | some v => .ok v m
    | none => .error (.error (.fault (.undefinedName name))) m

/-- Gives a new value to what a name stands for. -/
def store (env : Env) (name : String) (v : Value) : Run Unit := fun m =>
  match env.find? name with
  | some a => .ok () { m with cells := m.cells.setIfInBounds a v }
  | none =>
    if (m.globals.get? name).isSome then .ok () { m with globals := m.globals.set name v }
    else .error (.error (.fault (.undefinedName name))) m

/-- Lets a package-level name stand for a value. -/
def setGlobal (name : String) (v : Value) : Run Unit := fun m =>
  .ok () { m with globals := m.globals.set name v }

/-- The truth value of a condition. -/
def condition (value : Run Value) : Run Bool := do
  match ← value with
  | .bool b => return b
  | other => fail (.fault (.condition other.kind))

end Run

/-- How many steps lie between two looks at the clock. -/
def clockInterval : Nat := 64

/-- Whether the clock is looked at in a step, and has reached the end of the time budget. -/
def Setting.isLate (s : Setting) (step : Nat) : Bool :=
  match s.config.timeout with
  | none => false
  | some limit => step % clockInterval = 0 && limit ≤ s.world.clock step

/-- One step. The budget of steps is looked at first, and then the time. -/
def Setting.tick (s : Setting) : Run Unit := fun m =>
  let steps := m.steps + 1
  let m := { m with steps := steps }
  match s.config.maxSteps with
  | some limit =>
    if limit < steps then .error (.error (.stepLimit limit)) m
    else if s.isLate steps then .error (.error (.timeout (s.config.timeout.getD 0))) m
    else .ok () m
  | none =>
    if s.isLate steps then .error (.error (.timeout (s.config.timeout.getD 0))) m
    else .ok () m

end Formula
