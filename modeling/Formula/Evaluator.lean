import Formula.Artifact
import Formula.Machine.Execution
import Formula.Registry.Assembly

/-!
# Evaluators

An evaluator collects declarations, builds them once and evaluates the formula many times. What
it evaluates is the artifact of the last successful build: later declarations have no influence
before the next build, and a failed build leaves the artifact in place.

## Main definitions

* `Evaluator`: declarations, budgets, and the artifact of the last build.
* `Evaluator.build`: validation, assembly and a build in a directory.
* `Artifact.bind`: the values of the variables of an evaluation.
* `Evaluator.evaluate`: the value of the formula.

## Main results

* `Evaluator.build_registry`, `Evaluator.build_config`: a build leaves declarations and budgets as
  they were.
-/

namespace Formula

/-- Declarations, budgets, and the artifact of the last successful build. -/
structure Evaluator where
  registry : Registry := {}
  config : Config := {}
  artifact : Option Artifact := none
  /-- The private directory, which is there from the first build in it on. -/
  workspace : Option (Store Contents) := none

/-- Why an evaluation yields no value. -/
inductive EvaluationError where
  | notBuilt
  | unknownVariable (name : String)
  | typeMismatch (name : String) (declared : ScalarType) (value : Scalar)
  | run (error : RunError)
  | noResult
  | unsupportedResult (kind : Kind)
  | resultType (expected : Ty) (found : ScalarType)
  /-- The run was given up: it may not end at all. -/
  | outOfFuel

/-- The wording of an error. -/
def EvaluationError.message : EvaluationError → String
  | notBuilt => "evaluator is not built"
  | unknownVariable name => "unknown variable " ++ name
  | typeMismatch name declared value =>
    "Error on setting value of variable " ++ name ++ " (type " ++ declared.name ++
      ") with value " ++ value.text ++ " (type " ++ value.type.name ++ ")"
  | run e => e.message
  | noResult => "evaluation produced no value"
  | unsupportedResult kind => "evaluation result of type " ++ kind.name ++ " cannot be returned"
  | resultType expected found =>
    "evaluation result has type " ++ found.name ++ ", expected " ++ expected.text
  | outOfFuel => "evaluation was given up"

namespace Artifact

/-- The values of variables that are given none. -/
def initialValues (a : Artifact) : Bindings Scalar :=
  a.vars.map fun v => (v.name, v.initialValue)

/-- Values with overrides put in, in order. The first override of a name that is no variable, or by
a value of another type, is an error. -/
def bindFrom (a : Artifact) (values : Bindings Scalar) :
    List (String × Scalar) → Except EvaluationError (Bindings Scalar)
  | [] => .ok values
  | (name, value) :: overrides =>
    match a.declared? name with
    | none => .error (.unknownVariable name)
    | some v =>
      if value.type = v.type then bindFrom a (values.set name value) overrides
      else .error (.typeMismatch name v.type value)

/-- The values of the variables of an evaluation. -/
def bind (a : Artifact) (overrides : List (String × Scalar)) :
    Except EvaluationError (Bindings Scalar) :=
  a.bindFrom a.initialValues overrides

/-- The scalar that a run ends in, if it is one of the result type. -/
def resultOf (a : Artifact) : Value → Except EvaluationError Scalar
  | .nil => .error .noResult
  | .scalar value =>
    if a.resultType = .ofScalar value.type then .ok value
    else .error (.resultType a.resultType value.type)
  | v => .error (.unsupportedResult v.kind)

/-- The value of the formula with overrides. -/
def evaluate (a : Artifact) (config : Config) (world : World) (fuel : Nat)
    (overrides : List (String × Scalar)) : Except EvaluationError Scalar :=
  match a.bind overrides with
  | .error e => .error e
  | .ok values =>
    match a.compilation.run config world values fuel with
    | .value v => a.resultOf v
    | .error e => .error (.run e)
    | .outOfFuel => .error .outOfFuel

end Artifact

/-- The work of a build: declarations that can be built are assembled and compiled. -/
def Registry.build (r : Registry) :
    Except ValidationError (FileTask Contents (Except BuildError Artifact)) :=
  match r.validate with
  | .error e => .error e
  | .ok () => .ok (Artifact.build (r.buildPath.getD "") r.buildPath r.name r.assemble r.vars)

namespace Evaluator

/-- An evaluator for declarations that is not built. -/
def ofRegistry (r : Registry) : Evaluator where
  registry := r

/-- Sets the name. -/
def setName (e : Evaluator) (name : String) : Evaluator :=
  { e with registry := { e.registry with name } }

/-- Sets the sort of evaluation. -/
def setKind (e : Evaluator) (kind : EvaluationKind) : Evaluator :=
  { e with registry := { e.registry with kind } }

/-- Sets the formula. -/
def setFormula (e : Evaluator) (formula : String) : Evaluator :=
  { e with registry := { e.registry with formula } }

/-- Sets the directory that builds go to. -/
def setBuildPath (e : Evaluator) (path : String) : Evaluator :=
  { e with registry := { e.registry with buildPath := some path } }

/-- Declares a variable. -/
def defineVariable (e : Evaluator) (v : Variable) : Evaluator :=
  { e with registry := e.registry.defineVariable v }

/-- Declares a helper function. -/
def defineHelper (e : Evaluator) (h : Helper) : Evaluator :=
  { e with registry := e.registry.defineHelper h }

/-- Declares an import. -/
def importPackage (e : Evaluator) (path : String) : Evaluator :=
  { e with registry := e.registry.importPackage path }

/-- Sets the budgets. The function that is called is always the one that holds the formula. -/
def setConfig (e : Evaluator) (config : Config) : Evaluator :=
  { e with config := { config with entryPoint := defaultEntryPoint } }

/-- Takes in how a build ended. -/
def finish (e : Evaluator) : Except BuildError Artifact → Except BuildError Unit × Evaluator
  | .error x => (.error x, e)
  | .ok a => (.ok (), { e with artifact := some a })

/-- Builds the declarations, in the directory that they name or else in the private one. -/
def build (e : Evaluator) (shared : Store Contents) :
    Except BuildError Unit × Evaluator × Store Contents :=
  match e.registry.build with
  | .error x => (.error (.validation x), e, shared)
  | .ok task =>
    match e.registry.buildPath with
    | some path =>
      let (result, shared) := task.run (.ofText path) shared
      let (answer, e) := e.finish result
      (answer, e, shared)
    | none =>
      let (result, own) := task.run {} (e.workspace.getD {})
      let (answer, e) := { e with workspace := some own }.finish result
      (answer, e, shared)

/-- The files among which those of an artifact lie, and their directory. -/
def placeOf (e : Evaluator) (shared : Store Contents) (a : Artifact) : Store Contents × Route :=
  match a.directory with
  | some path => (shared, .ofText path)
  | none => (e.workspace.getD {}, {})

/-- The value of the formula with overrides. -/
def evaluate (e : Evaluator) (world : World) (fuel : Nat) (overrides : List (String × Scalar)) :
    Except EvaluationError Scalar :=
  match e.artifact with
  | none => .error .notBuilt
  | some a => a.evaluate e.config world fuel overrides

@[simp]
theorem finish_registry (e : Evaluator) (r : Except BuildError Artifact) :
    (e.finish r).2.registry = e.registry := by
  cases r <;> rfl

@[simp]
theorem finish_config (e : Evaluator) (r : Except BuildError Artifact) :
    (e.finish r).2.config = e.config := by
  cases r <;> rfl

theorem build_registry (e : Evaluator) (shared : Store Contents) :
    (e.build shared).2.1.registry = e.registry := by
  unfold build
  split
  · rfl
  · split <;> simp

theorem build_config (e : Evaluator) (shared : Store Contents) :
    (e.build shared).2.1.config = e.config := by
  unfold build
  split
  · rfl
  · split <;> simp

end Evaluator

end Formula
