import Formula.Machine.State

/-!
# Arguments of the command line

The first argument says what is to be done, and one of the others is the path of a definition. The
rest are options, each with its value in the next argument or behind an equals sign.

## Main definitions

* `Command`: what is to be done.
* `Command.ofArguments?`: the meaning of arguments.
-/

namespace Formula

/-- The budgets that are asked for. -/
structure Limits where
  timeout : Option Nat := none
  maxSteps : Option Nat := none
deriving Repr, DecidableEq

/-- The budgets of a run. Without a time limit of its own it has the usual one. -/
def Limits.config (l : Limits) : Config :=
  let usual : Config := {}
  { usual with timeout := l.timeout.or usual.timeout, maxSteps := l.maxSteps }

/-- What is to be done with the definition at a path. -/
inductive Command where
  /-- Builds it and tells the result type, perhaps after the assembled source. -/
  | check (path : String) (emitSource : Bool)
  /-- Builds it and evaluates the formula once. -/
  | eval (path : String) (overrides : List String) (limits : Limits)
  /-- Builds it and evaluates the formula for each line of input. -/
  | repl (path : String) (limits : Limits)
deriving Repr, DecidableEq

namespace Command

/-- The path of the definition. -/
def path : Command → String
  | check path _ | eval path _ _ | repl path _ => path

/-- The budgets of evaluations. -/
def config : Command → Config
  | check _ _ => {}
  | eval _ _ limits | repl _ limits => limits.config

/-- The options. -/
inductive Flag where
  | emitSource
  | set
  | timeout
  | maxSteps
deriving Repr, DecidableEq

/-- The option with the given name. -/
def Flag.ofName? : String → Option Flag
  | "--emit-source" => some .emitSource
  | "--set" => some .set
  | "--timeout-ms" => some .timeout
  | "--max-steps" => some .maxSteps
  | _ => none

/-- What was given with options, and the arguments that are none. -/
structure Options where
  paths : List String := []
  emitSource : Bool := false
  overrides : List String := []
  limits : Limits := {}

/-- The number of 64 bits that a text stands for; a plus sign may stand before it. -/
def readCount? (text : String) : Option Nat :=
  let digits := match text.toList with
    | '+' :: ds => ds
    | ds => ds
  match Decimal.readDigits 0 0 digits with
  | (n, count, []) => if 0 < count ∧ n < 2 * Decimal.intBound then some n else none
  | _ => none

/-- Takes in an option with its value. Only overrides may be given more than once. -/
def Options.put? (o : Options) (flag : Flag) (value : String) : Option Options :=
  match flag with
  | .emitSource => none
  | .set => some { o with overrides := o.overrides ++ [value] }
  | .timeout =>
    match o.limits.timeout, readCount? value with
    | none, some n => some { o with limits := { o.limits with timeout := some n } }
    | _, _ => none
  | .maxSteps =>
    match o.limits.maxSteps, readCount? value with
    | none, some n => some { o with limits := { o.limits with maxSteps := some n } }
    | _, _ => none

/-- Whether an argument looks like an option. -/
def isOption (argument : String) : Bool :=
  match argument.toList with
  | '-' :: _ :: _ => true
  | _ => false

/-- The name of an option, and the value behind an equals sign. -/
def splitOption (argument : String) : String × Option String :=
  match argument.splitOn "=" with
  | name :: part :: parts => (name, some ("=".intercalate (part :: parts)))
  | _ => (argument, none)

/-- Takes in arguments, of which only some options are allowed. Behind two hyphens there are no
options. -/
def readOptions? (allowed : List Flag) (o : Options) : List String → Option Options
  | [] => some o
  | "--" :: arguments => some { o with paths := o.paths ++ arguments }
  | argument :: arguments =>
    if !isOption argument then
      readOptions? allowed { o with paths := o.paths ++ [argument] } arguments
    else
      let (name, value?) := splitOption argument
      match (Flag.ofName? name).filter allowed.contains, value?, arguments with
      | some .emitSource, none, arguments =>
        if o.emitSource then none else readOptions? allowed { o with emitSource := true } arguments
      | some flag, some value, arguments =>
        match o.put? flag value with
        | some o => readOptions? allowed o arguments
        | none => none
      | some flag, none, value :: arguments =>
        if isOption value then none
        else match o.put? flag value with
          | some o => readOptions? allowed o arguments
          | none => none
      | _, _, _ => none

/-- The one path among options, which may not be empty. -/
def Options.path? (o : Options) : Option String :=
  match o.paths with
  | [path] => if path = "" then none else some path
  | _ => none

/-- The meaning of arguments. -/
def ofArguments? : List String → Option Command
  | "check" :: arguments => do
    let o ← readOptions? [.emitSource] {} arguments
    return check (← o.path?) o.emitSource
  | "eval" :: arguments => do
    let o ← readOptions? [.set, .timeout, .maxSteps] {} arguments
    return eval (← o.path?) o.overrides o.limits
  | "repl" :: arguments => do
    let o ← readOptions? [.timeout, .maxSteps] {} arguments
    return repl (← o.path?) o.limits
  | _ => none

end Command

end Formula
