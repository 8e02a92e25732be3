import Formula.Command.Arguments
import Formula.Command.Override
import Formula.Definition
import Formula.Evaluator
import Formula.Text.Backspace

/-!
# Commands

A command reads a definition, builds it, and then tells the result type, evaluates the formula once,
or evaluates it for each line of its input.

## Main definitions

* `Report`: what a command writes, and its exit code.
* `CommandError`: why a command fails; `CommandError.text` shows an error with its causes.
* `Command.prepare`, `Command.built`, `Command.answer`: the three parts of a command.
* `Command.run`: a command on a store.
-/

namespace Formula

/-- What a command writes to its two outputs, and its exit code. -/
structure Report where
  output : String := ""
  errors : String := ""
  code : UInt32 := 0
deriving Repr, DecidableEq, Inhabited

/-- One report after another. -/
def Report.followedBy (r s : Report) : Report :=
  ⟨r.output ++ s.output, r.errors ++ s.errors, s.code⟩

/-- A line of output. -/
def Report.line (text : String) : Report where
  output := text ++ "\n"

/-- Why a command fails. -/
inductive CommandError where
  | unreadable (path : String) (failure : FileFailure)
  | definition (path : String) (error : JsonError)
  /-- The assembled source is rejected; the diagnostic is shown with the source line. -/
  | rejected (text : String)
  | build (path : String) (error : BuildError)
  | override (error : OverrideError)
  | evaluation (error : EvaluationError)

/-- The wording of an error of the form. -/
def ReadError.message : ReadError → String
  | malformed => "malformed JSON"
  | truncated => "unexpected end of JSON"

/-- The wording of an error in a definition. -/
def JsonError.message : JsonError → String
  | form e => e.message
  | content m => m.message

/-- The wording of the causes of an error in a build. -/
def BuildError.chain : BuildError → List String
  | access path failure => [(access path failure).message, failure.message]
  | e => [e.message]

/-- The wording of an error, and that of its causes. -/
def CommandError.chain : CommandError → String × List String
  | unreadable path failure =>
    ("failed to read " ++ path ++ ": " ++ failure.message, [failure.message])
  | definition path e => ("invalid definition " ++ path ++ ": " ++ e.message, [e.message])
  | rejected text => (text, [])
  | build path e => ("failed to build " ++ path, e.chain)
  | override e => (e.message, [])
  | evaluation e => (e.message, [])

/-- A text in which `margin` stands before every line but the first. -/
def indentLines (margin text : String) : String :=
  ("\n" ++ margin).intercalate (text.splitOn "\n")

/-- A cause on a line of its own. Several causes are numbered. -/
def causeText (number : Option Nat) (cause : String) : String :=
  match number with
  | none => "\n    " ++ indentLines "    " cause
  | some n =>
    let digits := toString n
    "\n" ++ Diagnostic.copies (5 - digits.length) ' ' ++ digits ++ ": " ++
      indentLines "       " cause

/-- An error with its causes. -/
def CommandError.text (e : CommandError) : String :=
  let (head, causes) := e.chain
  "Error: " ++ head ++
    (match causes with
      | [] => ""
      | [cause] => "\n\nCaused by:" ++ causeText none cause
      | causes =>
        "\n\nCaused by:" ++
          String.join (causes.zipIdx.map fun (cause, n) => causeText (some n) cause)) ++ "\n"

/-- The report of a command that fails. -/
def CommandError.report (e : CommandError) : Report where
  errors := e.text
  code := 1

/-- The report on arguments without a meaning. -/
def Report.usage : Report where
  errors := "usage: formula check DEFINITION [--emit-source]\n" ++
    "       formula eval DEFINITION [--set NAME=VALUE]... [--timeout-ms MS] [--max-steps N]\n" ++
    "       formula repl DEFINITION [--timeout-ms MS] [--max-steps N]\n"
  code := 2

namespace Command

/-- The evaluator for the definition that was read. -/
def prepare (c : Command) (text : Except FileFailure String) : Except CommandError Evaluator :=
  match text with
  | .error e => .error (.unreadable c.path e)
  | .ok text =>
    match Definition.ofText text with
    | .error e => .error (.definition c.path e)
    | .ok d => .ok ((Evaluator.ofRegistry d.registry).setConfig c.config)

/-- What a failed build means for a command. A diagnostic shows the path of the definition. -/
def buildError (c : Command) (r : Registry) : BuildError → CommandError
  | .compile d => .rejected (d.render (.single c.path r.assemble))
  | e => .build c.path e

/-- The evaluator after a build. -/
def built (c : Command) (result : Except BuildError Unit) (e : Evaluator) :
    Except CommandError Evaluator :=
  match result with
  | .error x => .error (c.buildError e.registry x)
  | .ok () => .ok e

/-- The source that was built. -/
def builtSource (e : Evaluator) : String :=
  (e.artifact.map (·.source)).getD ""

/-- The value of the formula with written overrides. -/
def evaluateWritten (e : Evaluator) (world : World) (fuel : Nat) (overrides : List String) :
    Except CommandError Scalar :=
  match e.registry.readOverrides overrides with
  | .error x => .error (.override x)
  | .ok values => (e.evaluate world fuel values).mapError .evaluation

/-- Tells the result type. -/
def checkReport (e : Evaluator) (emitSource : Bool) : Report :=
  let source : Report := { output := if emitSource then builtSource e else "" }
  let returns := (e.artifact.map fun a => " returns " ++ a.resultType.text).getD ""
  source.followedBy (.line ("ok: " ++ e.registry.name ++ returns))

/-- Evaluates the formula once. -/
def evalReport (e : Evaluator) (world : World) (fuel : Nat) (overrides : List String) : Report :=
  match evaluateWritten e world fuel overrides with
  | .error x => x.report
  | .ok value => .line value.text

/-- What is written before the first line of input. -/
def banner (e : Evaluator) : Report :=
  .line (e.registry.name ++ ": enter NAME=VALUE overrides separated by spaces, " ++
    "empty line for defaults, :quit to exit")

/-- The answer to a line of input, whose backspaces are applied first; there is none if no more
lines are wanted. -/
def lineReport? (e : Evaluator) (world : World) (fuel : Nat) (line : String) : Option Report :=
  match Text.trim (Text.applyBackspaces line) with
  | ":quit" | ":exit" => none
  | ":source" => some { output := builtSource e }
  | text =>
    match evaluateWritten e world fuel (Text.words text) with
    | .error x => some { errors := "error: " ++ x.chain.1 ++ "\n" }
    | .ok value => some (.line value.text)

/-- The answers to lines of input. -/
def linesReport (e : Evaluator) (world : World) (fuel : Nat) : List String → Report
  | [] => {}
  | line :: lines =>
    match lineReport? e world fuel line with
    | none => {}
    | some r => r.followedBy (linesReport e world fuel lines)

/-- The lines of an input; the last one may lack its end. -/
def inputLines (input : String) : List String :=
  match (input.splitOn "\n").reverse with
  | "" :: lines => lines.reverse
  | lines => lines.reverse

/-- What a command does when the definition is built. -/
def answer (c : Command) (e : Evaluator) (world : World) (fuel : Nat) (input : String) : Report :=
  match c with
  | check _ emitSource => checkReport e emitSource
  | eval _ overrides _ => evalReport e world fuel overrides
  | repl _ _ => (banner e).followedBy (linesReport e world fuel (inputLines input))

/-- The text of a file. -/
def textAt (s : Store Contents) (path : String) : Except FileFailure String :=
  (s.read (.ofText path)).map fun contents => contents.text?.getD ""

/-- A command on a store: its report, and the store after it. -/
def run (c : Command) (s : Store Contents) (world : World) (fuel : Nat) (input : String) :
    Report × Store Contents :=
  match c.prepare (textAt s c.path) with
  | .error x => (x.report, s)
  | .ok e =>
    let (result, e, s) := e.build s
    match c.built result e with
    | .error x => (x.report, s)
    | .ok e => (c.answer e world fuel input, s)

end Command

end Formula
