import Formula.Command

/-!
# The program

The command line in `IO`: files are read and written, lines are taken from the input, and reports
are printed. A private directory is not made on disk, since nobody would see its files.

## Main definitions

* `FileTask.perform`: the work of a build in a directory on disk.
* `main`: the program.
-/

namespace Formula

/-- What an error of the system means. -/
def FileFailure.ofError : IO.Error → FileFailure
  | .noFileOrDirectory .. => .notFound
  | .alreadyExists .. => .exists
  | .inappropriateType _ 20 _ => .notDirectory
  | .inappropriateType _ 21 _ => .isDirectory
  | .invalidArgument _ 36 _ => .nameTooLong
  | e => .other (toString e)

/-- The outcome of an action on files. -/
def attempt {α : Type} (action : IO α) : IO (Except FileFailure α) := do
  match ← action.toBaseIO with
  | .ok a => return .ok a
  | .error e => return .error (.ofError e)

/-- The text that a file has for what it holds. A stored program is represented by its digest, which
is not read back as a program: a later process compiles again. -/
def Contents.fileText : Contents → String
  | text s => s
  | program stored => stored.digest

/-- Makes a directory on disk, unless there is one. -/
def ensureDirectoryOnDisk (r : Route) : IO (Except FileFailure Unit) := do
  match ← attempt (IO.FS.createDir r.text) with
  | .error .exists => attempt (IO.FS.createDirAll r.text)
  | outcome => return outcome

/-- Makes the first of some directories on disk, each of which lies in the next one, and before it
those of the others that it lacks. -/
def ensureChainOnDisk : List Route → IO (Except FileFailure Unit)
  | [] => return .ok ()
  | r :: parents => do
    match ← ensureDirectoryOnDisk r with
    | .error .notFound =>
      match ← ensureChainOnDisk parents with
      | .ok () => ensureDirectoryOnDisk r
      | failed => return failed
    | outcome => return outcome

/-- Makes a directory on disk and those on the way to it, as far as they are not there. -/
def makeDirectoriesOnDisk (r : Route) : IO (Except FileFailure Unit) :=
  if r.isEmpty then return .ok () else ensureChainOnDisk (r :: r.parents)

/-- The work of a build in a directory on disk. -/
def FileTask.perform {α : Type} (directory : String) : FileTask Contents α → IO α
  | done a => return a
  | makeDirectory next => do
    let outcome ← makeDirectoriesOnDisk (.ofText directory)
    (next outcome).perform directory
  | read name next => do
    let outcome ← attempt (IO.FS.readFile (joinPath directory name))
    (next (outcome.map .text)).perform directory
  | write name contents next => do
    let outcome ← attempt (IO.FS.writeFile (joinPath directory name) contents.fileText)
    (next outcome).perform directory

/-- Builds an evaluator: on disk if the declarations name a directory. -/
def Evaluator.buildOnDisk (e : Evaluator) : IO (Except BuildError Unit × Evaluator) :=
  match e.registry.buildPath, e.registry.build with
  | some path, .ok task => return e.finish (← task.perform path)
  | _, _ =>
    let (result, e, _) := e.build {}
    return (result, e)

/-- Prints a report. -/
def Report.print (r : Report) : IO Unit := do
  let output ← IO.getStdout
  output.putStr r.output
  output.flush
  (← IO.getStderr).putStr r.errors

/-- Answers lines of input until there are no more, or no more are wanted. -/
partial def answerLines (e : Evaluator) (input : IO.FS.Stream) : IO Unit := do
  let line ← input.getLine
  if line.isEmpty then return
  match Command.lineReport? e .regular ampleFuel line with
  | none => return
  | some report =>
    report.print
    answerLines e input

/-- Carries out a command and gives its exit code. -/
def Command.perform (c : Command) : IO UInt32 := do
  let text ← attempt (IO.FS.readFile c.path)
  match c.prepare text with
  | .error x => finished x.report
  | .ok e =>
    let (result, e) ← e.buildOnDisk
    match c.built result e, c with
    | .error x, _ => finished x.report
    | .ok e, repl _ _ =>
      (banner e).print
      answerLines e (← IO.getStdin)
      return 0
    | .ok e, c => finished (c.answer e .regular ampleFuel "")
where
  finished (r : Report) : IO UInt32 := do
    r.print
    return r.code

end Formula

/-- The program. -/
def main (args : List String) : IO UInt32 := do
  match Formula.Command.ofArguments? args with
  | some c => c.perform
  | none =>
    Formula.Report.usage.print
    return Formula.Report.usage.code
