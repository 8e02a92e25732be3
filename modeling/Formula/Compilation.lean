import Formula.Program.Grammar
import Formula.Token.Scan
import Formula.Typing.Program

/-!
# Compilation

From source text to a program that is known to be well typed.

## Main definitions

* `Compilation`: a program and its types.
* `SourceFile.program`, `SourceFile.compile`, `Sources.compile`: what a text is compiled to.
-/

namespace Formula

/-- The name of the entry function unless another one is asked for. -/
def defaultEntryPoint : String := "evaluate"

/-- A program that can be run, and what the run needs to know of its types. -/
structure Compilation where
  program : Program
  types : TypeInfo

/-- The program that a file holds. -/
def SourceFile.program (f : SourceFile) : Except Diagnostic Program :=
  match Token.scan f with
  | .error e => .error (e.diagnostic f)
  | .ok tokens => (Program.ofTokens tokens).mapError ParseError.diagnostic

/-- Compiles the program that a file holds. -/
def SourceFile.compile (f : SourceFile) (entryPoint : String) : Except Diagnostic Compilation :=
  match f.program with
  | .error d => .error d
  | .ok p =>
    match p.check entryPoint with
    | .error e => .error e.diagnostic
    | .ok types => .ok ⟨p, types⟩

/-- Compiles the first of several files. -/
def Sources.compile (s : Sources) (entryPoint : String) : Except Diagnostic Compilation :=
  match s.files with
  | [] => .error { message := "no sources provided" }
  | f :: _ => f.compile entryPoint

end Formula
