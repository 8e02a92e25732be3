import Formula.Artifact.Slug
import Formula.Artifact.Stored
import Formula.Digest.Sha256
import Formula.Registry.Validation
import Formula.Store.Task

/-!
# Artifacts

A build compiles assembled source text and leaves two files in a directory: the source, and the
stored program. They are named after the evaluator and the digest of the source. A later build
of the same source in the same directory takes the stored program instead of compiling again, if the
source file still holds the source and the stored program has its digest.

## Main definitions

* `Artifact`: what a build yields.
* `BuildError`: why a build fails.
* `Artifact.build`: a build, as work on the files of a directory.

## Main results

* `reusable?_eq_some`: a program is reused only if it was stored under the digest asked for.
-/

namespace Formula

/-- What a file of a build holds. -/
inductive Contents where
  | text (text : String)
  | program (stored : StoredProgram)

/-- The text that a file holds, if it holds one. -/
def Contents.text? : Contents → Option String
  | text s => some s
  | program _ => none

/-- What a build yields. -/
structure Artifact where
  source : String
  digest : String
  compilation : Compilation
  /-- The variables as they were declared at the build. -/
  vars : List Variable
  /-- The names of the two files without their endings. -/
  stem : String
  /-- The directory of the files; none is a private one. -/
  directory : Option String
  /-- Whether a stored program was taken. -/
  cached : Bool

/-- Why a build fails. -/
inductive BuildError where
  | validation (error : ValidationError)
  | compile (diagnostic : Diagnostic)
  | access (path : String) (failure : FileFailure)
deriving Repr, DecidableEq

/-- The wording of an error. -/
def BuildError.message : BuildError → String
  | validation e => e.message
  | compile d => d.text
  | access path failure => "failed to access " ++ path ++ ": " ++ failure.message

/-- The name of the file with the source. -/
def sourceFileName (stem : String) : String := stem ++ ".eek"

/-- The name of the file with the stored program. -/
def programFileName (stem : String) : String := stem ++ ".json"

/-- How many characters of a digest are in the names of files. -/
def digestPrefixLength : Nat := 12

/-- The names of the files for an evaluator and a digest, without their endings. -/
def fileStem (name digest : String) : String :=
  slug name ++ "-" ++ String.ofList (digest.toList.take digestPrefixLength)

/-- The stored program that a file holds, if it can be read back and has the digest. -/
def reusable? (digest : String) : Except FileFailure Contents → Option Compilation
  | .ok (.program stored) =>
    match stored.readBack? with
    | some found => if found.digest = digest then some found.compilation else none
    | none => none
  | _ => none

theorem reusable?_eq_some {digest : String} {found : Except FileFailure Contents}
    {c : Compilation} (h : reusable? digest found = some c) :
    found = .ok (.program ⟨digest, c⟩) := by
  unfold reusable? at h
  split at h
  · rename_i stored
    split at h
    · rename_i t ht
      cases StoredProgram.eq_of_readBack? ht
      split at h
      · subst_vars
        cases h
        rfl
      · cases h
    · cases h
  · cases h

/-- Whether a file holds just the given text. -/
def holdsText (text : String) : Except FileFailure Contents → Bool
  | .ok (.text found) => found == text
  | _ => false

namespace Artifact

/-- The result type of the formula. -/
def resultType (a : Artifact) : Ty :=
  a.compilation.types.result

/-- The declaration of a variable at the build. -/
def declared? (a : Artifact) (name : String) : Option Variable :=
  a.vars.find? (·.name == name)

/-- Whether the source file in a directory holds the source and the program file is there. -/
def isOnDisk (a : Artifact) (files : Store Contents) (directory : Route) : Bool :=
  holdsText a.source (files.read (directory.enter (sourceFileName a.stem))) &&
    (files.find? (directory.enter (programFileName a.stem))).isSome

/-- The source is compiled under the name of its file. -/
def compileSource (stem source : String) : Except Diagnostic Compilation :=
  (SourceFile.ofText 0 (sourceFileName stem) source).compile defaultEntryPoint

/-- Writes the source, compiles it and stores the program. The path of the directory is for
messages; `make` is the artifact for a program. -/
def compileAndStore (directory stem source digest : String) (make : Compilation → Artifact) :
    FileTask Contents (Except BuildError Artifact) :=
  let failed (file : String) (e : FileFailure) : FileTask Contents (Except BuildError Artifact) :=
    .done (.error (.access (joinPath directory file) e))
  .write (sourceFileName stem) (.text source) fun
    | .error e => failed (sourceFileName stem) e
    | .ok () =>
      match compileSource stem source with
      | .error d => .done (.error (.compile d))
      | .ok c =>
        .write (programFileName stem) (.program ⟨digest, c⟩) fun
          | .error e => failed (programFileName stem) e
          | .ok () => .done (.ok (make c))

/-- Builds source text for an evaluator with the given name and variables. The path of the directory
is for messages; `place` is what the artifact knows of it. -/
def build (directory : String) (place : Option String) (name source : String)
    (vars : List Variable) : FileTask Contents (Except BuildError Artifact) :=
  let digest := Sha256.digestText source
  let stem := fileStem name digest
  let artifact (cached : Bool) (c : Compilation) : Artifact :=
    ⟨source, digest, c, vars, stem, place, cached⟩
  let fresh := compileAndStore directory stem source digest (artifact false)
  .makeDirectory fun
    | .error e => .done (.error (.access directory e))
    | .ok () =>
      .read (sourceFileName stem) fun found =>
        if holdsText source found then
          .read (programFileName stem) fun stored =>
            match reusable? digest stored with
            | some c => .done (.ok (artifact true c))
            | none => fresh
        else fresh

end Artifact

end Formula
