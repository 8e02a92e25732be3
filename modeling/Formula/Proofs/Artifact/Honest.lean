import Formula.Artifact
import Formula.Proofs.Store.Keeping
import Mathlib.Data.Set.Function

/-!
# Builds that can trust what is stored

A build takes a stored program on trust if it was stored under the digest of its own source. That
trust is justified in a directory where each stored program was compiled from a source with the
digest that it is stored under, as long as no two sources have the same digest. Builds leave such
directories only.

## Main definitions

* `compileText`: what a source text compiles to
* `Contents.Honest known`: a stored program was compiled from one of the known sources
* `Artifact.EndsRight`: a build ended as its own source has it, or could not access a file

## Main results

* `Artifact.compileSource_eq`: the name of a file plays no part in what its text compiles to
* `Artifact.build_keeps`: a build among honest files leaves honest files, and ends right
-/

namespace Formula

/-! ## Compiling a text -/

/-- What a source text compiles to. The file has no name, which plays no part. -/
def compileText (source : String) : Except Diagnostic Compilation :=
  (SourceFile.ofText 0 "" source).compile defaultEntryPoint

/-- Scanning looks at the text of a file and the starts of its lines, and not at its name. -/
theorem Scanned.scanFrom_rename (f : SourceFile) (name : String) (s : Scanned) (p : Place) :
    Scanned.scanFrom { f with name := name } s p = Scanned.scanFrom f s p := by
  induction hn : p.rest.length using Nat.strongRecOn generalizing s p with
  | _ n ih =>
    rw [Scanned.scanFrom, Scanned.scanFrom]
    split
    · rfl
    · rename_i c rest hrest
      split
      · rfl
      · rename_i l q hl
        -- What is left behind a lexeme is shorter than what was left before it.
        have hle := length_of_lexeme hl
        refine ih q.rest.length ?_ _ q rfl
        simp only [Place.behind_rest] at hle
        rw [← hn, hrest, List.length_cons]
        omega

theorem SourceFile.compile_rename (f : SourceFile) (name entryPoint : String) :
    SourceFile.compile { f with name := name } entryPoint = f.compile entryPoint := by
  have hscan : Token.scan { f with name := name } = Token.scan f :=
    Scanned.scanFrom_rename f name {} _
  simp only [SourceFile.compile, SourceFile.program, hscan]
  rfl

theorem Sources.compile_single (name source : String) :
    (Sources.single name source).compile defaultEntryPoint = compileText source :=
  SourceFile.compile_rename (SourceFile.ofText 0 "" source) name defaultEntryPoint

/-- **The name of a file plays no part** in what its text compiles to. -/
theorem Artifact.compileSource_eq (stem source : String) :
    compileSource stem source = compileText source :=
  SourceFile.compile_rename (SourceFile.ofText 0 "" source) (sourceFileName stem) defaultEntryPoint

/-! ## What files hold -/

namespace Contents

/-- The stored program that can be read back from a file. -/
def decoded? : Contents → Option StoredProgram
  | text _ => none
  | program stored => stored.readBack?

/-- **A file is honest**: if a stored program can be read back from it, then it was compiled from a
known source, and is stored under the digest of that source. -/
def Honest (known : Set String) (contents : Contents) : Prop :=
  ∀ stored, contents.decoded? = some stored →
    ∃ source ∈ known, Sha256.digestText source = stored.digest ∧
      compileText source = .ok stored.compilation

variable {known : Set String} {contents : Contents}

theorem honest_of_decoded?_eq_none (h : contents.decoded? = none) : contents.Honest known := by
  intro stored hs
  rw [h] at hs
  cases hs

theorem honest_text (known : Set String) (s : String) : (text s).Honest known :=
  honest_of_decoded?_eq_none rfl

/-- What a build stores is honest. -/
theorem honest_program {source : String} {c : Compilation} (hk : source ∈ known)
    (hc : compileText source = .ok c) :
    (program ⟨Sha256.digestText source, c⟩).Honest known := by
  intro stored hs
  cases StoredProgram.eq_of_readBack? hs
  exact ⟨source, hk, rfl, hc⟩

/-- What is reused can be read back, under the digest asked for. -/
theorem decoded?_of_reusable? {digest : String} {c : Compilation}
    (h : reusable? digest (.ok contents) = some c) : contents.decoded? = some ⟨digest, c⟩ := by
  cases contents with
  | text s => cases h
  | program stored =>
    simp only [reusable?] at h
    split at h
    · rename_i t ht
      split at h
      · subst digest
        cases h
        exact ht
      · cases h
    · cases h

/-- **What is reused from honest files is what compiling gives**, if no two known sources have the
same digest. -/
theorem compileText_of_reusable? (hinj : Set.InjOn Sha256.digestText known) {source : String}
    (hk : source ∈ known) {found : Except FileFailure Contents}
    (hfound : ∀ contents, found = .ok contents → contents.Honest known) {c : Compilation}
    (h : reusable? (Sha256.digestText source) found = some c) : compileText source = .ok c := by
  cases found with
  | error e => cases h
  | ok contents =>
    obtain ⟨other, hother, hdigest, hcompile⟩ := hfound contents rfl _ (decoded?_of_reusable? h)
    rw [← hinj hother hk hdigest]
    exact hcompile

end Contents

/-! ## Builds -/

namespace Artifact

/-- **A build ended right**: in an artifact of its own source with what that compiles to, in the
error that its source does not compile with, or because a file could not be accessed. -/
def EndsRight (place : Option String) (name source : String) (vars : List Variable) :
    Except BuildError Artifact → Prop
  | .ok a => ∃ c cached, compileText source = .ok c ∧
      a = ⟨source, Sha256.digestText source, c, vars, fileStem name (Sha256.digestText source),
        place, cached⟩
  | .error (.compile d) => compileText source = .error d
  | .error (.access _ _) => True
  | .error (.validation _) => False

variable {known : Set String} {directory name source : String} {place : Option String}
  {vars : List Variable}

theorem compileAndStore_keeps (hk : source ∈ known) :
    (compileAndStore directory (fileStem name (Sha256.digestText source)) source
      (Sha256.digestText source) fun c => ⟨source, Sha256.digestText source, c, vars,
        fileStem name (Sha256.digestText source), place, false⟩).Keeps
      (Contents.Honest known) (EndsRight place name source vars) := by
  refine ⟨Contents.honest_text known source, fun answer => ?_⟩
  cases answer with
  | error e => trivial
  | ok _ =>
    dsimp only
    rw [compileSource_eq]
    cases hc : compileText source with
    | error d => exact hc
    | ok c =>
      refine ⟨Contents.honest_program hk hc, fun answer => ?_⟩
      cases answer with
      | error e => trivial
      | ok _ => exact ⟨c, false, hc, rfl⟩

/-- **A build among honest files leaves honest files and ends right**, whatever fails and whatever
others do to the files in the meantime. -/
theorem build_keeps (hinj : Set.InjOn Sha256.digestText known) (hk : source ∈ known) :
    (build directory place name source vars).Keeps (Contents.Honest known)
      (EndsRight place name source vars) := by
  have hfresh := @compileAndStore_keeps known directory name source place vars hk
  intro made
  cases made with
  | error e => trivial
  | ok _ =>
    intro found _
    dsimp only
    split
    · intro stored hstored
      dsimp only
      cases hr : reusable? (Sha256.digestText source) stored with
      | some c => exact ⟨c, true, Contents.compileText_of_reusable? hinj hk hstored hr, rfl⟩
      | none => exact hfresh
    · exact hfresh

end Artifact

end Formula
