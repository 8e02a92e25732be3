import Formula.Proofs.Artifact.Honest

/-!
# Builds that share a directory

Any number of builds may be at work in one directory. Their steps are taken in any order, each of
them may fail, and in between files are lost or overwritten. The files of a build are named after a
prefix of a digest only, so builds of different sources may well get in each other's way.

## Main definitions

* `BuildCall`: what a build is asked for
* `Site`: a directory with the builds that have begun in it
* `Move`, `Site.after`: what happens at a site

## Main results

* `Site.Sound.after`: what one move preserves
* `Site.Sound.run`: what any number of moves preserves
* `Site.builds_end_right`: every build that ends has compiled its own source
-/

namespace Formula

/-- What a build is asked for. -/
structure BuildCall where
  name : String
  source : String
  vars : List Variable

/-- The work of a build in a directory. -/
def BuildCall.task (directory : String) (call : BuildCall) :
    FileTask Contents (Except BuildError Artifact) :=
  Artifact.build directory (some directory) call.name call.source call.vars

/-- A build that has begun, with what is left of its work. -/
structure OpenBuild where
  call : BuildCall
  rest : FileTask Contents (Except BuildError Artifact)

namespace OpenBuild

/-- Whether a build has ended with a program that it found. -/
def reuses (b : OpenBuild) : Bool :=
  match b.rest with
  | .done (.ok a) => a.cached
  | _ => false

theorem exists_of_reuses {b : OpenBuild} (h : b.reuses = true) :
    ∃ a, b.rest = .done (.ok a) ∧ a.cached = true := by
  unfold reuses at h
  split at h
  · rename_i a hrest
    exact ⟨a, hrest, h⟩
  · cases h

end OpenBuild

/-- A directory with the builds that have begun in it, among all other files. -/
structure Site where
  files : Store Contents
  builds : List OpenBuild := []

/-- What happens at a site. -/
inductive Move where
  | start (call : BuildCall)
  /-- A build takes its next step. -/
  | proceed (build : Nat)
  /-- The next step of a build fails. -/
  | fail (build : Nat) (failure : FileFailure)
  | delete (path : Path)
  /-- Something else is put in the place of a file, if no program can be read back from it. -/
  | overwrite (place : Path) (name : String) (contents : Contents)

namespace Site

/-- What a site is after a move. -/
def after (directory : String) (s : Site) : Move → Site
  | .start call => { s with builds := s.builds ++ [⟨call, call.task directory⟩] }
  | .proceed i =>
    match s.builds[i]? with
    | some b =>
      let (rest, files) := b.rest.step (.ofText directory) s.files
      ⟨files, s.builds.set i { b with rest }⟩
    | none => s
  | .fail i e =>
    match s.builds[i]? with
    | some b => { s with builds := s.builds.set i { b with rest := b.rest.fail e } }
    | none => s
  | .delete path => { s with files := s.files.remove path }
  | .overwrite place name contents =>
    if contents.decoded?.isNone then
      { s with files := s.files.set (place ++ [name]) (.file contents) }
    else s

/-- What a site is after several moves, one after the other. -/
def run (directory : String) (s : Site) (moves : List Move) : Site :=
  moves.foldl (after directory) s

/-- What the builds were asked for. -/
def calls (s : Site) : List BuildCall :=
  s.builds.map OpenBuild.call

/-- The sources that builds were asked for. -/
def sources (s : Site) : Set String :=
  {source | ∃ call ∈ s.calls, call.source = source}

variable {directory : String} {known : Set String} {s : Site}

/-- A build keeps what it was asked for while it goes on. -/
theorem calls_set {i : Nat} {b : OpenBuild} (hb : s.builds[i]? = some b) (files : Store Contents)
    (rest : FileTask Contents (Except BuildError Artifact)) :
    calls ⟨files, s.builds.set i { b with rest }⟩ = s.calls := by
  have hself : s.builds.set i b = s.builds := by
    obtain ⟨hi, rfl⟩ := List.getElem?_eq_some_iff.mp hb
    exact List.set_getElem_self hi
  calc calls ⟨files, s.builds.set i { b with rest }⟩
    _ = (s.builds.map OpenBuild.call).set i b.call := List.map_set
    _ = (s.builds.set i b).map OpenBuild.call := List.map_set.symm
    _ = s.calls := by rw [hself, calls]

theorem calls_subset_after (s : Site) (m : Move) :
    s.calls ⊆ (s.after directory m).calls := by
  cases m with
  | start call =>
    simp only [after, calls, List.map_append]
    exact List.subset_append_left _ _
  | proceed i | fail i _ =>
    simp only [after]
    split
    · rename_i b hb
      exact (calls_set hb _ _).symm ▸ List.Subset.refl _
    · exact List.Subset.refl _
  | delete path => exact List.Subset.refl _
  | overwrite place name contents =>
    simp only [after]
    split <;> exact List.Subset.refl _

theorem sources_subset_after (s : Site) (m : Move) : s.sources ⊆ (s.after directory m).sources := by
  rintro source ⟨call, hcall, rfl⟩
  exact ⟨call, calls_subset_after s m hcall, rfl⟩

theorem sources_subset_run (s : Site) (moves : List Move) :
    s.sources ⊆ (s.run directory moves).sources := by
  induction moves generalizing s with
  | nil => exact Set.Subset.rfl
  | cons m moves ih => exact (sources_subset_after s m).trans (ih (s.after directory m))

/-- **A site is sound**: its files are honest, and what is left of each build keeps them so and ends
right. -/
structure Sound (directory : String) (known : Set String) (s : Site) : Prop where
  files : s.files.All (Contents.Honest known)
  builds : ∀ b ∈ s.builds, b.rest.Keeps (Contents.Honest known)
    (Artifact.EndsRight (some directory) b.call.name b.call.source b.call.vars)

namespace Sound

theorem set {files : Store Contents} (h : s.Sound directory known)
    (hfiles : files.All (Contents.Honest known)) (i : Nat) {b : OpenBuild}
    {rest : FileTask Contents (Except BuildError Artifact)}
    (hrest : rest.Keeps (Contents.Honest known)
      (Artifact.EndsRight (some directory) b.call.name b.call.source b.call.vars)) :
    Sound directory known ⟨files, s.builds.set i { b with rest }⟩ where
  files := hfiles
  builds := by
    intro b' hb'
    rcases List.mem_or_eq_of_mem_set hb' with hmem | rfl
    · exact h.builds b' hmem
    · exact hrest

/-- **A move preserves soundness**, if the sources of all builds are known and no two of them have
the same digest. -/
theorem after (h : s.Sound directory known) (hinj : Set.InjOn Sha256.digestText known) (m : Move)
    (hknown : (s.after directory m).sources ⊆ known) :
    (s.after directory m).Sound directory known := by
  cases m with
  | start call =>
    refine ⟨h.files, fun b hb => ?_⟩
    rcases List.mem_append.mp hb with hb | hb
    · exact h.builds b hb
    · cases List.mem_singleton.mp hb
      refine Artifact.build_keeps hinj (hknown ⟨call, ?_, rfl⟩)
      simp [Site.after, calls]
  | proceed i =>
    simp only [Site.after]
    split
    · rename_i b hb
      obtain ⟨hrest, hfiles⟩ := (h.builds b (List.mem_of_getElem? hb)).step h.files _
      exact h.set hfiles i hrest
    · exact h
  | fail i e =>
    simp only [Site.after]
    split
    · rename_i b hb
      exact h.set h.files i ((h.builds b (List.mem_of_getElem? hb)).fail e)
    · exact h
  | delete path => exact ⟨h.files.remove path, h.builds⟩
  | overwrite place name contents =>
    simp only [Site.after]
    split
    · rename_i hnone
      refine ⟨h.files.set place name ?_, h.builds⟩
      rintro _ ⟨⟩
      exact Contents.honest_of_decoded?_eq_none (Option.isNone_iff_eq_none.mp hnone)
    · exact h

/-- **Any number of moves preserves soundness.** -/
theorem run (h : s.Sound directory known) (hinj : Set.InjOn Sha256.digestText known)
    (moves : List Move) (hknown : (s.run directory moves).sources ⊆ known) :
    (s.run directory moves).Sound directory known := by
  induction moves generalizing s with
  | nil => exact h
  | cons m moves ih =>
    -- The sources of the builds that have begun so far are among those at the end.
    exact ih (h.after hinj m ((sources_subset_run _ moves).trans hknown)) hknown

end Sound

/-- **Builds that share a directory never get in each other's way**: from files from which no
program can be read back, and whatever happens after that, every build that ends in an artifact ends
in one of its own source, with what compiling just this source gives. A build of a source that does
not compile ends in the error of that source, if it could access its files. -/
theorem builds_end_right (directory : String) (files : Store Contents)
    (hfiles : files.All fun contents => contents.decoded? = none) (moves : List Move)
    (hinj : Set.InjOn Sha256.digestText (run directory ⟨files, []⟩ moves).sources) :
    ∀ b ∈ (run directory ⟨files, []⟩ moves).builds, ∀ result, b.rest = .done result →
      (∀ a, result = .ok a → compileText b.call.source = .ok a.compilation ∧
        a.source = b.call.source ∧ a.vars = b.call.vars) ∧
      (∀ d, compileText b.call.source = .error d →
        result = .error (.compile d) ∨ ∃ path failure, result = .error (.access path failure)) ∧
      ∀ d, result = .error (.compile d) → compileText b.call.source = .error d := by
  have hstart : Sound directory (run directory ⟨files, []⟩ moves).sources ⟨files, []⟩ :=
    ⟨fun path contents h => Contents.honest_of_decoded?_eq_none (hfiles path contents h), nofun⟩
  have hsound := hstart.run hinj moves Set.Subset.rfl
  intro b hb result hresult
  have hend := hsound.builds b hb
  rw [hresult] at hend
  cases result with
  | ok a =>
    obtain ⟨c, cached, hc, rfl⟩ := hend
    refine ⟨?_, ?_, nofun⟩
    · rintro _ ⟨⟩
      exact ⟨hc, rfl, rfl⟩
    · intro d hd
      cases hc.symm.trans hd
  | error e =>
    cases e with
    | validation x => exact hend.elim
    | compile d =>
      refine ⟨nofun, ?_, ?_⟩
      · intro d' hd'
        cases (show compileText b.call.source = .error d from hend).symm.trans hd'
        exact .inl rfl
      · rintro _ ⟨⟩
        exact hend
    | access path failure => exact ⟨nofun, fun _ _ => .inr ⟨path, failure, rfl⟩, nofun⟩

/-- A build of a formula that returns a number. -/
def constantBuild (name number : String) : BuildCall where
  name := name
  source := "func evaluate() \x7b\nreturn " ++ number ++ "\n\x7d\n"
  vars := []

/-- Two builds of different sources take turns, and one of them cannot write its source. A third
one under a name with the same slug finds the program of the first. -/
def turns : List Move :=
  [.start (constantBuild "Tax rate" "1"), .start (constantBuild "tax-rate" "2"),
    .proceed 0, .proceed 1, .proceed 0, .proceed 1, .proceed 0, .fail 1 .isDirectory, .proceed 0,
    .start (constantBuild "TAX RATE" "1"), .proceed 2, .proceed 2, .proceed 2]

theorem sources_turns : (run "" ⟨{}, []⟩ turns).sources =
    {(constantBuild "Tax rate" "1").source, (constantBuild "tax-rate" "2").source} := by
  have hcalls : (run "" ⟨{}, []⟩ turns).calls = [constantBuild "Tax rate" "1",
      constantBuild "tax-rate" "2", constantBuild "TAX RATE" "1"] := rfl
  ext source
  simp only [sources, hcalls, List.mem_cons, List.not_mem_nil, or_false, Set.mem_ofPred_eq,
    Set.mem_insert_iff, Set.mem_singleton_iff]
  constructor
  · rintro ⟨call, rfl | rfl | rfl, rfl⟩
    · exact .inl rfl
    · exact .inr rfl
    · exact .inl rfl
  · rintro (rfl | rfl)
    · exact ⟨_, .inl rfl, rfl⟩
    · exact ⟨_, .inr (.inl rfl), rfl⟩

theorem builds_end_right_turns :
    ∃ b ∈ (run "" ⟨{}, []⟩ turns).builds, ∃ a, b.rest = .done (.ok a) ∧ a.cached = true ∧
      compileText b.call.source = .ok a.compilation := by
  have hinj : Set.InjOn Sha256.digestText (run "" ⟨{}, []⟩ turns).sources := by
    rw [sources_turns, Set.injOn_pair]
    exact fun h => absurd h (by decide +kernel)
  obtain ⟨b, hb⟩ : ∃ b, (run "" ⟨{}, []⟩ turns).builds[2]? = some b := ⟨_, rfl⟩
  have hend : (run "" ⟨{}, []⟩ turns).builds[2]?.any OpenBuild.reuses = true := by decide +kernel
  rw [hb, Option.any_some] at hend
  obtain ⟨a, ha, hcached⟩ := OpenBuild.exists_of_reuses hend
  have hmem := List.mem_of_getElem? hb
  exact ⟨b, hmem, a, ha, hcached,
    ((builds_end_right "" {} Store.all_empty turns hinj b hmem _ ha).1 a rfl).1⟩

end Site

end Formula
