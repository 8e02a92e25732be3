import Formula.Proofs.Artifact.FileName
import Formula.Proofs.Store.Changes

/-!
# Where the files of a build lie

The name of an evaluator is free, and still the files of its builds lie in the directory of the build
itself: their names are single steps of a path, whatever the evaluator is called. A build changes no
other files, and behind a build that succeeds both files are there.

## Main definitions

* `fileNames`: the names of the two files of a build

## Main results

* `isStep_of_isSlug`: a slug with an ending is a single step of a path
* `Artifact.writesOnly_build`: a build writes its two files only
* `Artifact.exists_of_build`: where the files of a build lie that succeeds
* `files_are_safely_named`: names of files and where these lie, for every evaluator
-/

namespace Formula

open Text

/-- The names of the two files of a build. -/
def fileNames (stem : String) : List String :=
  [sourceFileName stem, programFileName stem]

/-- A text that begins with a small letter or a digit, without a slash, is a single step. -/
theorem isStep_of_head {name : String} {c : Char} {cs : List Char} (hname : name.toList = c :: cs)
    (hc : isSlugChar c = true) (hslash : '/' ∉ name.toList) : IsStep name := by
  have hne {text : String} (htext : text.toList.head? ≠ some c) : name ≠ text := by
    rintro rfl
    exact htext (by rw [hname]; rfl)
  have hdot : c ≠ '.' := by
    rintro rfl
    exact absurd hc (by decide)
  refine ⟨hslash, ?_⟩
  rw [PathStep.ofText, if_neg (hne (by simp)), if_neg (hne ?_), if_neg (hne ?_)]
  · exact fun h => hdot (Option.some.inj h).symm
  · exact fun h => hdot (Option.some.inj h).symm

/-- **A slug with an ending is a single step of a path.** -/
theorem isStep_of_isSlug {stem ending : String} (h : IsSlug stem.toList)
    (hending : '/' ∉ ending.toList) : IsStep (stem ++ ending) := by
  obtain ⟨c, cs, hstem, hc⟩ := h.exists_head
  refine isStep_of_head (by rw [String.toList_append, hstem, List.cons_append]) hc ?_
  rw [String.toList_append, List.mem_append]
  rintro (hslash | hslash)
  · exact (h.not_special _ hslash).2.1 rfl
  · exact hending hslash

theorem isStep_of_mem_fileNames {name source file : String}
    (h : file ∈ fileNames (fileStem name (Sha256.digestText source))) : IsStep file := by
  have hstem := isSlug_fileStem name source
  rcases List.mem_pair.mp h with rfl | rfl
  · exact isStep_of_isSlug hstem (by decide)
  · exact isStep_of_isSlug hstem (by decide)

theorem sourceFileName_ne_programFileName (stem : String) :
    sourceFileName stem ≠ programFileName stem := by
  intro h
  have := congrArg String.toList h
  simp [sourceFileName, programFileName] at this

namespace Artifact

variable {directory stem name source digest : String} {place : Option String}
  {vars : List Variable} {make : Compilation → Artifact} {r : Route} {s s' : Store Contents}
  {a : Artifact}

/-! ## What a build writes -/

theorem writesOnly_compileAndStore :
    (compileAndStore directory stem source digest make).WritesOnly (fileNames stem) := by
  refine ⟨List.mem_cons_self, fun answer => ?_⟩
  cases answer with
  | error e => trivial
  | ok _ =>
    dsimp only
    cases compileSource stem source with
    | error d => trivial
    | ok c =>
      refine ⟨List.mem_cons_of_mem _ List.mem_cons_self, fun answer => ?_⟩
      cases answer <;> trivial

/-- **A build writes its two files only.** -/
theorem writesOnly_build : (build directory place name source vars).WritesOnly
    (fileNames (fileStem name (Sha256.digestText source))) := by
  intro made
  cases made with
  | error e => trivial
  | ok _ =>
    intro found
    dsimp only
    split
    · intro stored
      dsimp only
      split
      · trivial
      · exact writesOnly_compileAndStore
    · exact writesOnly_compileAndStore

/-! ## Builds that succeed -/

/-- The files of a program that was compiled lie in the directory. -/
theorem exists_of_compileAndStore
    (h : (compileAndStore directory stem source digest make).run r s = (.ok a, s')) :
    ∃ c path, a = make c ∧ s'.LeadsTo r path ∧
      s'.node? (path ++ [sourceFileName stem]) = some (.file (.text source)) ∧
      s'.node? (path ++ [programFileName stem]) = some (.file (.program ⟨digest, c⟩)) := by
  simp only [compileAndStore, FileTask.run] at h
  cases hsource : s.write (r.enter (sourceFileName stem)) (.text source) with
  | error e =>
    simp only [hsource, Store.after, FileTask.run] at h
    cases h
  | ok s₁ =>
    simp only [hsource, Store.after] at h
    cases hc : compileSource stem source with
    | error d =>
      simp only [hc, FileTask.run] at h
      cases h
    | ok c =>
      simp only [hc, FileTask.run] at h
      cases hprogram : s₁.write (r.enter (programFileName stem)) (.program ⟨digest, c⟩) with
      | error e =>
        simp only [hprogram, Store.after, FileTask.run] at h
        cases h
      | ok s₂ =>
        simp only [hprogram, Store.after, FileTask.run, Prod.mk.injEq, Except.ok.injEq] at h
        obtain ⟨rfl, rfl⟩ := h
        obtain ⟨path, hleads, hne, rfl⟩ := Store.exists_of_write_enter hsource
        obtain ⟨path', hleads', hne', rfl⟩ := Store.exists_of_write_enter hprogram
        have hset := Store.extends_set (n := .file (.text source)) (by simp) hne
        have hset' := Store.extends_set (n := .file (.program ⟨digest, c⟩)) (by simp) hne'
        -- The path still leads to the same directory when the source is written.
        obtain rfl : path = path' := (hset.leadsTo hleads).unique hleads'
        refine ⟨c, path, rfl, hset'.leadsTo hleads', ?_, ?_⟩
        · rw [Store.node?_set (by simp), if_neg, Store.node?_set (by simp), if_pos rfl]
          simpa using sourceFileName_ne_programFileName stem
        · rw [Store.node?_set (by simp), if_pos rfl]

theorem of_holdsText {text : String} {found : Except FileFailure Contents}
    (h : holdsText text found = true) : found = .ok (.text text) := by
  unfold holdsText at h
  split at h
  · rw [beq_iff_eq.mp h]
  · cases h

/-- **Where the files of a build lie that succeeds**: in the directory, with its source and with the
program that it ends in. -/
theorem exists_of_build
    (h : (build directory place name source vars).run r s = (.ok a, s')) :
    ∃ path, s'.LeadsTo r path ∧
      s'.node? (path ++ [sourceFileName (fileStem name (Sha256.digestText source))]) =
        some (.file (.text source)) ∧
      s'.node? (path ++ [programFileName (fileStem name (Sha256.digestText source))]) =
        some (.file (.program ⟨Sha256.digestText source, a.compilation⟩)) := by
  rcases hmade : s.makeDirectories r with ⟨_ | ⟨⟩, s₁⟩
  · simp only [build, FileTask.run, hmade, Prod.mk.injEq] at h
    cases h.1
  simp only [build, FileTask.run, hmade] at h
  split at h
  · rename_i hsource
    simp only [FileTask.run] at h
    split at h
    · -- The program was found, so both files were there.
      rename_i c hreused
      simp only [FileTask.run, Prod.mk.injEq, Except.ok.injEq] at h
      obtain ⟨rfl, rfl⟩ := h
      obtain ⟨path, hleads, hfile⟩ := Store.exists_of_read (of_holdsText hsource)
      obtain ⟨path', hleads', hfile'⟩ := Store.exists_of_read (reusable?_eq_some hreused)
      obtain rfl : path = path' := hleads.unique hleads'
      exact ⟨path, hleads, hfile, hfile'⟩
    · obtain ⟨c, path, rfl, hfiles⟩ := exists_of_compileAndStore h
      exact ⟨path, hfiles⟩
  · obtain ⟨c, path, rfl, hfiles⟩ := exists_of_compileAndStore h
    exact ⟨path, hfiles⟩

end Artifact

/-! ## Every name -/

/-- **The files of every evaluator are safely named.** What stands for its name is a slug: it is not
empty, has no hyphen at an end and no two next to each other, and no dot, separator or blank. It
stands for itself, as no other text does, and is the same for names that differ in nothing but their
style. So the path of each file of a build leads to the directory of the build and from there to the
file; the build changes no other file; and if it succeeds, both files lie in the directory. -/
theorem files_are_safely_named (name : String) :
    IsSlug (slug name).toList ∧
    (slug name ≠ "" ∧ (slug name).toList.head? ≠ some '-' ∧ (slug name).toList.getLast? ≠ some '-' ∧
      ¬ ['-', '-'] <:+: (slug name).toList ∧
      ∀ c ∈ (slug name).toList, c ≠ '.' ∧ c ≠ '/' ∧ c ≠ '\\' ∧ isBlank c = false) ∧
    slug (slug name) = slug name ∧
    (slug name = name ↔ IsSlug name.toList) ∧
    (∀ other, Relation.EqvGen Restyled name other → slug name = slug other) ∧
    ∀ (directory source : String) (place : Option String) (vars : List Variable)
      (s : Store Contents),
      let stem := fileStem name (Sha256.digestText source)
      let ran := (Artifact.build directory place name source vars).run (.ofText directory) s
      (∀ file ∈ fileNames stem,
        Route.ofText (joinPath directory file) = (Route.ofText directory).enter file ∧
        ∀ (t : Store Contents) path step,
          t.approach (.ofText (joinPath directory file)) = .ok (path, step) ↔
            step = .enter file ∧ t.LeadsTo (.ofText directory) path) ∧
      s.ChangesIn (.ofText directory) (fileNames stem) ran.2 ∧
      ∀ a, ran.1 = .ok a → ∃ path, ran.2.LeadsTo (.ofText directory) path ∧
        ran.2.node? (path ++ [sourceFileName stem]) = some (.file (.text source)) ∧
        ran.2.node? (path ++ [programFileName stem]) =
          some (.file (.program ⟨Sha256.digestText source, a.compilation⟩)) := by
  have hslug := isSlug_slug name
  obtain ⟨hne, -, hhead, hlast, hdouble⟩ := isSlug_iff.mp hslug
  refine ⟨hslug, ⟨fun h => hne (by rw [h]; rfl), hhead, hlast, hdouble, hslug.not_special⟩,
    slug_of_isSlug hslug, slug_eq_self_iff, fun other => slug_eq_of_eqvGen, ?_⟩
  intro directory source place vars s stem ran
  refine ⟨fun file hfile => ?_, Artifact.writesOnly_build.run _ s, fun a ha => ?_⟩
  · have hpath := Route.ofText_joinPath (isStep_of_mem_fileNames hfile) directory
    exact ⟨hpath, fun t path step => by rw [hpath, Store.approach_enter_iff]⟩
  · exact Artifact.exists_of_build (Prod.ext ha rfl)

/-- A name in two styles. -/
theorem restyled_flow_rate : Relation.EqvGen Restyled "Flow rate/2" "  flow rate: 2\t" := by
  have hcase : Restyled "Flow rate/2" "flow rate/2" := .letterCase (by simp)
  have hslash : IsGap ['/'] :=
    ⟨List.cons_ne_nil _ _, List.forall_mem_singleton.mpr rfl⟩
  have hcolon : IsGap [':', ' '] :=
    ⟨List.cons_ne_nil _ _, List.forall_mem_cons.mpr ⟨rfl, List.forall_mem_singleton.mpr rfl⟩⟩
  have hgap : Restyled "flow rate/2" "flow rate: 2" :=
    .gap (c := 'e') (d := '2') rfl rfl hslash hcolon ['f', 'l', 'o', 'w', ' ', 'r', 'a', 't'] []
  have hblanks : Restyled "flow rate: 2" "  flow rate: 2\t" := .blanks rfl
  exact .trans _ _ _ (.rel _ _ hcase) (.trans _ _ _ (.rel _ _ hgap) (.rel _ _ hblanks))

/-- A formula that returns a number. -/
def constantSource : String := "func evaluate() \x7b\nreturn 1\n\x7d\n"

/-- A build of it in a directory whose path ends with a slash. -/
def flowRateBuild : Except BuildError Artifact × Store Contents :=
  (Artifact.build "out/" (some "out/") "Flow rate/2" constantSource []).run (.ofText "out/") {}

theorem isOk_flowRateBuild : flowRateBuild.1.isOk = true := by
  have hout : Route.ofText "out" = ⟨false, [.enter "out"]⟩ :=
    IsStep.ofText_eq ⟨by decide, by decide⟩
  have hroute : Route.ofText "out/" = ⟨false, [.enter "out", .empty]⟩ := by
    have hslash := Route.ofText_append_slash (show "out" ≠ "" by decide)
      (show '/' ∉ "".toList by decide)
    rw [hout] at hslash
    exact hslash
  rw [flowRateBuild, hroute]
  decide +kernel

theorem files_are_safely_named_flow_rate :
    slug "Flow rate/2" = slug "  flow rate: 2\t" ∧ ∃ a path, flowRateBuild.1 = .ok a ∧
      flowRateBuild.2.LeadsTo (.ofText "out/") path ∧
      flowRateBuild.2.approach (.ofText (joinPath "out/" (sourceFileName
        (fileStem "Flow rate/2" (Sha256.digestText constantSource))))) =
        .ok (path, .enter (sourceFileName
          (fileStem "Flow rate/2" (Sha256.digestText constantSource)))) := by
  obtain ⟨-, -, -, -, hstyle, hfiles⟩ := files_are_safely_named "Flow rate/2"
  obtain ⟨hpath, -, hthere⟩ := hfiles "out/" constantSource (some "out/") [] {}
  have hok := isOk_flowRateBuild
  cases ha : flowRateBuild.1 with
  | error e =>
    rw [ha] at hok
    cases hok
  | ok a =>
    obtain ⟨path, hleads, -⟩ := hthere a ha
    exact ⟨hstyle _ restyled_flow_rate, a, path, rfl, hleads,
      ((hpath _ List.mem_cons_self).2 _ path _).mpr ⟨rfl, hleads⟩⟩

end Formula
