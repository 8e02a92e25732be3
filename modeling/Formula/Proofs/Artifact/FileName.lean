import Formula.Proofs.Artifact.Honest
import Formula.Proofs.Artifact.Slug

/-!
# The names of the files of a build

The names of the files that a build writes are slugs with an ending, and are as long as the part that
stands for the name of the evaluator, with a part of the digest. So a first build in a private
directory can write its files, unless the name is too long.

## Main definitions

* `IsPlain`: a character of ASCII other than the first one
* `IsFileName`: a name that a file in a private directory may have

## Main results

* `isSlug_fileStem`: without its ending the name of a file is a slug
* `isFileName_fileStem`: the files of a build have such names
* `Store.write_private`: a file with such a name can be written
* `Artifact.build_private`: how a first build in a private directory ends
-/

namespace Formula

open Text

/-! ## Plain characters -/

/-- A character of ASCII other than the first one. -/
def IsPlain (c : Char) : Prop :=
  0 < c.toNat ∧ c.toNat < 128

instance (c : Char) : Decidable (IsPlain c) :=
  inferInstanceAs (Decidable (_ ∧ _))

/-- Of given characters it is computed that they are plain. -/
theorem isPlain_of_all {cs : List Char} (h : (cs.all fun c => decide (IsPlain c)) = true) :
    ∀ c ∈ cs, IsPlain c :=
  fun c hc => of_decide_eq_true (List.all_eq_true.mp h c hc)

theorem isPlain_of_isSlugChar {c : Char} (h : isSlugChar c = true) : IsPlain c := by
  have hlt := isAlphanum_lt (isAlphanum_of_isSlugChar h)
  refine ⟨Nat.pos_of_ne_zero fun hzero => ?_, hlt⟩
  have hc : Char.ofNat c.toNat = c := Char.ofNat_toNat c
  rw [hzero] at hc
  exact absurd (hc ▸ h) (by decide)

theorem byteLength_of_isPlain {cs : List Char} (h : ∀ c ∈ cs, IsPlain c) :
    byteLength cs = cs.length := by
  induction cs with
  | nil => rfl
  | cons c cs ih =>
    obtain ⟨hc, hcs⟩ := List.forall_mem_cons.mp h
    have hsize : c.utf8Size = 1 := Char.utf8Size_eq_one_iff.mpr (by
      rw [UInt32.le_iff_toNat_le]
      exact Nat.le_of_lt_succ hc.2)
    rw [byteLength_cons, ih hcs, hsize, List.length_cons, Nat.add_comm]

/-! ## File names -/

theorem isSlugChar_digitChar : ∀ n < 16, isSlugChar n.digitChar = true := by
  decide

theorem isSlugChar_toDigitsCore (fuel n : Nat) {cs : List Char}
    (hcs : ∀ c ∈ cs, isSlugChar c = true) :
    ∀ c ∈ Nat.toDigitsCore 16 fuel n cs, isSlugChar c = true := by
  induction fuel generalizing n cs with
  | zero => exact hcs
  | succ fuel ih =>
    have hdigit := isSlugChar_digitChar (n % 16) (Nat.mod_lt n (by decide))
    have hcons : ∀ c ∈ (n % 16).digitChar :: cs, isSlugChar c = true :=
      List.forall_mem_cons.mpr ⟨hdigit, hcs⟩
    rw [Nat.toDigitsCore]
    split
    · exact hcons
    · exact ih (n / 16) hcons

theorem isRun_wordText (w : UInt32) : IsRun (Sha256.wordText w) := by
  constructor
  · intro hnil
    obtain ⟨hzeros, hdigits⟩ := List.append_eq_nil_iff.mp hnil
    rw [hdigits] at hzeros
    cases hzeros
  · intro c hc
    rcases List.mem_append.mp hc with hc | hc
    · obtain rfl := List.eq_of_mem_replicate hc
      rfl
    · exact isSlugChar_toDigitsCore _ _ (List.forall_mem_nil _) c hc

/-- Digests are runs of small letters and digits. -/
theorem isRun_digestText (text : String) : IsRun (Sha256.digestText text).toList := by
  rw [Sha256.digestText, String.toList_ofList]
  constructor
  · rw [List.flatMap_cons]
    exact List.append_ne_nil_of_left_ne_nil (isRun_wordText _).ne_nil _
  · intro c hc
    obtain ⟨w, -, hw⟩ := List.mem_flatMap.mp hc
    exact (isRun_wordText w).chars c hw

/-- **The names of the files of a build are slugs**, without their endings. -/
theorem isSlug_fileStem (name text : String) :
    IsSlug (fileStem name (Sha256.digestText text)).toList := by
  have hdigest := isRun_digestText text
  have hpart : IsRun ((Sha256.digestText text).toList.take digestPrefixLength) :=
    ⟨fun hnil => hdigest.ne_nil ((List.take_eq_nil_iff.mp hnil).resolve_left (by decide)),
      fun c hc => hdigest.chars c (List.mem_of_mem_take hc)⟩
  have htext : (fileStem name (Sha256.digestText text)).toList =
      (slug name).toList ++ '-' :: (Sha256.digestText text).toList.take digestPrefixLength := by
    simp [fileStem]
  rw [htext]
  exact (isSlug_slug name).append_run hpart

/-- The names of the files of a build are plain. -/
theorem isPlain_fileStem (name text : String) :
    ∀ c ∈ (fileStem name (Sha256.digestText text)).toList, IsPlain c := by
  intro c hc
  rcases (isSlug_fileStem name text).chars c hc with hc | rfl
  · exact isPlain_of_isSlugChar hc
  · decide

theorem length_fileStem_le (name digest : String) :
    (fileStem name digest).toList.length ≤ (slug name).toList.length + 1 + digestPrefixLength := by
  simp only [fileStem, String.toList_append, String.toList_ofList, List.length_append,
    List.length_take]
  have hone : "-".toList.length = 1 := by decide
  omega

/-- How long what stands for a name in a file name may be: with a hyphen, a part of a digest and one
of the two endings it fits into the name of a file. -/
def maxSlugLength : Nat := 237

/-- The name of a file that can be written in any private directory. -/
def IsFileName (file : String) : Prop :=
  (∀ c ∈ file.toList, IsPlain c) ∧ file.toList.length ≤ maxNameBytes

/-- A file of a build has such a name, with an ending of at most five characters. -/
theorem isFileName_fileStem {name : String} (h : (slug name).toList.length ≤ maxSlugLength)
    (text : String) {ending : String} (hplain : ∀ c ∈ ending.toList, IsPlain c)
    (hlength : ending.toList.length ≤ 5) :
    IsFileName (fileStem name (Sha256.digestText text) ++ ending) := by
  constructor
  · intro c hc
    rw [String.toList_append, List.mem_append] at hc
    exact hc.elim (isPlain_fileStem name text c) (hplain c)
  · have hstem := length_fileStem_le name (Sha256.digestText text)
    have hsum : maxSlugLength + 1 + digestPrefixLength + 5 = maxNameBytes := rfl
    rw [String.toList_append, List.length_append]
    omega

/-! ## Builds in a private directory -/

/-- A file with such a name can be written, unless it is a directory. -/
theorem Store.write_private {γ : Type} {s : Store γ} {file : String} (hfile : IsFileName file)
    (hworking : s.isDirectory s.working = true)
    (hnode : s.node? (s.working ++ [file]) ≠ some .directory) (contents : γ) :
    s.write (Route.enter {} file) contents =
      .ok (s.set (s.working ++ [file]) (.file contents)) := by
  obtain ⟨hplain, hlength⟩ := hfile
  have hbytes : file.utf8ByteSize = file.toList.length := by
    rw [← byteLength_toList, byteLength_of_isPlain hplain]
  have htext : (Route.enter {} file).text = file := by
    simp [Route.text, PathStep.text]
  have hnul : file.toList.contains '\x00' = false := by
    rw [List.contains_eq_mem, decide_eq_false_iff_not]
    exact fun hmem => absurd (hplain _ hmem) (by decide)
  -- Such a name is neither too long nor has a character that ends it.
  have hfailure : (Route.enter {} file).failure? = none := by
    have hmax : ¬ Route.maxBytes < file.toList.length :=
      Nat.not_lt.mpr (Nat.le_trans hlength (by decide))
    rw [Route.failure?, htext, hnul, hbytes, if_neg Bool.false_ne_true, if_neg hmax]
  have happroach : s.approach (Route.enter {} file) = .ok (s.working, .enter file) := by
    simp [approach, walk, start, hworking]
  have hname : nameFailure? file = none := by
    rw [nameFailure?, hbytes, if_neg (Nat.not_lt.mpr hlength)]
  rw [write, hfailure, happroach]
  simp only [hname]

namespace Artifact

variable {directory stem source digest name : String} {make : Compilation → Artifact}

/-- In an empty private directory both files can be written. -/
theorem compileAndStore_private (hsource : IsFileName (sourceFileName stem))
    (hprogram : IsFileName (programFileName stem)) :
    ((compileAndStore directory stem source digest make).run {} {}).1 =
      (match compileText source with
        | .error d => .error (.compile d)
        | .ok c => .ok (make c)) := by
  have hwrite := Store.write_private (s := ({} : Store Contents)) hsource rfl
    (by simp [Store.node?]) (.text source)
  simp only [compileAndStore, FileTask.run, hwrite, Store.after, compileSource_eq]
  cases compileText source with
  | error d => rfl
  | ok c =>
    -- The second file lies next to the first one, which is no directory.
    have hwrite' := Store.write_private
      (s := ({} : Store Contents).set [sourceFileName stem] (.file (.text source))) hprogram rfl
      (by rw [Store.node?_set (by simp)]; split <;> simp [Store.set, Store.node?])
      (.program ⟨digest, c⟩)
    simp only [FileTask.run, List.nil_append, hwrite', Store.after]

/-- **A first build in a private directory** ends as its source compiles, unless the name is too
long. -/
theorem build_private (h : (slug name).toList.length ≤ maxSlugLength) (directory : String)
    (place : Option String) (source : String) (vars : List Variable) :
    ((build directory place name source vars).run {} {}).1 =
      (match compileText source with
        | .error d => .error (.compile d)
        | .ok c => .ok ⟨source, Sha256.digestText source, c, vars,
            fileStem name (Sha256.digestText source), place, false⟩) := by
  -- There is nothing to be read in an empty directory.
  have hnone : ({} : Store Contents).All fun _ => False := Store.all_empty
  have hread (r : Route) : holdsText source (({} : Store Contents).read r) = false := by
    cases hr : ({} : Store Contents).read r with
    | error _ => rfl
    | ok _ => exact (hnone.read hr).elim
  simp only [build, FileTask.run, Store.makeDirectories, Route.isEmpty, List.isEmpty_nil,
    Bool.not_false, Bool.and_self, if_true, hread, Bool.false_eq_true, if_false]
  exact compileAndStore_private
    (isFileName_fileStem h source (isPlain_of_all (by decide)) (by decide))
    (isFileName_fileStem h source (isPlain_of_all (by decide)) (by decide))

end Artifact

end Formula
