import Formula.Store.Task

/-!
# Work that keeps files good

Several parties work on the files of one directory, and each relies on what the others leave there.
A task keeps files good if it writes good contents alone, where it may rely on finding good contents
alone, whatever fails. What it ends in then holds on however its steps are interrupted.

## Main definitions

* `Store.All good`: all files hold good contents
* `FileTask.Keeps good post`: a task keeps files good, and ends in a result with the property `post`
* `FileTask.fail`: a step that fails, for whatever reason
* `FileTask.Runs good directory`: how a task may go on among others that leave good contents alone

## Main results

* `FileTask.Keeps.step`, `FileTask.Keeps.fail`: what a step preserves
* `FileTask.Runs.result`: what a task among others ends in
* `FileTask.runs_run`: a task that is left alone is one of those among others
-/

namespace Formula

variable {γ α : Type} {good : γ → Prop} {post : α → Prop}

namespace Store

variable {s s' : Store γ} {r : Route} {contents : γ}

/-! ## What the operations change -/

/-- A directory is made where there was nothing. -/
theorem exists_of_makeDirectory (h : s.makeDirectory r = .ok s') : ∃ place name,
    s.node? (place ++ [name]) = none ∧ s' = s.set (place ++ [name]) .directory := by
  unfold makeDirectory at h
  split at h <;> try contradiction
  rename_i place name _ _
  split at h <;> try contradiction
  rename_i hnone
  cases h
  exact ⟨place, name, hnone, rfl⟩

/-- A file is written where the path leads, unless there is a directory. -/
theorem exists_of_write (h : s.write r contents = .ok s') : ∃ place name,
    s.approach r = .ok (place, .enter name) ∧ s.node? (place ++ [name]) ≠ some .directory ∧
      s' = s.set (place ++ [name]) (.file contents) := by
  unfold write at h
  split at h <;> try contradiction
  rename_i place name _ happroach
  split at h <;> try contradiction
  rename_i hdirectory
  cases h
  exact ⟨place, name, happroach, hdirectory, rfl⟩

/-! ## Good contents -/

/-- **All files hold good contents.** -/
def All (good : γ → Prop) (s : Store γ) : Prop :=
  ∀ path contents, s.node? path = some (.file contents) → good contents

theorem all_empty : ({} : Store γ).All good := by
  intro path contents h
  by_cases hp : path = [] <;> simp [node?, hp] at h

theorem All.set (h : s.All good) (place : Path) (name : String) {n : Node γ}
    (hn : ∀ contents, n = .file contents → good contents) :
    (s.set (place ++ [name]) n).All good := by
  intro path contents hpath
  rw [node?_set (by simp)] at hpath
  split at hpath
  · exact hn contents (Option.some.inj hpath)
  · exact h path contents hpath

theorem All.remove (h : s.All good) (path : Path) : (s.remove path).All good := by
  intro other contents hother
  by_cases hp : other = path
  · subst other
    by_cases hroot : path = []
    · simp [node?, hroot] at hother
    · rw [node?_remove_self hroot] at hother
      cases hother
  · rw [node?_remove_ne hp] at hother
    exact h other contents hother

theorem All.makeDirectory (h : s.All good) (hs : s.makeDirectory r = .ok s') : s'.All good := by
  obtain ⟨place, name, -, rfl⟩ := exists_of_makeDirectory hs
  exact h.set place name nofun

theorem All.ensureDirectory (h : s.All good) (r : Route) : (s.ensureDirectory r).2.All good := by
  unfold Store.ensureDirectory
  split
  · exact h.makeDirectory ‹_›
  · exact h

theorem All.ensureChain (h : s.All good) (rs : List Route) : (s.ensureChain rs).2.All good := by
  induction rs with
  | nil => exact h
  | cons r parents ih =>
    unfold Store.ensureChain
    split
    · split
      · rename_i heq
        rw [heq] at ih
        exact ih.ensureDirectory r
      · exact ih
    · exact h.ensureDirectory r

/-- Making directories writes no file. -/
theorem All.makeDirectories (h : s.All good) (r : Route) : (s.makeDirectories r).2.All good := by
  unfold Store.makeDirectories
  split
  · exact h
  · exact h.ensureChain _

theorem All.write (h : s.All good) (hc : good contents) (hs : s.write r contents = .ok s') :
    s'.All good := by
  obtain ⟨place, name, -, -, rfl⟩ := exists_of_write hs
  refine h.set place name ?_
  rintro _ ⟨⟩
  exact hc

theorem All.read (h : s.All good) (hs : s.read r = .ok contents) : good contents := by
  unfold Store.read at hs
  split at hs
  · cases hs
  · rename_i path hpath
    split at hs
    · rename_i found hfound
      cases hs
      exact h path _ hfound
    · cases hs
    · cases hs

end Store

namespace FileTask

/-! ## Steps -/

/-- A step that fails. Nothing is read or written. -/
def fail (e : FileFailure) : FileTask γ α → FileTask γ α
  | done a => done a
  | makeDirectory next => next (.error e)
  | read _ next => next (.error e)
  | write _ _ next => next (.error e)

/-- **A task keeps files good**: it writes good contents alone, and what it ends in has the property
`post`, if good contents alone are found in the files that it reads. -/
def Keeps (good : γ → Prop) (post : α → Prop) : FileTask γ α → Prop
  | done a => post a
  | makeDirectory next => ∀ answer, (next answer).Keeps good post
  | read _ next => ∀ found, (∀ contents, found = .ok contents → good contents) →
      (next found).Keeps good post
  | write _ contents next => good contents ∧ ∀ answer, (next answer).Keeps good post

namespace Keeps

variable {t : FileTask γ α} {s : Store γ}

/-- **A step keeps files good**, and what is left of the task does so too. -/
theorem step (h : t.Keeps good post) (hs : s.All good) (directory : Route) :
    (t.step directory s).1.Keeps good post ∧ (t.step directory s).2.All good := by
  cases t with
  | done a => exact ⟨h, hs⟩
  | makeDirectory next => exact ⟨h _, hs.makeDirectories directory⟩
  | read name next => exact ⟨h _ fun contents hread => hs.read hread, hs⟩
  | write name contents next =>
    refine ⟨h.2 _, ?_⟩
    show (s.after (s.write (directory.enter name) contents)).2.All good
    cases hw : s.write (directory.enter name) contents with
    | ok s' => exact hs.write h.1 hw
    | error e => exact hs

theorem fail (h : t.Keeps good post) (e : FileFailure) : (t.fail e).Keeps good post := by
  cases t with
  | done a => exact h
  | makeDirectory next => exact h _
  | read name next => exact h _ nofun
  | write name contents next => exact h.2 _

end Keeps

/-! ## A task among others -/

/-- **How a task may go on among others**: it takes its steps one by one, each of which may fail,
and between them the others change the files, of which they leave good contents alone. -/
inductive Runs (good : γ → Prop) (directory : Route) :
    Store γ → FileTask γ α → α → Store γ → Prop where
  | done (s : Store γ) (a : α) : Runs good directory s (done a) a s
  | step {s s' : Store γ} {t : FileTask γ α} {a : α}
      (rest : Runs good directory (t.step directory s).2 (t.step directory s).1 a s') :
      Runs good directory s t a s'
  | fail {s s' : Store γ} {t : FileTask γ α} {a : α} (e : FileFailure)
      (rest : Runs good directory s (t.fail e) a s') : Runs good directory s t a s'
  | disturb {s between s' : Store γ} {t : FileTask γ α} {a : α} (change : between.All good)
      (rest : Runs good directory between t a s') : Runs good directory s t a s'

variable {directory : Route} {s s' : Store γ} {t : FileTask γ α} {a : α}

/-- **A task that keeps files good among others that do** ends as it should, and all files hold good
contents behind it. -/
theorem Runs.result (h : Runs good directory s t a s') (ht : t.Keeps good post)
    (hs : s.All good) : post a ∧ s'.All good := by
  induction h with
  | done s a => exact ⟨ht, hs⟩
  | step _ ih => exact ih (ht.step hs directory).1 (ht.step hs directory).2
  | fail e _ ih => exact ih (ht.fail e) hs
  | disturb change _ ih => exact ih ht change

/-- A task that is left alone, with no failures but those of the store, is one among others. -/
theorem runs_run (good : γ → Prop) (directory : Route) (s : Store γ) (t : FileTask γ α) :
    Runs good directory s t (t.run directory s).1 (t.run directory s).2 := by
  induction t generalizing s with
  | done a => exact .done s a
  | makeDirectory next ih => exact .step (ih _ _)
  | read name next ih => exact .step (ih _ _)
  | write name contents next ih => exact .step (ih _ _)

end FileTask

end Formula
