import Formula.Proofs.Store.Keeping
import Formula.Proofs.Store.Leading

/-!
# Work that changes files in one directory

A task that writes under a few names only changes nothing but the files with these names in its
directory, whatever fails. Nothing is lost by it, and new directories come where there was nothing.

## Main definitions

* `Store.Extends`: from one store to another nothing is lost
* `Store.ChangesIn r names`: from one store to another files change in one directory only
* `FileTask.WritesOnly names`: a task writes under the given names only

## Main results

* `Store.Extends.leadsTo`: a path that leads to a directory still does so when more is there
* `Store.ChangesIn.trans`: changes one after the other
* `FileTask.WritesOnly.step`, `FileTask.WritesOnly.run`: what a step and a whole task change
-/

namespace Formula

variable {γ α : Type}

namespace Store

variable {s s' s'' : Store γ} {r other : Route} {place path : Path} {name : String}
  {names : List String} {contents : γ}

/-! ## What lies in a directory -/

theorem of_step_enter (h : s.step place (.enter name) = .ok path) :
    s.isDirectory place = true ∧ path = place ++ [name] := by
  unfold step at h
  split at h
  · rename_i hdirectory
    simp only at h
    split at h
    · cases h
    · cases h
    · cases h
      exact ⟨hdirectory, rfl⟩
  · cases h

/-- A file is written in the directory that its path leads to. -/
theorem exists_of_write_enter (h : s.write (r.enter name) contents = .ok s') :
    ∃ place, s.LeadsTo r place ∧ s.node? (place ++ [name]) ≠ some .directory ∧
      s' = s.set (place ++ [name]) (.file contents) := by
  obtain ⟨place, last, happroach, hne, rfl⟩ := exists_of_write h
  obtain ⟨hlast, hleads⟩ := approach_enter_iff.mp happroach
  cases hlast
  exact ⟨place, hleads, hne, rfl⟩

/-- What is found under a name in a directory lies in the directory. -/
theorem exists_of_locate (h : s.locate (r.enter name) = .ok path) :
    ∃ place, s.LeadsTo r place ∧ path = place ++ [name] := by
  unfold locate at h
  split at h
  · cases h
  · split at h
    · cases h
    · have hwalk : s.walk (s.start r) (r.approachSteps ++ [.enter name]) = .ok path := h
      rw [walk_append] at hwalk
      split at hwalk
      · cases hwalk
      · rename_i place hplace
        rw [walk] at hwalk
        split at hwalk
        · cases hwalk
        · rename_i next hnext
          obtain ⟨hdirectory, rfl⟩ := of_step_enter hnext
          cases hwalk
          exact ⟨place, leadsTo_approachSteps.mp ⟨hplace, hdirectory⟩, rfl⟩

/-- What is read of a file in a directory lies in the directory. -/
theorem exists_of_read (h : s.read (r.enter name) = .ok contents) :
    ∃ place, s.LeadsTo r place ∧ s.node? (place ++ [name]) = some (.file contents) := by
  unfold read at h
  split at h
  · cases h
  · rename_i path hlocate
    obtain ⟨place, hleads, rfl⟩ := exists_of_locate hlocate
    refine ⟨place, hleads, ?_⟩
    split at h
    · cases h
      assumption
    · cases h
    · cases h

/-! ## Nothing is lost -/

/-- **Nothing is lost** from one store to another: what is there stays there, and directories stay
what they are. -/
structure Extends (s s' : Store γ) : Prop where
  working : s'.working = s.working
  node : ∀ path, s.node? path ≠ none → s'.node? path ≠ none
  directory : ∀ path, s.isDirectory path = true → s'.isDirectory path = true

namespace Extends

theorem step {first : PathStep} {next : Path} (h : s.Extends s')
    (hstep : s.step place first = .ok next) : s'.step place first = .ok next := by
  unfold Store.step at hstep ⊢
  split at hstep
  · rename_i hplace
    rw [if_pos (h.directory _ hplace)]
    cases first with
    | empty | here | above => exact hstep
    | enter name =>
      simp only at hstep ⊢
      split at hstep
      · cases hstep
      · cases hstep
      · rename_i n hname hnode
        cases hstep
        cases hnode' : s'.node? (place ++ [name]) with
        | none => exact absurd hnode' (h.node _ (by rw [hnode]; exact Option.some_ne_none n))
        | some n' => rw [hname]
  · cases hstep

theorem walk {steps : List PathStep} {last : Path} (h : s.Extends s')
    (hwalk : s.walk place steps = .ok last) : s'.walk place steps = .ok last := by
  induction steps generalizing place with
  | nil => exact hwalk
  | cons first steps ih =>
    rw [Store.walk] at hwalk ⊢
    split at hwalk
    · cases hwalk
    · rename_i next hnext
      rw [h.step hnext]
      exact ih hwalk

/-- **A path that leads to a directory still does so when more is there.** -/
theorem leadsTo (h : s.Extends s') (hr : s.LeadsTo r place) : s'.LeadsTo r place where
  walk := by
    have hstart : s'.start r = s.start r := by rw [start, start, h.working]
    rw [hstart]
    exact h.walk hr.walk
  directory := h.directory _ hr.directory

end Extends

/-- Nothing is lost when something is put where there is no directory. -/
theorem extends_set {n : Node γ} (hpath : path ≠ []) (h : s.node? path ≠ some .directory) :
    s.Extends (s.set path n) where
  working := rfl
  node other hother := by
    rw [node?_set hpath]
    split
    · exact Option.some_ne_none n
    · exact hother
  directory other hother := by
    rw [isDirectory_iff] at hother ⊢
    rw [node?_set hpath, if_neg]
    · exact hother
    · rintro rfl
      exact h hother

/-! ## Changes in one directory -/

/-- **Files change in one directory only**, under given names: from one store to another each path
keeps what lies there, or gets a directory where there was nothing, or is that of a file under one of
the names in the directory that `r` leads to. -/
structure ChangesIn (s : Store γ) (r : Route) (names : List String) (s' : Store γ) : Prop where
  working : s'.working = s.working
  nodes : ∀ path, s'.node? path = s.node? path ∨
    (s.node? path = none ∧ s'.node? path = some .directory) ∨
    (s.node? path ≠ some .directory ∧ (∃ contents, s'.node? path = some (.file contents)) ∧
      ∃ place, s'.LeadsTo r place ∧ ∃ name ∈ names, path = place ++ [name])

namespace ChangesIn

theorem refl (r : Route) (names : List String) (s : Store γ) : s.ChangesIn r names s :=
  ⟨rfl, fun _ => .inl rfl⟩

theorem toExtends (h : s.ChangesIn r names s') : s.Extends s' where
  working := h.working
  node path hpath := by
    rcases h.nodes path with hsame | ⟨-, hnew⟩ | ⟨-, ⟨contents, hfile⟩, -⟩
    · rwa [hsame]
    · rw [hnew]
      exact Option.some_ne_none _
    · rw [hfile]
      exact Option.some_ne_none _
  directory path hpath := by
    rw [isDirectory_iff] at hpath ⊢
    rcases h.nodes path with hsame | ⟨hnone, -⟩ | ⟨hne, -⟩
    · rwa [hsame]
    · cases hpath.symm.trans hnone
    · exact absurd hpath hne

/-- **Changes one after the other** are changes in one directory. -/
theorem trans (h : s.ChangesIn r names s') (h' : s'.ChangesIn r names s'') :
    s.ChangesIn r names s'' := by
  refine ⟨h'.working.trans h.working, fun path => ?_⟩
  rcases h'.nodes path with hsame' | ⟨hnone', hnew'⟩ | ⟨hne', hfile', hplace'⟩
  · rw [hsame']
    -- A path to the directory leads there behind the second change, too.
    refine (h.nodes path).imp_right (Or.imp_right ?_)
    rintro ⟨hne, hfile, place, hleads, hname⟩
    exact ⟨hne, hfile, place, h'.toExtends.leadsTo hleads, hname⟩
  · refine .inr (.inl ⟨?_, hnew'⟩)
    by_contra hsome
    exact h.toExtends.node path hsome hnone'
  · refine .inr (.inr ⟨fun hdirectory => hne' ?_, hfile', hplace'⟩)
    exact isDirectory_iff.mp (h.toExtends.directory path (isDirectory_iff.mpr hdirectory))

theorem of_makeDirectory (h : s.makeDirectory other = .ok s') : s.ChangesIn r names s' := by
  obtain ⟨place, name, hnone, rfl⟩ := exists_of_makeDirectory h
  refine ⟨rfl, fun path => ?_⟩
  rw [node?_set (by simp)]
  by_cases hpath : path = place ++ [name]
  · subst hpath
    exact .inr (.inl ⟨hnone, if_pos rfl⟩)
  · exact .inl (if_neg hpath)

theorem of_ensureDirectory (s : Store γ) (other : Route) :
    s.ChangesIn r names (s.ensureDirectory other).2 := by
  unfold ensureDirectory
  split
  · exact of_makeDirectory ‹_›
  · exact refl r names s

theorem of_ensureChain (s : Store γ) (others : List Route) :
    s.ChangesIn r names (s.ensureChain others).2 := by
  induction others with
  | nil => exact refl r names s
  | cons other parents ih =>
    unfold ensureChain
    split
    · split
      · rename_i heq
        rw [heq] at ih
        exact ih.trans (of_ensureDirectory _ other)
      · exact ih
    · exact of_ensureDirectory s other

/-- Making directories changes no file. -/
theorem of_makeDirectories (s : Store γ) (other : Route) :
    s.ChangesIn r names (s.makeDirectories other).2 := by
  unfold makeDirectories
  split
  · exact refl r names s
  · exact of_ensureChain s _

/-- Writing a file under one of the names changes that file. -/
theorem of_write (hname : name ∈ names) (h : s.write (r.enter name) contents = .ok s') :
    s.ChangesIn r names s' := by
  obtain ⟨place, hleads, hne, rfl⟩ := exists_of_write_enter h
  have hset := extends_set (n := .file contents) (by simp) hne
  refine ⟨rfl, fun path => ?_⟩
  rw [node?_set (by simp)]
  by_cases hpath : path = place ++ [name]
  · subst hpath
    exact .inr (.inr ⟨hne, ⟨contents, if_pos rfl⟩, place, hset.leadsTo hleads, name, hname, rfl⟩)
  · exact .inl (if_neg hpath)

end ChangesIn

end Store

/-! ## Tasks -/

namespace FileTask

/-- **A task writes under the given names only.** -/
def WritesOnly (names : List String) : FileTask γ α → Prop
  | done _ => True
  | makeDirectory next => ∀ answer, (next answer).WritesOnly names
  | read _ next => ∀ found, (next found).WritesOnly names
  | write name _ next => name ∈ names ∧ ∀ answer, (next answer).WritesOnly names

namespace WritesOnly

variable {names : List String} {t : FileTask γ α}

/-- **A step changes files in the directory of the task only**, and so does what is left of it. -/
theorem step (h : t.WritesOnly names) (directory : Route) (s : Store γ) :
    s.ChangesIn directory names (t.step directory s).2 ∧
      (t.step directory s).1.WritesOnly names := by
  cases t with
  | done a => exact ⟨.refl directory names s, h⟩
  | makeDirectory next => exact ⟨.of_makeDirectories s directory, h _⟩
  | read name next => exact ⟨.refl directory names s, h _⟩
  | write name contents next =>
    refine ⟨?_, h.2 _⟩
    show s.ChangesIn directory names (s.after (s.write (directory.enter name) contents)).2
    cases hw : s.write (directory.enter name) contents with
    | ok s' => exact .of_write h.1 hw
    | error e => exact .refl directory names s

/-- **A task changes files in its directory only.** -/
theorem run (h : t.WritesOnly names) (directory : Route) (s : Store γ) :
    s.ChangesIn directory names (t.run directory s).2 := by
  induction t generalizing s with
  | done a => exact .refl directory names s
  | makeDirectory next ih =>
    exact (step h directory s).1.trans (ih _ (h _) _)
  | read name next ih => exact ih _ (h _) s
  | write name contents next ih =>
    exact (step h directory s).1.trans (ih _ (h.2 _) _)

end WritesOnly

end FileTask

end Formula
