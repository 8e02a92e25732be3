import Formula.Store

/-!
# Work on the files of a directory

A task works on the files of one directory step by step, and goes on after each step according to
its outcome. What happens to the files between two steps is left open, so several tasks may take
turns in one directory.

## Main definitions

* `FileTask`: a task.
* `FileTask.step`: one step on a store.
* `FileTask.run`: all steps on a store, one right after the other.

## Main results

* `FileTask.run_step`: a step changes nothing of what a task yields when it is run to its end.
-/

namespace Formula

/-- Work on the files of a directory, in which files hold a `γ`, that ends in an `α`. -/
inductive FileTask (γ α : Type) where
  | done (result : α)
  /-- Makes the directory, if it is not there. -/
  | makeDirectory (next : Except FileFailure Unit → FileTask γ α)
  | read (name : String) (next : Except FileFailure γ → FileTask γ α)
  | write (name : String) (contents : γ) (next : Except FileFailure Unit → FileTask γ α)

namespace Store

variable {γ : Type}

/-- What an operation answers, and what is there after it. -/
def after (s : Store γ) : Except FileFailure (Store γ) → Except FileFailure Unit × Store γ
  | .ok s' => (.ok (), s')
  | .error e => (.error e, s)

end Store

namespace FileTask

variable {γ α : Type}

/-- One step in a directory of a store. -/
def step (directory : Route) (s : Store γ) : FileTask γ α → FileTask γ α × Store γ
  | done a => (done a, s)
  | makeDirectory next =>
    let (answer, s') := s.makeDirectories directory
    (next answer, s')
  | read name next => (next (s.read (directory.enter name)), s)
  | write name contents next =>
    let (answer, s') := s.after (s.write (directory.enter name) contents)
    (next answer, s')

/-- All steps in a directory of a store. -/
def run (directory : Route) (s : Store γ) : FileTask γ α → α × Store γ
  | done a => (a, s)
  | makeDirectory next =>
    let (answer, s') := s.makeDirectories directory
    (next answer).run directory s'
  | read name next => (next (s.read (directory.enter name))).run directory s
  | write name contents next =>
    let (answer, s') := s.after (s.write (directory.enter name) contents)
    (next answer).run directory s'

theorem run_step (directory : Route) (s : Store γ) (t : FileTask γ α) :
    (t.step directory s).1.run directory (t.step directory s).2 = t.run directory s := by
  cases t <;> rfl

end FileTask

end Formula
