/-!
# Names in scope

Names with what they stand for, and stacks of such tables, one for each scope that is open. The
checker keeps types in them and the machine keeps cells.

## Main definitions

* `Bindings`: a table of names.
* `Scoped`: a stack of tables, the innermost first.

## Main results

* `Bindings.get?_set`, `Scoped.find?_declare`: what a name stands for after a declaration.
-/

namespace Formula

/-- Names with what they stand for. -/
abbrev Bindings (α : Type) := List (String × α)

namespace Bindings

variable {α : Type}

/-- What a name stands for. -/
def get? : Bindings α → String → Option α
  | [], _ => none
  | (key, a) :: b, name => if key = name then some a else get? b name

/-- Lets a name stand for something. A name that is there keeps its place. -/
def set : Bindings α → String → α → Bindings α
  | [], name, a => [(name, a)]
  | (key, x) :: b, name, a => if key = name then (key, a) :: b else (key, x) :: set b name a

@[simp]
theorem get?_nil (name : String) : get? ([] : Bindings α) name = none := rfl

theorem get?_set (b : Bindings α) (name other : String) (a : α) :
    (b.set name a).get? other = if name = other then some a else b.get? other := by
  induction b with
  | nil => simp [set, get?]
  | cons entry b ih =>
    obtain ⟨key, x⟩ := entry
    simp only [set]
    split
    · subst_vars
      simp only [get?]
      split <;> rfl
    · simp only [get?, ih]
      split
      · rename_i hne heq
        subst heq
        rw [if_neg (Ne.symm hne)]
      · rfl

@[simp]
theorem get?_set_self (b : Bindings α) (name : String) (a : α) :
    (b.set name a).get? name = some a := by
  simp [get?_set]

end Bindings

/-- A stack of tables, the innermost first. -/
abbrev Scoped (α : Type) := List (Bindings α)

namespace Scoped

variable {α : Type}

/-- One open scope without names. -/
def empty : Scoped α := [[]]

/-- Opens a scope. -/
def push (s : Scoped α) : Scoped α :=
  [] :: s

/-- Closes the innermost scope. -/
def pop (s : Scoped α) : Scoped α :=
  s.tail

/-- Declares a name in the innermost scope; where none is open there is no place for it. -/
def declare : Scoped α → String → α → Scoped α
  | [], _, _ => []
  | b :: s, name, a => b.set name a :: s

/-- What a name stands for: the innermost scope that has it decides. -/
def find? (s : Scoped α) (name : String) : Option α :=
  s.findSome? (·.get? name)

/-- Whether a name is declared in the innermost scope. -/
def declares : Scoped α → String → Bool
  | [], _ => false
  | b :: _, name => (b.get? name).isSome

@[simp]
theorem pop_push (s : Scoped α) : s.push.pop = s := rfl

@[simp]
theorem find?_push (s : Scoped α) (name : String) : s.push.find? name = s.find? name := rfl

@[simp]
theorem length_declare (s : Scoped α) (name : String) (a : α) :
    (s.declare name a).length = s.length := by
  cases s <;> rfl

theorem declare_ne_nil {s : Scoped α} (h : s ≠ []) (name : String) (a : α) :
    s.declare name a ≠ [] := by
  cases s with
  | nil => contradiction
  | cons b s => exact List.cons_ne_nil _ _

theorem find?_declare {s : Scoped α} (h : s ≠ []) (name other : String) (a : α) :
    (s.declare name a).find? other = if name = other then some a else s.find? other := by
  cases s with
  | nil => contradiction
  | cons b s =>
    simp only [declare, find?, List.findSome?_cons, Bindings.get?_set]
    by_cases hn : name = other
    · simp [hn]
    · simp [hn]

end Scoped

end Formula
