import Formula.Proofs.Machine.Equations

/-!
# Scopes that share cells

A function literal keeps a copy of the scopes that it was made in. The copy has names of its own,
but the cells behind the names are those of the original. Here are all the scopes that such copies
lead to, with the machine whose cells they share, and what may be done to each of them in any order:
a scope is opened or closed, a name is declared, a value is stored, and a further copy is made.

## Main definitions

* `Family`: scopes over the cells of one machine.
* `Family.Event`: what is done to a family.
* `Family.read`: what a name stands for in one of the scopes.
* `Family.stores`: the values that were stored in a cell, through whichever scopes.

## Main results

* `Family.copies_share_cells`: scopes that are left alone keep their names, and each name reads
  the value that was last stored in its cell.
-/

namespace Formula

/-- **The cells of all variables are there**, also of those that are shadowed. -/
def Env.HeldBy (env : Env) (m : Machine) : Prop :=
  ∀ b ∈ env, ∀ name a, (name, a) ∈ b → a < m.cells.size

namespace Bindings

variable {α : Type} {b : Bindings α} {name other : String} {x y : α}

theorem mem_of_get? (h : b.get? name = some x) : (name, x) ∈ b := by
  induction b with
  | nil => simp at h
  | cons entry b ih =>
    obtain ⟨key, y⟩ := entry
    rw [get?] at h
    split at h
    · subst_vars
      cases h
      exact List.mem_cons_self
    · exact List.mem_cons_of_mem _ (ih h)

theorem mem_set (h : (other, y) ∈ b.set name x) : y = x ∨ (other, y) ∈ b := by
  induction b with
  | nil =>
    rw [set, List.mem_singleton] at h
    exact .inl (Prod.mk.inj h).2
  | cons entry b ih =>
    obtain ⟨key, z⟩ := entry
    rw [set] at h
    split at h
    · rcases List.mem_cons.mp h with heq | hmem
      · exact .inl (Prod.mk.inj heq).2
      · exact .inr (List.mem_cons_of_mem _ hmem)
    · rcases List.mem_cons.mp h with heq | hmem
      · exact .inr (heq ▸ List.mem_cons_self)
      · exact (ih hmem).imp_right (List.mem_cons_of_mem _)

end Bindings

namespace Env.HeldBy

variable {env : Env} {m m' : Machine}

theorem mono (h : env.HeldBy m) (hle : m.cells.size ≤ m'.cells.size) : env.HeldBy m' :=
  fun b hb name a ha => Nat.lt_of_lt_of_le (h b hb name a ha) hle

theorem push (h : env.HeldBy m) : Env.HeldBy env.push m := by
  intro b hb name a ha
  rcases List.mem_cons.mp hb with rfl | hb
  · exact absurd ha List.not_mem_nil
  · exact h b hb name a ha

theorem pop (h : env.HeldBy m) : Env.HeldBy env.pop m :=
  fun b hb => h b (List.mem_of_mem_tail hb)

theorem declare (h : env.HeldBy m) {fresh : Address} (hfresh : fresh < m.cells.size)
    (name : String) : Env.HeldBy (env.declare name fresh) m := by
  cases env with
  | nil => exact h
  | cons top below =>
    intro b hb other a ha
    rcases List.mem_cons.mp hb with rfl | hb
    · rcases Bindings.mem_set ha with rfl | hmem
      · exact hfresh
      · exact h top List.mem_cons_self other a hmem
    · exact h b (List.mem_cons_of_mem _ hb) other a ha

theorem lt (h : env.HeldBy m) {name : String} {a : Address} (ha : env.find? name = some a) :
    a < m.cells.size := by
  obtain ⟨b, hb, hget⟩ := List.exists_of_findSome?_eq_some ha
  exact h b hb name a (Bindings.mem_of_get? hget)

end Env.HeldBy

/-- Scopes that share the cells of a machine. -/
structure Family where
  machine : Machine
  members : List Env
  held : ∀ env ∈ members, env.HeldBy machine

namespace Family

/-- What is done to one of the scopes. -/
inductive Change where
  | push
  | pop
  | declare (name : String) (value : Value)
  | store (name : String) (value : Value)

/-- What is done to a family. Scopes go by the order in which they came. -/
inductive Event where
  | copy (index : Nat)
  | change (index : Nat) (change : Change)

namespace Change

variable (env : Env) (m : Machine)

/-- The scopes behind a change. -/
def run : Change → Run Env
  | push => return env.push
  | pop => return env.pop
  | declare name v => Run.declare env name v
  | store name v => do
    Run.store env name v
    return env

/-- The scopes and the machine behind a change. One that fails leaves the scopes. -/
def next (c : Change) : Env × Machine :=
  match c.run env m with
  | .ok env' m' => (env', m')
  | .error _ m' => (env, m')

/-- The value that a change stores in a cell. -/
def stored? (a : Address) : Change → Option Value
  | store name v => if env.find? name = some a then some v else none
  | _ => none

/-- Whether a change is one of names and scopes. -/
def reshapes : Change → Bool
  | store _ _ => false
  | _ => true

theorem next_declare (name : String) (v : Value) :
    (declare name v).next env m =
      (env.declare name m.cells.size, { m with cells := m.cells.push v }) := rfl

theorem next_store (name : String) (v : Value) :
    (store name v).next env m = (env, (Run.store env name v).after m) := by
  simp only [next, run, bind, EStateM.bind, pure, EStateM.pure, Run.after]
  cases Run.store env name v m <;> rfl

theorem after_store_of_find? {env : Env} {name : String} {a : Address}
    (ha : env.find? name = some a) (v : Value) :
    (Run.store env name v).after m = { m with cells := m.cells.setIfInBounds a v } := by
  simp only [Run.after, Run.store, ha]

theorem cells_after_store_of_find?_eq_none {env : Env} {name : String}
    (ha : env.find? name = none) (v : Value) :
    ((Run.store env name v).after m).cells = m.cells := by
  by_cases hglobal : (m.globals.get? name).isSome
  · simp only [Run.after, Run.store, ha, hglobal, if_true]
  · simp only [Run.after, Run.store, ha, hglobal, Bool.false_eq_true, if_false]

theorem next_of_not_reshapes {c : Change} (h : c.reshapes = false) : (c.next env m).1 = env := by
  cases c with
  | store name v => rw [next_store]
  | push | pop | declare => simp [reshapes] at h

variable {env m}

theorem size_le_next (c : Change) : m.cells.size ≤ (c.next env m).2.cells.size := by
  cases c with
  | push | pop => exact Nat.le_refl _
  | declare name v => simp [next_declare]
  | store name v =>
    rw [next_store]
    cases ha : env.find? name with
    | some a => simp [after_store_of_find? m ha]
    | none => simp [cells_after_store_of_find?_eq_none m ha]

theorem held_next (c : Change) (h : env.HeldBy m) :
    (c.next env m).1.HeldBy (c.next env m).2 := by
  cases c with
  | push => exact h.push
  | pop => exact h.pop
  | declare name v =>
    rw [next_declare]
    exact (h.mono (by simp)).declare (by simp) name
  | store name v =>
    have hle : m.cells.size ≤ ((store name v).next env m).2.cells.size := size_le_next _
    rw [next_store] at hle ⊢
    exact h.mono hle

/-- A cell that is there holds what the change stores in it, or else what it held before. -/
theorem cell_next (c : Change) {a : Address} {v : Value} (ha : m.cells[a]? = some v) :
    (c.next env m).2.cells[a]? = some ((c.stored? env a).getD v) := by
  have hlt : a < m.cells.size := (Array.getElem?_eq_some_iff.mp ha).1
  cases c with
  | push | pop => exact ha
  | declare name w =>
    -- The new cell comes behind all cells, so it is none of those that are there.
    rw [next_declare]
    simpa [stored?, Array.getElem?_push_lt hlt] using (Array.getElem?_eq_some_iff.mp ha).2
  | store name w =>
    rw [next_store]
    cases hw : env.find? name with
    | none => simp [stored?, hw, cells_after_store_of_find?_eq_none m hw, ha]
    | some b =>
      rw [after_store_of_find? m hw]
      by_cases hab : b = a
      · subst hab
        simp [stored?, hw, hlt]
      · simp [stored?, hw, hab, ha]

end Change

variable (F : Family)

/-- The family behind an event. One that is about no member changes nothing. -/
def step : Event → Family
  | .copy i =>
    { F with
      members := F.members ++ F.members[i]?.toList
      held := fun env henv => (List.mem_append.mp henv).elim (F.held env) fun h =>
        F.held env (List.mem_of_getElem? (Option.mem_toList.mp h)) }
  | .change i c =>
    if h : i < F.members.length then
      let next := c.next F.members[i] F.machine
      { machine := next.2
        members := F.members.set i next.1
        held := fun env henv => (List.mem_or_eq_of_mem_set henv).elim
          (fun hmem => (F.held env hmem).mono c.size_le_next)
          fun heq => heq ▸ c.held_next (F.held _ (List.getElem_mem h)) }
    else F

/-- The family behind events, one after the other. -/
def run (events : List Event) : Family :=
  events.foldl step F

/-- What a name stands for in one of the scopes. -/
def read (k : Nat) (name : String) : Option Value :=
  F.members[k]?.bind fun env =>
    match Run.lookup env name F.machine with
    | .ok v _ => some v
    | .error _ _ => none

/-- The value that an event stores in a cell. -/
def stored? (a : Address) : Event → Option Value
  | .copy _ => none
  | .change i c => F.members[i]?.bind fun env => c.stored? env a

/-- **The values that events store in a cell**, in order. Each name leads to the cell that it stands
for at that time, in the scopes that it is stored through. -/
def stores (F : Family) (a : Address) : List Event → List Value
  | [] => []
  | e :: events => (F.stored? a e).toList ++ (F.step e).stores a events

/-- Whether an event opens or closes a scope of a member, or declares a name in it. -/
def Event.reshapes (k : Nat) : Event → Bool
  | .copy _ => false
  | .change i c => i == k && c.reshapes

variable {F} {k : Nat} {env : Env} {name : String} {a : Address} {v : Value}

theorem getElem?_step (hk : F.members[k]? = some env) {e : Event} (he : e.reshapes k = false) :
    (F.step e).members[k]? = some env := by
  obtain ⟨hlt, rfl⟩ := List.getElem?_eq_some_iff.mp hk
  cases e with
  | copy i => rw [step, List.getElem?_append_left hlt, hk]
  | change i c =>
    rw [step]
    split
    case isFalse => exact hk
    case isTrue hi =>
      by_cases hik : i = k
      · -- What is done to the scopes themselves is only to store, so they are put back as they were.
        subst hik
        have hc : c.reshapes = false := by simpa [Event.reshapes] using he
        simp [Change.next_of_not_reshapes _ _ hc, hlt]
      · rw [List.getElem?_set_ne hik, hk]

theorem cell_step (ha : F.machine.cells[a]? = some v) (e : Event) :
    (F.step e).machine.cells[a]? = some ((F.stored? a e).getD v) := by
  cases e with
  | copy i => exact ha
  | change i c =>
    rw [step]
    split
    case isFalse hi => simpa [stored?, List.getElem?_eq_none (Nat.le_of_not_lt hi)] using ha
    case isTrue hi => simpa [stored?, List.getElem?_eq_getElem hi] using c.cell_next ha

theorem getElem?_run (hk : F.members[k]? = some env) {events : List Event}
    (he : ∀ e ∈ events, e.reshapes k = false) : (F.run events).members[k]? = some env := by
  induction events generalizing F with
  | nil => exact hk
  | cons e events ih =>
    obtain ⟨he, hevents⟩ := List.forall_mem_cons.mp he
    exact ih (getElem?_step hk he) hevents

/-- **A cell holds what was last stored in it**, through whichever scopes. -/
theorem cell_run (ha : F.machine.cells[a]? = some v) (events : List Event) :
    (F.run events).machine.cells[a]? = some ((F.stores a events).getLastD v) := by
  induction events generalizing F v with
  | nil => exact ha
  | cons e events ih =>
    -- What the first event leaves in the cell is what the rest starts with.
    refine (ih (cell_step ha e)).trans (congrArg some ?_)
    rw [stores]
    cases F.stored? a e with
    | none => rfl
    | some w => rw [Option.getD_some, Option.toList_some, List.singleton_append, List.getLastD_cons]

theorem read_of_find? (hk : F.members[k]? = some env) (hname : env.find? name = some a)
    (ha : F.machine.cells[a]? = some v) : F.read k name = some v := by
  simp [read, hk, Run.lookup, hname, Array.getD_eq_getD_getElem?, ha]

theorem exists_cell (hk : F.members[k]? = some env) (hname : env.find? name = some a) :
    ∃ v, F.machine.cells[a]? = some v :=
  ⟨_, Array.getElem?_eq_getElem ((F.held env (List.mem_of_getElem? hk)).lt hname)⟩

/-- A declaration in other scopes is not seen, whatever names there are in them. -/
theorem read_step_declare (hk : F.members[k]? = some env) {j : Nat} (hj : j ≠ k) (other : String)
    (w : Value) : (F.step (.change j (.declare other w))).read k name = F.read k name := by
  have hstep := getElem?_step hk (e := .change j (.declare other w)) (by simp [Event.reshapes, hj])
  cases hname : env.find? name with
  | some a =>
    obtain ⟨v, hv⟩ := exists_cell hk hname
    have hcell := cell_step hv (.change j (.declare other w))
    have hnone : F.stored? a (.change j (.declare other w)) = none := by
      cases hm : F.members[j]? <;> simp [stored?, hm, Change.stored?]
    rw [hnone] at hcell
    rw [read_of_find? hstep hname hcell, read_of_find? hk hname hv, Option.getD_none]
  | none =>
    -- A name of no variable is looked up among those of the package, which scopes do not hide.
    have hglobals : (F.step (.change j (.declare other w))).machine.globals = F.machine.globals := by
      rw [step]
      split <;> rfl
    simp only [read, hstep, hk, Option.bind_some, Run.lookup, hname, hglobals]
    cases F.machine.globals.get? name <;> rfl

/-- **Copies of scopes have names of their own and share the cells.** A copy is the same scopes over
the same machine. Scopes in which no scope is opened or closed and no name is declared stay what
they are, whatever is done to others; each of their variables reads the value that was last stored
in its cell, through whichever scopes, or else the value that it had at the start; and at any time a
declaration in other scopes changes nothing that is read in them. -/
theorem copies_share_cells (F : Family) (k : Nat) (env : Env) (hk : F.members[k]? = some env)
    (events : List Event) (he : ∀ e ∈ events, e.reshapes k = false) :
    ((F.step (.copy k)).members[F.members.length]? = some env ∧
      (F.step (.copy k)).machine = F.machine) ∧
    (F.run events).members[k]? = some env ∧
    (∀ name a, env.find? name = some a → ∃ v,
      F.machine.cells[a]? = some v ∧ F.read k name = some v ∧
        (F.run events).read k name = some ((F.stores a events).getLastD v)) ∧
    ∀ j other w, j ≠ k → ∀ name,
      ((F.run events).step (.change j (.declare other w))).read k name =
        (F.run events).read k name := by
  have hrun := getElem?_run hk he
  refine ⟨⟨by simp [step, hk], rfl⟩, hrun, ?_, ?_⟩
  · intro name a hname
    obtain ⟨v, hv⟩ := exists_cell hk hname
    exact ⟨v, hv, read_of_find? hk hname hv, read_of_find? hrun hname (cell_run hv events)⟩
  · intro j other w hj name
    exact read_step_declare hrun hj other w

/-- A variable, and what a copy of its scopes does to it and to names of its own: it shadows the
name in an inner scope, closes that scope again, and in the end declares the name anew. -/
theorem copies_share_cells_shadowed :
    let events : List Event := [.copy 0, .change 1 .push, .change 1 (.declare "x" (.int 7)),
      .change 1 (.store "x" (.int 8)), .change 1 .pop, .change 1 (.store "x" (.int 3)),
      .change 1 (.declare "x" (.int 9)), .change 1 (.store "x" (.int 4))]
    ∃ F : Family, F.machine = { cells := #[.int 1] } ∧ F.members = [[[("x", 0)]]] ∧
      (∀ e ∈ events, e.reshapes 0 = false) ∧
      (F.run events).read 0 "x" = some (.int 3) ∧ (F.run events).read 1 "x" = some (.int 4) := by
  intro events
  have hheld : ∀ env ∈ ([[[("x", 0)]]] : List Env), env.HeldBy { cells := #[.int 1] } := by
    simp [Env.HeldBy]
  have he : ∀ e ∈ events, e.reshapes 0 = false := by simp [events, Event.reshapes]
  let F : Family := ⟨{ cells := #[.int 1] }, [[[("x", 0)]]], hheld⟩
  obtain ⟨-, -, hread, -⟩ := copies_share_cells F 0 [[("x", 0)]] rfl events he
  obtain ⟨v, -, -, hx⟩ := hread "x" 0 rfl
  -- The copy hides the name, stores in its own cell, and stores in the shared one behind that scope.
  have hruns : F.stores 0 events = [.int 3] ∧ (F.run events).read 1 "x" = some (.int 4) := by
    simp [F, events, stores, run, read, stored?, step, Change.next, Change.run, Change.stored?,
      Run.declare, Run.alloc, Run.store, Run.lookup, Scoped.find?, Scoped.push, Scoped.pop,
      Scoped.declare, Bindings.get?, Bindings.set, bind, pure, EStateM.bind, EStateM.pure]
  refine ⟨F, rfl, rfl, he, ?_, hruns.2⟩
  rw [hx, hruns.1, List.getLastD_cons, List.getLastD_nil]

end Family

end Formula
