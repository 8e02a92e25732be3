import Formula.Proofs.Machine.Plain
import Formula.Proofs.Resolution.Trace

/-!
# Runs that reach what the checker found

A run that keeps track goes along with a run, step by step, and each name that is used reaches what the
checker found for it. What carries this through a run is that the scopes of each function that is
around are those that the checker saw where the function was written.

## Main definitions

* `Access.Sound`: a use of a name reaches the declaration that the checker found
* `Env.Stands`: the scopes of a run are those of the checker, declaration by declaration
* `Closure.Known`, `Track.Sound`: functions that are around were checked in the scopes they keep
* `Tracked.Follows x y P`: `x` goes along with `y` and all names in it reach what they stand for

## Main results

* `Tracked.Follows.bind`, `Tracked.Follows.iterate`: sequences and loops
* `Tracked.lookup_follows`, `Tracked.store_follows`, `Tracked.declare_follows`: names
-/

namespace Formula

/-- Whether a declaration is in place when so many package-level variables have got their initial
values. -/
def Declaration.inPlace (count : Nat) : Declaration → Bool
  | global index => index < count
  | _ => true

/-- Whether a declaration is one of a predeclared function. -/
def Declaration.isPredeclared : Declaration → Bool
  | predeclared _ => true
  | _ => false

/-- What the package-level names stand for when so many variables have got their initial values. -/
def Program.globalsAt (p : Program) (count : Nat) : Bindings Declaration :=
  Bindings.setAll [] (Program.predeclared ++ p.declarations (fun _ => true) count)

/-- **What is reached by a name that stands for `d`** when so many variables have got their initial
values: `d` as soon as it is in place, and nothing before. Only predeclared functions are special: in
a run they give way to declarations of their names once these are in place, and not before. -/
structure Declaration.Reached (p : Program) (d : Declaration) (name : String) (count : Nat)
    (reached : Option Declaration) : Prop where
  agrees : d.inPlace count = true →
    (d.isPredeclared = true → name ∉ (p.declarations (fun _ => true) count).map Prod.fst) →
      reached = some d
  isSome : d.inPlace count = true → reached.isSome = true
  before : d.inPlace count = false → (∀ b : Builtin, b.name ≠ name) → reached = none

/-- **A use of a name reaches the declaration that the checker found** for this occurrence. -/
def Access.Sound (p : Program) (entryPoint : String) (a : Access) : Prop :=
  ∃ d, ⟨a.span, a.name, some d⟩ ∈ p.occurrences entryPoint ∧
    d.Reached p a.name a.initialised a.reached

/-- **The scopes of a run are those of the checker**: a name of a variable within a function stands for
a cell of that variable, and other names are not in scope and stand for what they do outside. -/
structure Env.Stands (p : Program) (cells : List Declaration) (env : Env)
    (declared : Scoped Declaration) : Prop where
  env_ne : env ≠ []
  declared_ne : declared ≠ []
  cell_of : ∀ name span, declared.find? name = some (.cell span) →
    ∃ a, env.find? name = some a ∧ cells[a]? = some (.cell span)
  outer_of : ∀ name d, declared.find? name = some d → d.isCell = false → env.find? name = none ∧
    ∀ count, d.Reached p name count ((p.globalsAt count).get? name)

/-- **A function was checked in the scopes that it keeps**, and the names in its body are among those
of the program. -/
def Closure.Known (p : Program) (entryPoint : String) (cells : List Declaration) (c : Closure) :
    Prop :=
  ∃ scopes declared inner floats result, Alike scopes declared ∧
    Env.Stands p cells c.env declared ∧
    declareParams scopes.push c.params = .ok inner ∧
    Stmt.AllTyped floats result false inner c.body.statements ∧
    ∀ o ∈ Stmt.occurrencesOfAll (declareCells declared.push c.params) c.body.statements,
      o ∈ p.occurrences entryPoint

/-- A value that is a function of the program was checked. -/
def Value.Known (p : Program) (entryPoint : String) (cells : List Declaration) : Value → Prop
  | closure c => c.Known p entryPoint cells
  | _ => True

/-- **The state of a run that keeps track**: all functions that are around were checked, what
package-level names stand for is known, and so far each use of a name reached what it should. -/
structure Track.Sound (p : Program) (entryPoint : String) (count : Nat) (cells : List Declaration)
    (t : Track) : Prop where
  cells_eq : t.cells = cells
  size : t.machine.cells.size = cells.length
  initialised : t.initialised = count
  globals : t.globals = p.globalsAt count
  values : ∀ v ∈ t.machine.cells, v.Known p entryPoint cells
  globalValues : ∀ name v, t.machine.globals.get? name = some v → v.Known p entryPoint cells
  found : ∀ name, t.machine.globals.get? name = none → t.globals.get? name = none
  accesses : ∀ a ∈ t.accesses, a.Sound p entryPoint

/-- The name that a run does not find, if that is why it stops. -/
def Stop.undefined? : Stop → Option String
  | error (.fault (.undefinedName name)) => some name
  | _ => none

section Growth

variable {p : Program} {entryPoint : String} {cells cells' : List Declaration} {env : Env}
  {declared : Scoped Declaration}

theorem getElem?_of_isPrefix {α : Type} {l l' : List α} (h : l <+: l') {i : Nat} {a : α}
    (ha : l[i]? = some a) : l'[i]? = some a := by
  obtain ⟨more, rfl⟩ := h
  obtain ⟨hlt, _⟩ := List.getElem?_eq_some_iff.mp ha
  rw [List.getElem?_append_left hlt, ha]

namespace Env.Stands

theorem mono (h : Env.Stands p cells env declared) (hgrows : cells <+: cells') :
    Env.Stands p cells' env declared where
  env_ne := h.env_ne
  declared_ne := h.declared_ne
  cell_of name span hname := by
    obtain ⟨a, ha, hcell⟩ := h.cell_of name span hname
    exact ⟨a, ha, getElem?_of_isPrefix hgrows hcell⟩
  outer_of := h.outer_of

theorem push (h : Env.Stands p cells env declared) :
    Env.Stands p cells env.push declared.push where
  env_ne := List.cons_ne_nil _ _
  declared_ne := List.cons_ne_nil _ _
  cell_of := h.cell_of
  outer_of := h.outer_of

/-- A variable that is declared stands for its cell from then on. -/
theorem declare (h : Env.Stands p cells env declared) (name : String) {a : Address}
    {span : Span} (ha : cells[a]? = some (.cell span)) :
    Env.Stands p cells (env.declare name a) (declared.declare name (.cell span)) where
  env_ne hnil := h.env_ne (List.eq_nil_of_length_eq_zero (by
    rw [← Scoped.length_declare, hnil, List.length_nil]))
  declared_ne hnil := h.declared_ne (List.eq_nil_of_length_eq_zero (by
    rw [← Scoped.length_declare, hnil, List.length_nil]))
  cell_of other otherSpan hother := by
    rw [Scoped.find?_declare h.declared_ne] at hother
    rw [Scoped.find?_declare h.env_ne]
    split at hother
    · cases hother
      rename_i heq
      exact ⟨a, if_pos heq, ha⟩
    · rename_i hne
      rw [if_neg hne]
      exact h.cell_of other otherSpan hother
  outer_of other d hother hd := by
    rw [Scoped.find?_declare h.declared_ne] at hother
    rw [Scoped.find?_declare h.env_ne]
    split at hother
    · cases hother
      cases hd
    · rename_i hne
      rw [if_neg hne]
      exact h.outer_of other d hother hd

end Env.Stands

theorem Value.Known.mono {v : Value} (h : v.Known p entryPoint cells) (hgrows : cells <+: cells') :
    v.Known p entryPoint cells' := by
  cases v with
  | closure c =>
    obtain ⟨scopes, declared, inner, floats, result, halike, hstands, hrest⟩ := h
    exact ⟨scopes, declared, inner, floats, result, halike, hstands.mono hgrows, hrest⟩
  | scalar | nil | native | builtin | package => exact trivial

/-- **A name that is used reaches what the checker found for it**, in the scopes of the checker. -/
theorem Track.Sound.access {count : Nat} {t : Track} (h : t.Sound p entryPoint count cells)
    (henv : Env.Stands p cells env declared) {name : String} {span : Span}
    {scopes : Scoped Ty} {u : Ty} (halike : Alike scopes declared)
    (hfound : scopes.find? name = some u)
    (hmem : ⟨span, name, declared.find? name⟩ ∈ p.occurrences entryPoint) :
    Access.Sound p entryPoint ⟨span, name, t.find? env name, t.initialised⟩ := by
  obtain ⟨d, hd⟩ := halike.find? hfound
  rw [hd] at hmem
  refine ⟨d, hmem, ?_⟩
  rw [Track.find?, h.initialised, h.cells_eq, h.globals]
  -- A cell is found in the environment, anything else outside of it.
  cases hcell : d.isCell with
  | true =>
    cases d with
    | cell site =>
      obtain ⟨a, ha, hcell⟩ := henv.cell_of name site hd
      rw [ha]
      exact ⟨fun _ _ => hcell, fun _ => Option.isSome_of_mem hcell, nofun⟩
    | predeclared | package | function | global => cases hcell
  | false =>
    obtain ⟨hnone, hglobal⟩ := henv.outer_of name d hd hcell
    rw [hnone]
    exact hglobal count

end Growth

/-! ## Going along with a run -/

/-- A computation leaves all variables as they are, does not fail to find a name, and `P` holds of
what it gives. -/
def Run.Keeps {α : Type} (x : Run α) (P : α → Prop) : Prop :=
  ∀ m, match x m with
    | .ok a m' => m'.cells = m.cells ∧ m'.globals = m.globals ∧ P a
    | .error e _ => e.undefined? = none

/-- **A computation that keeps track ends as a run does**, with the same machine. If it is cut off, all
names so far reached what they should, and a name that is not found is the last one that was used. -/
def Tracked.Ends (p : Program) (entryPoint : String) {α : Type} (x : EStateM.Result Stop Track α)
    (y : EStateM.Result Stop Machine α) (P : α → Track → Prop) : Prop :=
  match x, y with
  | .ok a t, .ok b m => a = b ∧ t.machine = m ∧ P a t
  | .error e t, .error e' m => e = e' ∧ t.machine = m ∧
      (∀ a ∈ t.accesses, a.Sound p entryPoint) ∧ ∀ name, e.undefined? = some name →
        ∃ a, t.accesses.head? = some a ∧ a.name = name ∧ a.reached = none
  | _, _ => False

/-- **A computation that keeps track goes along with a run** from each state in which functions were
checked to another one. -/
def Tracked.Follows (p : Program) (entryPoint : String) (count : Nat) (cells : List Declaration)
    {α : Type} (x : Tracked α) (y : Run α) (P : List Declaration → α → Prop) : Prop :=
  ∀ t, t.Sound p entryPoint count cells → Ends p entryPoint (x t) (y t.machine) fun a t' =>
    ∃ cells', cells <+: cells' ∧ t'.Sound p entryPoint count cells' ∧ P cells' a

variable {p : Program} {entryPoint : String} {count : Nat} {cells : List Declaration}
  {α β : Type}

namespace Run.Keeps

variable {x : Run α} {f : α → Run β} {P : α → Prop} {Q : β → Prop}

theorem pure {a : α} (h : P a) : Keeps (pure a) P :=
  fun _ => ⟨rfl, rfl, h⟩

theorem fail {e : RunError} (h : (Stop.error e).undefined? = none) : Keeps (Run.fail e) P :=
  fun _ => h

theorem bind (hx : Keeps x P) (hf : ∀ a, P a → Keeps (f a) Q) : Keeps (x >>= f) Q := by
  intro m
  have hfirst := hx m
  cases hx : x m with
  | error e m' =>
    rw [hx] at hfirst
    rw [bind_of_error hx f]
    exact hfirst
  | ok a m' =>
    rw [hx] at hfirst
    rw [bind_of_ok hx f]
    obtain ⟨hcells, hglobals, ha⟩ := hfirst
    have hsecond := hf a ha m'
    cases hy : f a m' with
    | error e m'' =>
      rw [hy] at hsecond
      exact hsecond
    | ok b m'' =>
      rw [hy] at hsecond
      obtain ⟨hcells', hglobals', hb⟩ := hsecond
      exact ⟨hcells'.trans hcells, hglobals'.trans hglobals, hb⟩

theorem tick (s : Setting) : Keeps s.tick fun _ => True := by
  intro m
  unfold Setting.tick
  dsimp only
  cases s.config.maxSteps with
  | none =>
    cases s.isLate (m.steps + 1) with
    | true => rfl
    | false => exact ⟨rfl, rfl, trivial⟩
  | some limit =>
    by_cases hlimit : limit < m.steps + 1
    · simp only [if_pos hlimit]
      rfl
    · simp only [if_neg hlimit]
      cases s.isLate (m.steps + 1) with
      | true => rfl
      | false => exact ⟨rfl, rfl, trivial⟩

end Run.Keeps

/-- Sound tracks differ in the machine's steps and draws alone. -/
theorem Track.Sound.of_eq {t : Track} (h : t.Sound p entryPoint count cells) {m : Machine}
    (hcells : m.cells = t.machine.cells) (hglobals : m.globals = t.machine.globals) :
    Track.Sound p entryPoint count cells { t with machine := m } where
  cells_eq := h.cells_eq
  size := hcells ▸ h.size
  initialised := h.initialised
  globals := h.globals
  values := hcells ▸ h.values
  globalValues := hglobals ▸ h.globalValues
  found := hglobals ▸ h.found
  accesses := h.accesses

namespace Tracked.Ends

variable {P : α → Track → Prop}

theorem weaken {x : EStateM.Result Stop Track α} {y : EStateM.Result Stop Machine α}
    {P' : α → Track → Prop} (hx : Ends p entryPoint x y P) (hP : ∀ a t, P a t → P' a t) :
    Ends p entryPoint x y P' := by
  cases x with
  | error e t =>
    cases y with
    | error e' m => exact hx
    | ok b m => exact hx.elim
  | ok a t =>
    cases y with
    | error e m => exact hx.elim
    | ok b m => exact ⟨hx.1, hx.2.1, hP a t hx.2.2⟩

theorem bind {x : Tracked α} {y : Run α} {f : α → Tracked β} {g : α → Run β}
    {Q : β → Track → Prop} {t : Track} {m : Machine} (hx : Ends p entryPoint (x t) (y m) P)
    (hf : ∀ a t', P a t' → Ends p entryPoint (f a t') (g a t'.machine) Q) :
    Ends p entryPoint ((x >>= f) t) ((y >>= g) m) Q := by
  simp only [Bind.bind, EStateM.bind]
  cases hxt : x t with
  | error e t' =>
    cases hym : y m with
    | error e' m' =>
      rw [hxt, hym] at hx
      exact hx
    | ok b m' =>
      rw [hxt, hym] at hx
      exact hx.elim
  | ok a t' =>
    cases hym : y m with
    | error e m' =>
      rw [hxt, hym] at hx
      exact hx.elim
    | ok b m' =>
      rw [hxt, hym] at hx
      obtain ⟨rfl, rfl, ha⟩ := hx
      exact hf a t' ha

end Tracked.Ends

namespace Tracked.Follows

variable {x : Tracked α} {y : Run α} {f : α → Tracked β} {g : α → Run β}
  {P : List Declaration → α → Prop} {Q : List Declaration → β → Prop}

theorem pure {a : α} (h : P cells a) :
    Follows p entryPoint count cells (pure a) (pure a) P :=
  fun _ ht => ⟨rfl, rfl, cells, List.prefix_refl _, ht, h⟩

theorem bind (hx : Follows p entryPoint count cells x y P)
    (hf : ∀ cells' a, cells <+: cells' → P cells' a →
      Follows p entryPoint count cells' (f a) (g a) Q) :
    Follows p entryPoint count cells (x >>= f) (y >>= g) Q := by
  refine fun t ht => (hx t ht).bind fun a t' ⟨cells', hgrows, ht', ha⟩ => ?_
  refine (hf cells' a hgrows ha t' ht').weaken fun b t'' ⟨cells'', hgrows', ht'', hb⟩ => ?_
  exact ⟨cells'', hgrows.trans hgrows', ht'', hb⟩

theorem weaken {P' : List Declaration → α → Prop} (hx : Follows p entryPoint count cells x y P)
    (hP : ∀ cells' a, cells <+: cells' → P cells' a → P' cells' a) :
    Follows p entryPoint count cells x y P' := by
  rw [← bind_pure x, ← bind_pure y]
  exact hx.bind fun cells' a hgrows ha => .pure (hP cells' a hgrows ha)

/-- What leaves all variables as they are may be done without keeping track. -/
theorem lift {Q : α → Prop} (hy : y.Keeps Q) :
    Follows p entryPoint count cells (lift y) y fun _ a => Q a := by
  intro t ht
  have hkeeps := hy t.machine
  simp only [Tracked.lift]
  cases hym : y t.machine with
  | error e m =>
    rw [hym] at hkeeps
    refine ⟨rfl, rfl, ht.accesses, fun name hname => ?_⟩
    rw [hkeeps] at hname
    cases hname
  | ok a m =>
    rw [hym] at hkeeps
    obtain ⟨hcells, hglobals, ha⟩ := hkeeps
    exact ⟨rfl, rfl, cells, List.prefix_refl _, ht.of_eq hcells hglobals, ha⟩

theorem tick (s : Setting) :
    Follows p entryPoint count cells (Tracked.lift s.tick) s.tick fun _ _ => True :=
  lift (Run.Keeps.tick s)

theorem condition {x : Tracked Value} {y : Run Value}
    {P : List Declaration → Value → Prop} (hx : Follows p entryPoint count cells x y P) :
    Follows p entryPoint count cells (condition x) (Run.condition y) fun _ _ => True := by
  refine hx.bind fun cells' v _ _ => ?_
  have hkeeps : Run.Keeps (Run.condition (Pure.pure v)) fun _ => True := by
    rw [Run.condition, pure_bind]
    split
    · exact .pure trivial
    · exact .fail rfl
  have hlift : Follows p entryPoint count cells' (Tracked.lift (Run.condition (Pure.pure v)))
      (Run.condition (Pure.pure v)) fun _ _ => True := lift hkeeps
  rwa [Run.condition, pure_bind] at hlift

/-- **A loop goes along with a loop** if each round does, in the scopes of the loop. -/
theorem iterate {declared : Scoped Declaration} {Q : List Declaration → Flow → Prop}
    {step : Env → Tracked (Env ⊕ Flow)} {step' : Env → Run (Env ⊕ Flow)}
    (hstep : ∀ cells' env, cells <+: cells' → Env.Stands p cells' env declared →
      Follows p entryPoint count cells' (step env) (step' env) fun cells'' r => match r with
        | .inl env => Env.Stands p cells'' env declared
        | .inr flow => Q cells'' flow)
    (n : Nat) {env : Env} (henv : Env.Stands p cells env declared) :
    Follows p entryPoint count cells (Tracked.iterate step n env) (Formula.iterate step' n env)
      Q := by
  -- on the rounds that may still be run, for whatever cells there are by then
  have hloop (n : Nat) : ∀ cells' env, cells <+: cells' →
      Env.Stands p cells' env declared →
        Follows p entryPoint count cells' (Tracked.iterate step n env)
          (Formula.iterate step' n env) Q := by
    induction n with
    | zero =>
      intro cells' env _ _ t ht
      exact ⟨rfl, rfl, ht.accesses, fun _ hname => nomatch hname⟩
    | succ n ih =>
      intro cells' env hgrows henv
      refine (hstep cells' env hgrows henv).bind fun cells'' r hgrows' hr => ?_
      cases r with
      | inl env => exact ih cells'' env (hgrows.trans hgrows') hr
      | inr flow => exact .pure hr
  exact hloop n cells env (List.prefix_refl _) henv

end Tracked.Follows

/-! ## Names -/

namespace Tracked.Follows

variable {env : Env} {scopes : Scoped Ty} {declared : Scoped Declaration} {name : String}
  {span : Span} {u : Ty}

/-- The track behind a use of a name is sound. -/
theorem note (henv : Env.Stands p cells env declared) (halike : Alike scopes declared)
    (hfound : scopes.find? name = some u)
    (hmem : ⟨span, name, declared.find? name⟩ ∈ p.occurrences entryPoint) {t : Track}
    (ht : t.Sound p entryPoint count cells) :
    Track.Sound p entryPoint count cells { t with
      accesses := ⟨span, name, t.find? env name, t.initialised⟩ :: t.accesses } where
  cells_eq := ht.cells_eq
  size := ht.size
  initialised := ht.initialised
  globals := ht.globals
  values := ht.values
  globalValues := ht.globalValues
  found := ht.found
  accesses := List.forall_mem_cons.mpr ⟨ht.access henv halike hfound hmem, ht.accesses⟩

/-- A name that is looked up reaches what it stands for. -/
theorem lookup (henv : Env.Stands p cells env declared) (halike : Alike scopes declared)
    (hfound : scopes.find? name = some u)
    (hmem : ⟨span, name, declared.find? name⟩ ∈ p.occurrences entryPoint) :
    Follows p entryPoint count cells (Tracked.lookup env name span) (Run.lookup env name)
      fun cells' v => v.Known p entryPoint cells' := by
  intro t ht
  have hnote := note henv halike hfound hmem ht
  simp only [Tracked.lookup, Bind.bind, EStateM.bind, Tracked.note, Tracked.lift, Run.lookup]
  -- in a cell, among the globals, or nowhere, which is a fault of the program
  cases ha : env.find? name with
  | some a =>
    refine ⟨rfl, rfl, cells, List.prefix_refl _, hnote, ?_⟩
    rw [Array.getD_eq_getD_getElem?]
    cases hv : t.machine.cells[a]? with
    | none => exact trivial
    | some v => exact ht.values v (Array.mem_of_getElem? hv)
  | none =>
    cases hv : t.machine.globals.get? name with
    | some v => exact ⟨rfl, rfl, cells, List.prefix_refl _, hnote, ht.globalValues name v hv⟩
    | none =>
      refine ⟨rfl, rfl, hnote.accesses, fun other hother => ⟨_, rfl, Option.some.inj hother, ?_⟩⟩
      simp only [Track.find?, ha]
      exact ht.found name hv

/-- A variable that is given a new value is the one that its name stands for. -/
theorem store (henv : Env.Stands p cells env declared) (halike : Alike scopes declared)
    (hfound : scopes.find? name = some u)
    (hmem : ⟨span, name, declared.find? name⟩ ∈ p.occurrences entryPoint) {v : Value}
    (hv : v.Known p entryPoint cells) :
    Follows p entryPoint count cells (Tracked.store env name span v) (Run.store env name v)
      fun _ _ => True := by
  intro t ht
  have hnote := note henv halike hfound hmem ht
  simp only [Tracked.store, Bind.bind, EStateM.bind, Tracked.note, Tracked.lift, Run.store]
  -- as for a name that is looked up; one value changes
  cases ha : env.find? name with
  | some a =>
    refine ⟨rfl, rfl, cells, List.prefix_refl _, ⟨hnote.cells_eq, ?_, hnote.initialised,
      hnote.globals, fun w hw => ?_, hnote.globalValues, hnote.found, hnote.accesses⟩, trivial⟩
    · simpa using ht.size
    · rcases Array.mem_or_eq_of_mem_setIfInBounds hw with hw | rfl
      · exact ht.values w hw
      · exact hv
  | none =>
    cases hw : t.machine.globals.get? name with
    | some w =>
      simp only [Option.isSome_some, if_true]
      refine ⟨rfl, rfl, cells, List.prefix_refl _, ⟨hnote.cells_eq, ht.size, hnote.initialised,
        hnote.globals, ht.values, fun other w' hw' => ?_, fun other hother => ?_,
        hnote.accesses⟩, trivial⟩
      · rw [Bindings.get?_set] at hw'
        split at hw'
        · cases hw'
          exact hv
        · exact ht.globalValues other w' hw'
      · rw [Bindings.get?_set] at hother
        split at hother
        · cases hother
        · exact ht.found other hother
    | none =>
      simp only [Option.isSome_none, Bool.false_eq_true, if_false]
      refine ⟨rfl, rfl, hnote.accesses, fun other hother => ⟨_, rfl, Option.some.inj hother, ?_⟩⟩
      simp only [Track.find?, ha]
      exact ht.found name hw

/-- A variable that is declared gets a cell of its own. -/
theorem declare (henv : Env.Stands p cells env declared) {v : Value}
    (hv : v.Known p entryPoint cells) :
    Follows p entryPoint count cells (Tracked.declare env name span v) (Run.declare env name v)
      fun cells' env' => Env.Stands p cells' env' (declared.declare name (.cell span)) := by
  intro t ht
  have hgrows : cells <+: cells ++ [.cell span] := List.prefix_append _ _
  simp only [Tracked.declare, Tracked.lift, Run.declare, Run.alloc, Bind.bind, EStateM.bind,
    Pure.pure, EStateM.pure]
  refine ⟨rfl, rfl, cells ++ [.cell span], hgrows, ⟨?_, ?_, ht.initialised, ht.globals,
    fun w hw => ?_, fun other w hw => (ht.globalValues other w hw).mono hgrows, ht.found,
    ht.accesses⟩, (henv.mono hgrows).declare name ?_⟩
  · rw [ht.cells_eq]
  · simp [ht.size]
  · rcases Array.mem_push.mp hw with hw | rfl
    · exact (ht.values w hw).mono hgrows
    · exact hv.mono hgrows
  · rw [ht.size]
    simp

end Tracked.Follows

/-! ## Operations -/

theorem Run.Keeps.ofExcept {r : Except Fault Value} (h : Value.Plain r) :
    Run.Keeps (Run.ofExcept r) fun v => ∀ c, v ≠ .closure c := by
  cases r with
  | ok v => exact .pure h
  | error f =>
    refine .fail ?_
    cases f with
    | undefinedName name => exact absurd rfl (h name)
    | _ => rfl

end Formula
