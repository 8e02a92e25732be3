import Formula.Proofs.Machine.Equations
import Formula.Proofs.Typing.Operations

/-!
# Safe computations

A computation is safe on a store if it keeps cells and package-level names well typed, and if it stops
only because a budget is used up or for a reason that is in the values of the program.

## Main definitions

* `RunError.isSafe`, `Stop.isSafe`: why a well-typed program may stop
* `Machine.Typed`: cells and package-level names hold values of their types
* `Run.Safe H x P`: `x` is safe on the store `H`, and `P` holds of the store behind it and its value

## Main results

* `Run.Safe.bind`, `Run.Safe.iterate`: sequences and loops
* `Run.Safe.lookup`, `Run.Safe.store`, `Run.Safe.declare`: variables
* `Setting.apply_safe`: a call is safe, if functions of the program are entered safely
-/

namespace Formula

/-- **Whether a well-typed program may end with the error**: a budget is used up, or the fault is in
the values of the program. -/
def RunError.isSafe : RunError → Bool
  | fault f => f.ofValues
  | timeout _ | stepLimit _ | callDepth _ => true
  | noEntryPoint _ => false

@[inherit_doc RunError.isSafe]
def Stop.isSafe : Stop → Bool
  | error e => e.isSafe
  | outOfFuel => true

/-- **Cells and package-level names hold values of their types.** What the store does not know of
stands for what it does in `initial`. -/
structure Machine.Typed (initial : Bindings Value) (H : StoreTy) (m : Machine) : Prop where
  size : m.cells.size = H.cells.length
  cells : ∀ a t, H.cells[a]? = some t → (m.cells.getD a .nil).HasType H t
  globals : ∀ name t, H.globals name = some t →
    ∃ v, m.globals.get? name = some v ∧ v.HasType H t
  others : ∀ name, H.globals name = none → m.globals.get? name = initial.get? name

/-- **A computation is safe** on a store, and `P` holds of the store behind it and of its value. -/
def Run.Safe (initial : Bindings Value) (H : StoreTy) {α : Type} (x : Run α)
    (P : StoreTy → α → Prop) : Prop :=
  ∀ m, m.Typed initial H → match x m with
    | .ok a m' => ∃ H', H.Grows H' ∧ m'.Typed initial H' ∧ P H' a
    | .error e _ => e.isSafe = true

variable {initial : Bindings Value} {H H' : StoreTy}

namespace Machine.Typed

variable {m : Machine}

/-- Steps and draws do not matter. -/
theorem of_eq {m' : Machine} (h : m.Typed initial H) (hcells : m'.cells = m.cells)
    (hglobals : m'.globals = m.globals) : m'.Typed initial H where
  size := hcells ▸ h.size
  cells := hcells ▸ h.cells
  globals := hglobals ▸ h.globals
  others := hglobals ▸ h.others

/-- One more cell. -/
theorem alloc (h : m.Typed initial H) {v : Value} {t : Ty} (hv : v.HasType H t) :
    Machine.Typed initial (H.push t) { m with cells := m.cells.push v } where
  size := by simp [StoreTy.push, h.size]
  cells a u ha := by
    have hle := (H.grows_push t).le
    -- the cells that were there keep their types, and the new one is behind them
    by_cases hlt : a < H.cells.length
    · have hu : H.cells[a]? = some u := by
        simpa [StoreTy.push, List.getElem?_append_left hlt] using ha
      have hcell := (h.cells a u hu).mono hle
      have hsize : a < m.cells.size := h.size ▸ hlt
      simpa [Array.getD_eq_getD_getElem?, Array.getElem?_push, Nat.ne_of_lt hsize] using hcell
    · have ha' : a = H.cells.length ∧ t = u := by
        rw [StoreTy.push, List.getElem?_append_right (Nat.le_of_not_lt hlt)] at ha
        obtain ⟨hlt', heq⟩ := List.getElem?_eq_some_iff.mp ha
        simp only [List.length_singleton] at hlt'
        refine ⟨by omega, ?_⟩
        simpa using heq
      obtain ⟨rfl, rfl⟩ := ha'
      simpa [Array.getD_eq_getD_getElem?, ← h.size] using hv.mono hle
  globals name u hu := by
    obtain ⟨w, hw, hwt⟩ := h.globals name u hu
    exact ⟨w, hw, hwt.mono (H.grows_push t).le⟩
  others := h.others

/-- A cell gets another value of its type. -/
theorem setCell (h : m.Typed initial H) {a : Address} {v : Value} {t : Ty}
    (ha : H.cells[a]? = some t) (hv : v.HasType H t) :
    Machine.Typed initial H { m with cells := m.cells.setIfInBounds a v } where
  size := by simp [h.size]
  cells b u hb := by
    have hcell := h.cells b u hb
    rw [Array.getD_eq_getD_getElem?] at hcell ⊢
    rw [Array.getElem?_setIfInBounds]
    split
    · rename_i hab
      subst hab
      obtain rfl := Option.some.inj (ha.symm.trans hb)
      split
      · exact hv
      · rename_i hlt
        rw [h.size] at hlt
        exact absurd (List.getElem?_eq_some_iff.mp ha).1 hlt
    · exact hcell
  globals := h.globals
  others := h.others

/-- A package-level name gets another value of its type. -/
theorem setGlobal (h : m.Typed initial H) {name : String} {v : Value} {t : Ty}
    (hname : H.globals name = some t) (hv : v.HasType H t) :
    Machine.Typed initial H { m with globals := m.globals.set name v } where
  size := h.size
  cells := h.cells
  globals other u hu := by
    rw [Bindings.get?_set]
    split
    · rename_i heq
      subst heq
      cases hname.symm.trans hu
      exact ⟨v, rfl, hv⟩
    · exact h.globals other u hu
  others other hother := by
    rw [Bindings.get?_set]
    split
    · rename_i heq
      subst heq
      cases hname.symm.trans hother
    · exact h.others other hother

end Machine.Typed

namespace Run.Safe

variable {α β : Type} {x : Run α} {f : α → Run β} {P : StoreTy → α → Prop}
  {Q : StoreTy → β → Prop}

/-! ## Sequences and loops -/

theorem pure {a : α} (h : P H a) : Safe initial H (pure a) P :=
  fun _ hm => ⟨H, .refl H, hm, h⟩

theorem fail {e : RunError} (h : e.isSafe = true) : Safe initial H (Run.fail e) P :=
  fun _ _ => h

theorem bind (hx : Safe initial H x P)
    (hf : ∀ H' a, H.Grows H' → P H' a → Safe initial H' (f a) Q) :
    Safe initial H (x >>= f) Q := by
  intro m hm
  have hfirst := hx m hm
  cases hx : x m with
  | error e m' =>
    rw [hx] at hfirst
    rw [bind_of_error hx f]
    exact hfirst
  | ok a m' =>
    rw [hx] at hfirst
    rw [bind_of_ok hx f]
    obtain ⟨H', hgrows, hm', ha⟩ := hfirst
    have hsecond := hf H' a hgrows ha m' hm'
    cases hy : f a m' with
    | error e m'' =>
      rw [hy] at hsecond
      exact hsecond
    | ok b m'' =>
      rw [hy] at hsecond
      obtain ⟨H'', hgrows', hm'', hb⟩ := hsecond
      exact ⟨H'', hgrows.trans hgrows', hm'', hb⟩

theorem weaken {P' : StoreTy → α → Prop} (hx : Safe initial H x P)
    (hP : ∀ H' a, H.Grows H' → P H' a → P' H' a) : Safe initial H x P' := by
  rw [← bind_pure x]
  exact hx.bind fun H' a hgrows ha => .pure (hP H' a hgrows ha)

/-- **A loop is safe** if each of its rounds is, from the scopes of the loop. -/
theorem iterate {scopes : Scoped Ty} {Q : StoreTy → Flow → Prop}
    {step : Env → Run (Env ⊕ Flow)}
    (hstep : ∀ H' env, H.Grows H' → Env.Typed H' env scopes →
      Safe initial H' (step env) fun H'' r => match r with
        | .inl env => Env.Typed H'' env scopes
        | .inr flow => Q H'' flow)
    (n : Nat) {env : Env} (henv : Env.Typed H env scopes) :
    Safe initial H (Formula.iterate step n env) Q := by
  -- the scopes of the loop stay, while the types of cells grow from round to round
  have hloop (n : Nat) : ∀ H' env, H.Grows H' → Env.Typed H' env scopes →
      Safe initial H' (Formula.iterate step n env) Q := by
    induction n with
    | zero => exact fun _ _ _ _ _ _ => rfl
    | succ n ih =>
      intro H' env hgrows henv
      refine (hstep H' env hgrows henv).bind fun H'' r hgrows' hr => ?_
      cases r with
      | inl env => exact ih H'' env (hgrows.trans hgrows') hr
      | inr flow => exact .pure hr
  exact hloop n H env (.refl H) henv

/-! ## Operations -/

theorem ofExcept {r : Except Fault Value} {t : Ty} (h : Value.Results H r t) :
    Safe initial H (Run.ofExcept r) fun H' v => v.HasType H' t := by
  cases r with
  | ok v => exact .pure h
  | error f => exact .fail h

theorem condition {x : Run Value} (hx : Safe initial H x fun H' v => v.HasType H' .bool) :
    Safe initial H (Run.condition x) fun _ _ => True := by
  refine hx.bind fun H' v _ hv => ?_
  obtain ⟨b, rfl⟩ := hv.bool
  exact .pure trivial

theorem tick (s : Setting) : Safe initial H s.tick fun _ _ => True := by
  intro m hm
  have hm' : Machine.Typed initial H { m with steps := m.steps + 1 } := hm.of_eq rfl rfl
  unfold Setting.tick
  dsimp only
  cases s.config.maxSteps with
  | none =>
    cases s.isLate (m.steps + 1) with
    | true => rfl
    | false => exact ⟨H, .refl H, hm', trivial⟩
  | some limit =>
    by_cases hlimit : limit < m.steps + 1
    · simp only [if_pos hlimit]
      rfl
    · simp only [if_neg hlimit]
      cases s.isLate (m.steps + 1) with
      | true => rfl
      | false => exact ⟨H, .refl H, hm', trivial⟩

/-! ## Variables -/

variable {env : Env} {scopes : Scoped Ty} {name : String} {v : Value} {t : Ty}

theorem lookup (henv : Env.Typed H env scopes) (hname : scopes.find? name = some t) :
    Safe initial H (Run.lookup env name) fun H' v => v.HasType H' t := by
  intro m hm
  unfold Run.lookup
  cases ha : env.find? name with
  | some a => exact ⟨H, .refl H, hm, hm.cells a t (henv.local_of name a t ha hname)⟩
  | none =>
    obtain ⟨v, hget, hv⟩ := hm.globals name t (henv.global_of name t ha hname)
    dsimp only
    rw [hget]
    exact ⟨H, .refl H, hm, hv⟩

theorem store (henv : Env.Typed H env scopes) (hname : scopes.find? name = some t)
    (hv : v.HasType H t) : Safe initial H (Run.store env name v) fun _ _ => True := by
  intro m hm
  unfold Run.store
  cases ha : env.find? name with
  | some a =>
    exact ⟨H, .refl H, hm.setCell (henv.local_of name a t ha hname) hv, trivial⟩
  | none =>
    have hglobal := henv.global_of name t ha hname
    obtain ⟨w, hget, -⟩ := hm.globals name t hglobal
    dsimp only
    rw [hget]
    exact ⟨H, .refl H, hm.setGlobal hglobal hv, trivial⟩

theorem declare (henv : Env.Typed H env scopes) (hv : v.HasType H t) :
    Safe initial H (Run.declare env name v) fun H' env' =>
      Env.Typed H' env' (scopes.declare name t) := by
  have halloc : Safe initial H (Run.alloc v) fun H' a => H'.cells[a]? = some t := by
    intro m hm
    refine ⟨H.push t, H.grows_push t, hm.alloc hv, ?_⟩
    rw [hm.size]
    exact H.cell_push t
  exact halloc.bind fun H' a hgrows ha => .pure ((henv.mono hgrows.le).declare name ha)

end Run.Safe

/-! ## Calls -/

namespace Setting

variable (s : Setting)

/-- **Functions of the program are entered safely** on a store, and give values of their result
types. -/
def SafeEntry (initial : Bindings Value) (H : StoreTy) (enter : Entry) : Prop :=
  ∀ H' c params result args, H.Grows H' →
    (Value.closure c).HasType H' (.function params none result) →
      Value.AllHaveTypes H' none params args →
        Run.Safe initial H' (enter c args) fun H'' v => v.HasType H'' result

theorem SafeEntry.mono {enter : Entry} (h : SafeEntry initial H enter) (hgrows : H.Grows H') :
    SafeEntry initial H' enter :=
  fun H'' c params result args hgrows' => h H'' c params result args (hgrows.trans hgrows')

theorem callNative_safe {n : Native} {params : List Ty} {variadic : Option Ty} {result : Ty}
    {args : List Value} (hn : n.signature = .function params variadic result)
    (hargs : Value.AllHaveTypes H variadic params args) :
    Run.Safe initial H (s.callNative n args) fun H' v => v.HasType H' result := by
  have hget : Run.Safe initial H (get : Run Machine) fun H' _ => H' = H :=
    fun m hm => ⟨H, .refl H, hm, rfl⟩
  refine hget.bind fun H' m _ hH => ?_
  subst hH
  refine (Run.Safe.ofExcept (Native.call_results _ hn hargs)).bind fun H'' v _ hv => ?_
  split
  · have hdraw : Run.Safe initial H'' (modify fun m => { m with drawn := m.drawn + 1 } : Run Unit)
        fun _ _ => True := fun m hm => ⟨H'', .refl H'', hm.of_eq rfl rfl, trivial⟩
    exact hdraw.bind fun _ _ hgrows _ => .pure (hv.mono hgrows.le)
  · exact .pure hv

theorem resolveAll_length {es : List TypeExpr} {ts : List Ty}
    (h : TypeExpr.resolveAll es = .ok ts) : ts.length = es.length := by
  induction es generalizing ts with
  | nil =>
    cases h
    rfl
  | cons e es ih =>
    obtain ⟨t, ts, -, hes, rfl⟩ := TypeExpr.resolveAll_cons_eq_ok h
    rw [List.length_cons, List.length_cons, ih hes]

/-- **A call of a function is safe**, if functions of the program are entered safely. -/
theorem apply_safe {enter : Entry} (henter : SafeEntry initial H enter) {callee : Value}
    {params : List Ty} {variadic : Option Ty} {result : Ty} {args : List Value}
    (hcallee : callee.HasType H (.function params variadic result))
    (hargs : Value.AllHaveTypes H variadic params args) :
    Run.Safe initial H (s.apply enter callee args) fun H' v => v.HasType H' result := by
  refine (Run.Safe.tick s).bind fun H' _ hgrows _ => ?_
  have hargs := hargs.mono hgrows.le
  have hcallee := hcallee.mono hgrows.le
  generalize ht : Ty.function params variadic result = t at hcallee
  -- what has the type of a function is one of the program, one of a library, or not set yet
  cases hcallee with
  | unset => exact .fail rfl
  | native n => exact callNative_safe s ht.symm hargs
  | scalar v => cases v <;> cases ht
  | void | builtin | package => cases ht
  | closure henv hparams hproper hinner hbody hend =>
    cases ht
    dsimp only
    rw [if_pos (by rw [hargs.length_eq, resolveAll_length hparams, List.length_map])]
    exact henter _ _ _ _ _ hgrows (.closure henv hparams hproper hinner hbody hend) hargs

theorem apply_builtin_safe {enter : Entry} {b : Builtin} {t u : Ty} {span : Span} {v : Value}
    (hresult : builtinResult b t span = .ok u) (hv : v.HasType H t) :
    Run.Safe initial H (s.apply enter (.builtin b) [v]) fun H' v => v.HasType H' u := by
  refine (Run.Safe.tick s).bind fun H' _ hgrows _ => ?_
  exact .ofExcept (Builtin.call_results hresult (hv.mono hgrows.le))

end Setting

end Formula
