import Formula.Machine.Operation
import Formula.Package.Call
import Formula.Proofs.Typing.Proper
import Formula.Proofs.Typing.Rules

/-!
# The types of values

A value has the type that the checker finds for an expression that stands for it. The type of a
function of the program is that of its body in the scopes where it was made, and what these scopes
stand for is known from the types of cells and of package-level names.

## Main definitions

* `StoreTy`: the types of cells and of package-level names
* `StoreTy.Grows`: there may be more cells
* `Env.Typed`: the scopes of a running program are those that the checker saw
* `Value.HasType`, `Value.AllHaveTypes`: a value has a type, arguments fit parameters

## Main results

* `Value.HasType.mono`: values keep their types when there are more cells and more names
* `Value.HasType.ofScalar_iff`: just the scalars of a type have that type
-/

namespace Formula

/-- The types of cells and of package-level names, and the places of integers that become
floating-point numbers. -/
structure StoreTy where
  floats : List Span
  globals : String → Option Ty
  cells : List Ty

namespace StoreTy

/-- All that is known of one store is known of another one. -/
structure Le (H H' : StoreTy) : Prop where
  floats : H.floats = H'.floats
  globals : ∀ name t, H.globals name = some t → H'.globals name = some t
  cells : H.cells <+: H'.cells

/-- A store has got more cells. -/
structure Grows (H H' : StoreTy) : Prop where
  floats : H.floats = H'.floats
  globals : H.globals = H'.globals
  cells : H.cells <+: H'.cells

variable {H H' H'' : StoreTy}

theorem Grows.le (h : H.Grows H') : H.Le H' :=
  ⟨h.floats, fun _ _ => by rw [h.globals]; exact id, h.cells⟩

theorem Grows.refl (H : StoreTy) : H.Grows H :=
  ⟨rfl, rfl, List.prefix_refl _⟩

theorem Grows.trans (h : H.Grows H') (h' : H'.Grows H'') : H.Grows H'' :=
  ⟨h.floats.trans h'.floats, h.globals.trans h'.globals, h.cells.trans h'.cells⟩

theorem Le.cell {a : Address} {t : Ty} (h : H.Le H') (ht : H.cells[a]? = some t) :
    H'.cells[a]? = some t := by
  obtain ⟨more, hmore⟩ := h.cells
  obtain ⟨hlt, _⟩ := List.getElem?_eq_some_iff.mp ht
  rw [← hmore, List.getElem?_append_left hlt, ht]

/-- One more cell. -/
def push (H : StoreTy) (t : Ty) : StoreTy :=
  { H with cells := H.cells ++ [t] }

theorem grows_push (H : StoreTy) (t : Ty) : H.Grows (H.push t) :=
  ⟨rfl, rfl, List.prefix_append _ _⟩

theorem cell_push (H : StoreTy) (t : Ty) : (H.push t).cells[H.cells.length]? = some t := by
  simp [push]

end StoreTy

/-! ## Scopes -/

/-- **The scopes of a running program are those that the checker saw**: a name stands for a cell of
its type, or else for a package-level name of its type. -/
structure Env.Typed (H : StoreTy) (env : Env) (scopes : Scoped Ty) : Prop where
  env_ne : env ≠ []
  scopes_ne : scopes ≠ []
  local_of : ∀ name a t, env.find? name = some a → scopes.find? name = some t →
    H.cells[a]? = some t
  global_of : ∀ name t, env.find? name = none → scopes.find? name = some t →
    H.globals name = some t

namespace Env.Typed

variable {H H' : StoreTy} {env : Env} {scopes : Scoped Ty}

theorem mono (h : Env.Typed H env scopes) (hle : H.Le H') : Env.Typed H' env scopes where
  env_ne := h.env_ne
  scopes_ne := h.scopes_ne
  local_of name a t ha ht := hle.cell (h.local_of name a t ha ht)
  global_of name t ha ht := hle.globals name t (h.global_of name t ha ht)

theorem push (h : Env.Typed H env scopes) : Env.Typed H env.push scopes.push where
  env_ne := List.cons_ne_nil _ _
  scopes_ne := List.cons_ne_nil _ _
  local_of := h.local_of
  global_of := h.global_of

/-- A variable that is declared stands for its cell from then on. -/
theorem declare (h : Env.Typed H env scopes) (name : String) {a : Address} {t : Ty}
    (ha : H.cells[a]? = some t) : Env.Typed H (env.declare name a) (scopes.declare name t) where
  env_ne hnil := h.env_ne (List.eq_nil_of_length_eq_zero (by
    rw [← Scoped.length_declare, hnil, List.length_nil]))
  scopes_ne hnil := h.scopes_ne (List.eq_nil_of_length_eq_zero (by
    rw [← Scoped.length_declare, hnil, List.length_nil]))
  local_of other b u hb hu := by
    rw [Scoped.find?_declare h.env_ne] at hb
    rw [Scoped.find?_declare h.scopes_ne] at hu
    split at hb
    · rename_i heq
      rw [if_pos heq] at hu
      cases hb
      cases hu
      exact ha
    · rename_i hne
      rw [if_neg hne] at hu
      exact h.local_of other b u hb hu
  global_of other u hb hu := by
    rw [Scoped.find?_declare h.env_ne] at hb
    rw [Scoped.find?_declare h.scopes_ne] at hu
    split at hb
    · cases hb
    · rename_i hne
      rw [if_neg hne] at hu
      exact h.global_of other u hb hu

end Env.Typed

/-! ## Values -/

/-- **A value has a type.** -/
inductive Value.HasType (H : StoreTy) : Value → Ty → Prop where
  | scalar (v : Scalar) : Value.HasType H (.scalar v) (.ofScalar v.type)
  /-- The result of a function without one. -/
  | void : Value.HasType H .nil .void
  /-- A variable of a function type that is not given a function. -/
  | unset {params variadic result} : Value.HasType H .nil (.function params variadic result)
  | native (n : Native) : Value.HasType H (.native n) n.signature
  | builtin (b : Builtin) : Value.HasType H (.builtin b) (.builtin b)
  | package (path : String) : Value.HasType H (.package path) (.package path)
  /-- A function whose body is well typed in the scopes where it was made. -/
  | closure {c : Closure} {scopes inner params result} (henv : Env.Typed H c.env scopes)
    (hparams : TypeExpr.resolveAll (c.params.map (·.type)) = .ok params)
    (hresult : result.isProper = true) (hinner : declareParams scopes.push c.params = .ok inner)
    (hbody : Stmt.AllTyped H.floats result false inner c.body.statements)
    (hend : result = .void ∨ lastTerminates c.body.statements = true) :
    Value.HasType H (.closure c) (.function params none result)

/-- **Arguments fit the types of parameters**, and those beyond them the type `variadic`. -/
inductive Value.AllHaveTypes (H : StoreTy) : Option Ty → List Ty → List Value → Prop where
  | nil {variadic} : Value.AllHaveTypes H variadic [] []
  | param {variadic p ps v vs t} (hv : v.HasType H t) (haccepts : p.accepts t = true)
    (hvs : Value.AllHaveTypes H variadic ps vs) :
    Value.AllHaveTypes H variadic (p :: ps) (v :: vs)
  | further {p v vs t} (hv : v.HasType H t) (haccepts : p.accepts t = true)
    (hvs : Value.AllHaveTypes H (some p) [] vs) : Value.AllHaveTypes H (some p) [] (v :: vs)

namespace Value

variable {H H' : StoreTy} {v : Value} {t : Ty}

theorem HasType.mono (h : v.HasType H t) (hle : H.Le H') : v.HasType H' t := by
  cases h with
  | scalar v => exact .scalar v
  | void => exact .void
  | unset => exact .unset
  | native n => exact .native n
  | builtin b => exact .builtin b
  | package path => exact .package path
  | closure henv hparams hresult hinner hbody hend =>
    exact .closure (henv.mono hle) hparams hresult hinner (hle.floats ▸ hbody) hend

theorem AllHaveTypes.mono {variadic : Option Ty} {params : List Ty} {vs : List Value}
    (h : AllHaveTypes H variadic params vs) (hle : H.Le H') :
    AllHaveTypes H' variadic params vs := by
  induction h with
  | nil => exact .nil
  | param hv haccepts _ ih => exact .param (hv.mono hle) haccepts ih
  | further hv haccepts _ ih => exact .further (hv.mono hle) haccepts ih

theorem AllHaveTypes.length_eq {params : List Ty} {vs : List Value}
    (h : AllHaveTypes H none params vs) : vs.length = params.length := by
  generalize hv : (none : Option Ty) = variadic at h
  induction h with
  | nil => rfl
  | param _ _ _ ih => rw [List.length_cons, List.length_cons, ih hv]
  | further => cases hv

namespace HasType

/-- Just the scalars of a type have that type. -/
theorem ofScalar_iff {k : ScalarType} :
    v.HasType H (.ofScalar k) ↔ ∃ s : Scalar, s.type = k ∧ v = .scalar s := by
  constructor
  · generalize ht : Ty.ofScalar k = t
    rintro (s | _ | _ | n | _ | _ | _)
    · refine ⟨s, ?_, rfl⟩
      cases k <;> cases s <;> first | rfl | cases ht
    all_goals cases k <;> first | cases ht | (cases n <;> cases ht)
  · rintro ⟨s, rfl, rfl⟩
    exact .scalar s

theorem int (h : v.HasType H .int) : ∃ n, v = .int n := by
  obtain ⟨s, hs, rfl⟩ := (ofScalar_iff (k := .int)).mp h
  cases s <;> first | exact ⟨_, rfl⟩ | cases hs

theorem float (h : v.HasType H .float) : ∃ x, v = .float x := by
  obtain ⟨s, hs, rfl⟩ := (ofScalar_iff (k := .float)).mp h
  cases s <;> first | exact ⟨_, rfl⟩ | cases hs

theorem string (h : v.HasType H .string) : ∃ s, v = .string s := by
  obtain ⟨s, hs, rfl⟩ := (ofScalar_iff (k := .string)).mp h
  cases s <;> first | exact ⟨_, rfl⟩ | cases hs

theorem bool (h : v.HasType H .bool) : ∃ b, v = .bool b := by
  obtain ⟨s, hs, rfl⟩ := (ofScalar_iff (k := .bool)).mp h
  cases s <;> first | exact ⟨_, rfl⟩ | cases hs

theorem builtin_eq {b : Builtin} (h : v.HasType H (.builtin b)) : v = .builtin b := by
  generalize ht : Ty.builtin b = t at h
  cases h with
  | builtin b =>
    cases ht
    rfl
  | scalar s => cases s <;> cases ht
  | native n => cases n <;> cases ht
  | void | unset | package | closure => cases ht

theorem package_eq {path : String} (h : v.HasType H (.package path)) : v = .package path := by
  generalize ht : Ty.package path = t at h
  cases h with
  | package path =>
    cases ht
    rfl
  | scalar s => cases s <;> cases ht
  | native n => cases n <;> cases ht
  | void | unset | builtin | closure => cases ht

end HasType

end Value

end Formula
