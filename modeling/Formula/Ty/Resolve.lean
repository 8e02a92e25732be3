import Formula.Program
import Formula.Ty

/-!
# The meaning of written types

## Main definitions

* `TypeExpr.resolve`: the type that a written type stands for.
* `resultType`: the result type of a function.

## Main results

* `functionType_eq_ok`, `TypeExpr.resolve_function_eq_ok`: types of functions are put together from
  those of their parameters and results.
* `TypeExpr.isValue_of_resolve`: a written type is the type of values.
-/

namespace Formula

/-- A name that stands for no type, and where it is written. -/
structure UnknownType where
  name : String
  span : Span
deriving Repr, DecidableEq

/-- The type with the given name. -/
def Ty.named? : String → Option Ty
  | "int" | "int64" => some .int
  | "float64" | "float" => some .float
  | "bool" => some .bool
  | "string" => some .string
  | _ => none

namespace TypeExpr

mutual

/-- The type that a written type stands for; the first unknown name is reported. -/
def resolve : TypeExpr → Except UnknownType Ty
  | named name span =>
    match Ty.named? name with
    | some t => .ok t
    | none => .error ⟨name, span⟩
  | function params result _ => do
    let params ← resolveAll params
    let result ← match result with
      | none => pure Ty.void
      | some r => r.resolve
    return .function params none result

/-- The types that several written types stand for. -/
def resolveAll : List TypeExpr → Except UnknownType (List Ty)
  | [] => .ok []
  | e :: es => do
    let t ← e.resolve
    let ts ← resolveAll es
    return t :: ts

end

end TypeExpr

/-- The result type of a function, of which none may be written. -/
def resultType : Option TypeExpr → Except UnknownType Ty
  | none => .ok .void
  | some e => e.resolve

/-- The type of a function with the given parameters and result. -/
def functionType (params : List Parameter) (result : Option TypeExpr) : Except UnknownType Ty := do
  let params ← TypeExpr.resolveAll (params.map (·.type))
  let result ← resultType result
  return .function params none result

/-! ## What resolves -/

/-- What is found in sequence is found step by step. -/
theorem Except.bind_eq_ok {ε α β : Type} {x : Except ε α} {f : α → Except ε β} {b : β}
    (h : (x >>= f) = .ok b) : ∃ a, x = .ok a ∧ f a = .ok b := by
  cases x with
  | error e => cases h
  | ok a => exact ⟨a, rfl, h⟩

/-- The type of a function is put together from those of its parameters and its result. -/
theorem functionType_eq_ok {params : List Parameter} {result : Option TypeExpr} {t : Ty}
    (h : functionType params result = .ok t) :
    ∃ ps r, TypeExpr.resolveAll (params.map (·.type)) = .ok ps ∧ resultType result = .ok r ∧
      t = .function ps none r := by
  obtain ⟨ps, hps, h⟩ := Except.bind_eq_ok h
  obtain ⟨r, hr, h⟩ := Except.bind_eq_ok h
  cases h
  exact ⟨ps, r, hps, hr, rfl⟩

namespace TypeExpr

variable {t : Ty}

/-- So is the type that a written function type stands for. -/
theorem resolve_function_eq_ok {params : List TypeExpr} {result : Option TypeExpr} {span : Span}
    (h : (function params result span).resolve = .ok t) :
    ∃ ps r, resolveAll params = .ok ps ∧ resultType result = .ok r ∧ t = .function ps none r := by
  rw [resolve] at h
  obtain ⟨ps, hps, h⟩ := Except.bind_eq_ok h
  cases result with
  | none =>
    cases h
    exact ⟨ps, .void, hps, rfl, rfl⟩
  | some r =>
    obtain ⟨u, hu, h⟩ := Except.bind_eq_ok h
    cases h
    exact ⟨ps, u, hps, hu, rfl⟩

theorem resolveAll_cons_eq_ok {e : TypeExpr} {es : List TypeExpr} {ts : List Ty}
    (h : resolveAll (e :: es) = .ok ts) :
    ∃ u us, e.resolve = .ok u ∧ resolveAll es = .ok us ∧ ts = u :: us := by
  rw [resolveAll] at h
  obtain ⟨u, hu, h⟩ := Except.bind_eq_ok h
  obtain ⟨us, hus, h⟩ := Except.bind_eq_ok h
  cases h
  exact ⟨u, us, hu, hus, rfl⟩

theorem isValue_of_resolve {e : TypeExpr} (h : e.resolve = .ok t) : t.isValue = true := by
  cases e with
  | named name span =>
    simp only [resolve, Ty.named?] at h
    split at h
    · rename_i heq
      split at heq <;> cases heq <;> cases h <;> rfl
    · cases h
  | function params result span =>
    obtain ⟨ps, r, -, -, rfl⟩ := resolve_function_eq_ok h
    rfl

end TypeExpr

end Formula
