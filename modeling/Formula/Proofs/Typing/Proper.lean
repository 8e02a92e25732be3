import Formula.Typing.Check

/-!
# Proper types

Only a parameter of a function of a package takes values of any type. No expression has such a type,
and none gets a result of such a type from a call.

## Main definitions

* `Ty.isProper`: types of what an expression can stand for
* `BinaryOp.isDefinedOn`: the types of operands of an operator
* `ProperScopes`: every name in scope has such a type

## Main results

* `operationType_eq_ok`: the types of the operands and of the result of an operation
* `TypeExpr.isProper_of_resolve`, `Native.isProper_signature`: written types and those of functions
  of packages are proper
* `isProper_of_declareParams`: so are those of parameters
-/

namespace Formula

namespace Ty

/-- Whether an expression can stand for something of the type: only a parameter takes values of any
type. -/
def isProper : Ty → Bool
  | any => false
  | function _ _ result => result.isProper
  | _ => true

/-- A proper type takes what is of that type. -/
theorem accepts_self {t : Ty} (h : t.isProper = true) : t.accepts t = true := by
  cases t <;> first | cases h; done | simp [accepts]

/-- What is used where a proper type is wanted has that type. -/
theorem eq_of_accepts {t u : Ty} (h : t.isProper = true) (hu : t.accepts u = true) : u = t := by
  cases t <;> first | cases h; done | simpa [accepts, eq_comm] using hu

end Ty

mutual

theorem TypeExpr.isProper_of_resolve {e : TypeExpr} {t : Ty} (h : e.resolve = .ok t) :
    t.isProper = true := by
  cases e with
  | named name span =>
    simp only [TypeExpr.resolve, Ty.named?] at h
    split at h
    · rename_i heq
      split at heq <;> cases heq <;> cases h <;> rfl
    · cases h
  | function params result span =>
    obtain ⟨ps, r, -, hr, rfl⟩ := TypeExpr.resolve_function_eq_ok h
    rw [Ty.isProper]
    cases result with
    | none =>
      cases hr
      rfl
    | some e => exact TypeExpr.isProper_of_resolve hr

end

theorem isProper_of_resultType {e : Option TypeExpr} {t : Ty} (h : resultType e = .ok t) :
    t.isProper = true := by
  cases e with
  | none =>
    cases h
    rfl
  | some e => exact TypeExpr.isProper_of_resolve h

theorem Native.isProper_signature (n : Native) : n.signature.isProper = true := by
  cases n <;> rfl

/-- Whether an operator is defined on operands of a type. -/
def BinaryOp.isDefinedOn (op : BinaryOp) (t : Ty) : Bool :=
  match op with
  | add => t.isOrdered
  | sub | mul | div => t.isNumeric
  | mod => t = .int
  | and | or => t = .bool
  | eq | notEq => t.isComparable
  | lt | lte | gt | gte => t.isOrdered

/-- The operands of an operation are of one type, on which the operator is defined. -/
theorem operationType_eq_ok {op : BinaryOp} {l r t : Ty} {span : Span}
    (h : operationType op l r span = .ok t) :
    l = r ∧ op.isDefinedOn l = true ∧ t = if op.isComparison then .bool else l := by
  have hform : operationType op l r span =
      if l ≠ r then .error ⟨.differentOperands l r op, some span⟩
      else if !op.isDefinedOn l then .error ⟨.operands op l, some span⟩
      else .ok (if op.isComparison then .bool else l) := by
    cases op <;> rfl
  rw [hform] at h
  split at h
  · cases h
  · split at h <;> cases h
    exact ⟨Decidable.not_not.mp ‹_›, by simp_all, rfl⟩

theorem isProper_of_operationType {op : BinaryOp} {l r t : Ty} {span : Span}
    (h : operationType op l r span = .ok t) : t.isProper = true := by
  obtain ⟨-, hdefined, rfl⟩ := operationType_eq_ok h
  split
  · rfl
  · cases l <;> first | rfl | (cases op <;> cases hdefined)

theorem isProper_of_unaryType {op : UnaryOp} {t u : Ty} {span : Span}
    (h : unaryType op t span = .ok u) : u.isProper = true := by
  cases op <;> cases t <;> first | cases h; rfl | cases h

theorem isProper_of_builtinResult {b : Builtin} {t u : Ty} {span : Span}
    (h : builtinResult b t span = .ok u) : u.isProper = true := by
  cases b <;> cases t <;> first | cases h; rfl | cases h

/-! ## Scopes -/

/-- Every name in scope has a proper type. -/
def ProperScopes (scopes : Scoped Ty) : Prop :=
  ∀ name t, scopes.find? name = some t → t.isProper = true

namespace ProperScopes

variable {scopes : Scoped Ty}

theorem push (h : ProperScopes scopes) : ProperScopes scopes.push :=
  h

theorem declare (h : ProperScopes scopes) (name : String) {t : Ty} (ht : t.isProper = true) :
    ProperScopes (scopes.declare name t) := by
  intro other u hu
  cases scopes with
  | nil => exact h other u hu
  | cons b scopes =>
    rw [Scoped.find?_declare (List.cons_ne_nil _ _)] at hu
    split at hu
    · cases hu
      exact ht
    · exact h other u hu

end ProperScopes

/-- Parameters have proper types. -/
theorem properScopes_of_declareParams {scopes inner : Scoped Ty} {params : List Parameter}
    (h : ProperScopes scopes) (hparams : declareParams scopes params = .ok inner) :
    ProperScopes inner := by
  induction params generalizing scopes with
  | nil =>
    cases hparams
    exact h
  | cons p params ih =>
    rw [declareParams] at hparams
    split at hparams
    · cases hparams
    · split at hparams
      · rename_i t ht
        exact ih (h.declare p.name (TypeExpr.isProper_of_resolve ht)) hparams
      · cases hparams

end Formula
