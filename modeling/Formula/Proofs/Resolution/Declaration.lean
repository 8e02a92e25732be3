import Formula.Proofs.Typing.Rules

/-!
# What names stand for

Every name that a program uses stands for a declaration, which is found by going outward through the
scopes that are open. The checker keeps types in its scopes; with declarations in their place, the same
walk tells which declaration each occurrence of a name stands for.

## Main definitions

* `Declaration`: where a name is declared
* `Occurrence`: a place where a name is used, with the declaration that it stands for
* `Expr.occurrences`, `Stmt.occurrences`, `Program.occurrences`: the names that are used
* `Alike`: scopes in which the same names are declared

## Main results

* `Alike.find?`: a name that the checker finds has a declaration
-/

namespace Formula

/-- Where a name is declared. -/
inductive Declaration where
  | predeclared (function : Builtin)
  | package (path : String)
  | function (name : String)
  /-- A package-level variable, by how many there are before it. -/
  | global (index : Nat)
  /-- A variable or parameter within a function, by the place of its declaration. Each time that it is
  declared, it is kept in another cell. -/
  | cell (span : Span)
deriving Repr, DecidableEq

/-- Whether a declaration is one within a function. -/
def Declaration.isCell : Declaration → Bool
  | cell _ => true
  | _ => false

/-- A place where a name is used, with the declaration that it stands for. -/
structure Occurrence where
  span : Span
  name : String
  declaration : Option Declaration
deriving Repr, DecidableEq

/-! ## Scopes -/

/-- A table in which several names are given something to stand for, one after the other. -/
def Bindings.setAll {α : Type} (b : Bindings α) (entries : List (String × α)) : Bindings α :=
  entries.foldl (fun b e => b.set e.1 e.2) b

/-- Scopes in which several names are declared one after the other. -/
def Scoped.declareAll {α : Type} (scopes : Scoped α) (entries : List (String × α)) : Scoped α :=
  entries.foldl (fun scopes e => scopes.declare e.1 e.2) scopes

/-- The scopes with the parameters of a function in the innermost one. -/
def declareCells (scopes : Scoped Declaration) (params : List Parameter) : Scoped Declaration :=
  params.foldl (fun scopes p => scopes.declare p.name (.cell p.span)) scopes

/-- The scopes behind a statement. -/
def Stmt.scopesBehind (scopes : Scoped Declaration) : Stmt → Scoped Declaration
  | .define name _ span | .var name _ _ span => scopes.declare name (.cell span)
  | _ => scopes

/-! ## Occurrences of names -/

mutual

/-- **The names that an expression uses**, each with the declaration that it stands for. -/
def Expr.occurrences (scopes : Scoped Declaration) : Expr → List Occurrence
  | .literal _ _ => []
  | .identifier name span => [⟨span, name, scopes.find? name⟩]
  | .binary _ left right _ => left.occurrences scopes ++ right.occurrences scopes
  | .unary _ operand _ => operand.occurrences scopes
  | .call function arguments _ =>
    function.occurrences scopes ++ Expr.occurrencesOfAll scopes arguments
  | .selector target _ span => [⟨span, target, scopes.find? target⟩]
  | .function params _ (.mk statements _) _ =>
    Stmt.occurrencesOfAll (declareCells scopes.push params) statements

/-- The names that several expressions use. -/
def Expr.occurrencesOfAll (scopes : Scoped Declaration) : List Expr → List Occurrence
  | [] => []
  | e :: es => e.occurrences scopes ++ Expr.occurrencesOfAll scopes es

/-- **The names that a statement uses.** The target of an assignment is used at the place of the
assignment. -/
def Stmt.occurrences (scopes : Scoped Declaration) : Stmt → List Occurrence
  | .define _ value _ => value.occurrences scopes
  | .var _ _ value _ =>
    match value with
    | some e => e.occurrences scopes
    | none => []
  | .assign target _ value span =>
    ⟨span, target, scopes.find? target⟩ :: value.occurrences scopes
  | .increment target _ span => [⟨span, target, scopes.find? target⟩]
  | .expr value => value.occurrences scopes
  | .ret value _ =>
    match value with
    | some e => e.occurrences scopes
    | none => []
  | .breakLoop _ | .continueLoop _ => []
  | .cond condition (.mk thenStatements _) elseBlock _ =>
    condition.occurrences scopes ++ (Stmt.occurrencesOfAll scopes.push thenStatements ++
      match elseBlock with
      | some (.mk elseStatements _) => Stmt.occurrencesOfAll scopes.push elseStatements
      | none => [])
  | .loop init condition post (.mk statements _) _ =>
    let inner := match init with
      | some i => i.scopesBehind scopes.push
      | none => scopes.push
    (match init with
      | some i => i.occurrences scopes.push
      | none => []) ++ ((match condition with
      | some c => c.occurrences inner
      | none => []) ++ ((match post with
      | some p => p.occurrences inner
      | none => []) ++ Stmt.occurrencesOfAll inner.push statements))
  | .block (.mk statements _) => Stmt.occurrencesOfAll scopes.push statements

/-- The names that several statements use, one after the other. -/
def Stmt.occurrencesOfAll (scopes : Scoped Declaration) : List Stmt → List Occurrence
  | [] => []
  | s :: ss => s.occurrences scopes ++ Stmt.occurrencesOfAll (s.scopesBehind scopes) ss

end

/-- The names that an expression uses, if it is there. -/
def Expr.occurrencesIn (scopes : Scoped Declaration) : Option Expr → List Occurrence
  | some e => e.occurrences scopes
  | none => []

/-- The names that a statement uses, if it is there. -/
def Stmt.occurrencesIn (scopes : Scoped Declaration) : Option Stmt → List Occurrence
  | some s => s.occurrences scopes
  | none => []

/-- The names that a block uses, if it is there. -/
def Block.occurrencesIn (scopes : Scoped Declaration) : Option Block → List Occurrence
  | some b => Stmt.occurrencesOfAll scopes.push b.statements
  | none => []

namespace Program

variable (p : Program) (entryPoint : String)

/-- The package-level declarations before the variable with the given index: imports, the functions
that `known` lets pass, and variables. -/
def declarations (known : String → Bool) (count : Nat) : List (String × Declaration) :=
  p.imports.map (fun i => (i.binding, .package i.path)) ++
    ((p.functions.filter fun d => known d.name).map (fun d => (d.name, .function d.name)) ++
      (p.vars.zipIdx.take count).map fun d => (d.1.name, .global d.2))

/-- The predeclared functions. -/
def predeclared : List (String × Declaration) :=
  Builtin.all.map fun b => (b.name, .predeclared b)

/-- The scopes outside of all functions, before the variable with the given index. The entry function
is not in scope. -/
def scope (count : Nat) : Scoped Declaration :=
  Scoped.declareAll [[], Bindings.setAll [] predeclared] (p.declarations (· ≠ entryPoint) count)

/-- **The names that a program uses**, each with the declaration that it stands for. An initial value
is in the scope of the variables before it, and the body of a function in that of all variables. -/
def occurrences : List Occurrence :=
  p.vars.zipIdx.flatMap (fun d => Expr.occurrencesIn (p.scope entryPoint d.2) d.1.value) ++
    p.functions.flatMap fun d => Stmt.occurrencesOfAll
      (declareCells (p.scope entryPoint p.vars.length).push d.params) d.body.statements

end Program

/-! ## The scopes of the checker -/

/-- **The same names are declared in the same scopes**, for the checker with their types. -/
def Alike (scopes : Scoped Ty) (declared : Scoped Declaration) : Prop :=
  scopes.map (·.map Prod.fst) = declared.map (·.map Prod.fst)

theorem Bindings.map_fst_set {α β : Type} {b : Bindings α} {c : Bindings β}
    (h : b.map Prod.fst = c.map Prod.fst) (name : String) (x : α) (y : β) :
    (b.set name x).map Prod.fst = (c.set name y).map Prod.fst := by
  induction b generalizing c with
  | nil =>
    cases c with
    | nil => rfl
    | cons => cases h
  | cons e b ih =>
    cases c with
    | nil => cases h
    | cons e' c =>
      obtain ⟨key, a⟩ := e
      obtain ⟨key', a'⟩ := e'
      rw [List.map_cons, List.map_cons, List.cons.injEq] at h
      obtain ⟨rfl, h⟩ := h
      simp only [Bindings.set]
      split
      · exact congrArg (key :: ·) h
      · exact congrArg (key :: ·) (ih h)

theorem Bindings.isSome_get?_eq {α β : Type} {b : Bindings α} {c : Bindings β}
    (h : b.map Prod.fst = c.map Prod.fst) (name : String) :
    (b.get? name).isSome = (c.get? name).isSome := by
  induction b generalizing c with
  | nil =>
    cases c with
    | nil => rfl
    | cons => cases h
  | cons e b ih =>
    cases c with
    | nil => cases h
    | cons e' c =>
      obtain ⟨key, a⟩ := e
      obtain ⟨key', a'⟩ := e'
      rw [List.map_cons, List.map_cons, List.cons.injEq] at h
      obtain ⟨rfl, h⟩ := h
      simp only [Bindings.get?]
      split
      · rfl
      · exact ih h

namespace Alike

variable {scopes : Scoped Ty} {declared : Scoped Declaration}

theorem push (h : Alike scopes declared) : Alike scopes.push declared.push :=
  congrArg ([] :: ·) h

theorem declare (h : Alike scopes declared) (name : String) (t : Ty) (d : Declaration) :
    Alike (scopes.declare name t) (declared.declare name d) := by
  rcases scopes with _ | ⟨b, scopes⟩ <;> rcases declared with _ | ⟨c, declared⟩
  · rfl
  · cases h
  · cases h
  · obtain ⟨hb, hs⟩ := List.cons.inj h
    exact List.cons_eq_cons.mpr ⟨Bindings.map_fst_set hb name t d, hs⟩

/-- **A name that the checker finds has a declaration.** -/
theorem find? (h : Alike scopes declared) {name : String} {t : Ty}
    (hfound : scopes.find? name = some t) : ∃ d, declared.find? name = some d := by
  induction scopes generalizing declared with
  | nil => cases hfound
  | cons b scopes ih =>
    rcases declared with _ | ⟨c, declared⟩
    · cases h
    obtain ⟨hb, hs⟩ := List.cons.inj h
    have hsome := Bindings.isSome_get?_eq hb name
    simp only [Scoped.find?, List.findSome?_cons] at hfound ⊢
    cases hc : c.get? name with
    | some d => exact ⟨d, rfl⟩
    | none =>
      rw [hc] at hsome
      cases hbn : b.get? name with
      | some t =>
        rw [hbn] at hsome
        cases hsome
      | none =>
        rw [hbn] at hfound
        exact ih hs hfound

/-- Parameters are declared with their types where the checker sees them. -/
theorem declareCells {inner : Scoped Ty} {params : List Parameter} (h : Alike scopes declared)
    (hparams : declareParams scopes params = .ok inner) :
    Alike inner (declareCells declared params) := by
  induction params generalizing scopes declared with
  | nil =>
    cases hparams
    exact h
  | cons p params ih =>
    rw [declareParams] at hparams
    split at hparams
    · cases hparams
    · split at hparams
      · exact ih (h.declare p.name _ _) hparams
      · cases hparams

/-- The scopes behind a statement are alike again. -/
theorem scopesBehind {floats : List Span} {result : Ty} {inLoop : Bool} {s : Stmt}
    {scopes' : Scoped Ty} (h : Alike scopes declared)
    (hs : s.Typed floats result inLoop scopes scopes') :
    Alike scopes' (s.scopesBehind declared) := by
  cases hs with
  | define => exact h.declare ..
  | var => exact h.declare ..
  | _ => exact h

end Alike

end Formula
