import Formula.Typing.Check

/-!
# Checking, form by form

What the checker does with the statements that have optional parts, with a computation of its own
for each of these parts.

## Main definitions

* `checkBool`: an expression is a condition
* `checkInit`, `checkPost`, `checkElse`: the optional parts of loops and choices

## Main results

* `checkStmt_loop`: a loop is checked part by part
-/

namespace Formula

variable (f : Surroundings) (scopes : Scoped Ty)

/-- Checks a condition. -/
def checkBool (place : ConditionPlace) (e : Expr) : Check Unit := do
  let t ← valueType e (checkExpr scopes e)
  if t ≠ .bool then .fail e.span (.notBoolean place t) else pure ()

/-- Checks a condition that may be missing. -/
def checkCondition : Option Expr → Check Unit
  | some c => checkBool scopes .loop c
  | none => pure ()

/-- Checks what is done before the rounds of a loop, and gives the scopes of the rounds. -/
def checkInit : Option Stmt → Check (Scoped Ty)
  | some s => checkStmt f scopes.push s
  | none => pure scopes.push

/-- Checks what is done after each round of a loop; it must not declare anything. -/
def checkPost : Option Stmt → Check (Scoped Ty)
  | some (.define _ _ span) => .fail span .postDeclaration
  | some s => checkStmt f scopes s
  | none => pure scopes

/-- Checks a block that may be missing. -/
def checkElse : Option Block → Check Unit
  | some b => checkStmts f scopes.push b.statements
  | none => pure ()

/-- The type of a declared variable. -/
def declaredType (type : Option TypeExpr) (value : Option Expr) (span : Span) : Check Ty :=
  match value with
  | some value => initialisedType type value (checkExpr scopes value)
  | none => uninitialisedType type span

/-- Checks what is assigned, given the type of the target. -/
def checkAssigned (t : Ty) (op : Option BinaryOp) (value : Expr) (span : Span) : Check Unit := do
  let found ← valueTypeFor value t (checkExpr scopes value)
  match op with
  | none => checkAccepts t found value.span .assignment
  | some op =>
    let result ← operationType op t found span
    checkAccepts t result span .assignment

/-- Checks a result against the result type of the function; it is noted where that is to be
inferred. -/
def checkResult (value : Option Expr) (span : Span) : Check Unit :=
  match f.result, value with
  | some .void, some value => .fail value.span .manyResults
  | some .void, none => pure ()
  | _, none => .fail span .noResult
  | some wanted, some value => do
    let found ← valueTypeFor value wanted (checkExpr scopes value)
    checkAccepts wanted found value.span .result
  | none, some value => do
    let t ← valueType value (checkExpr scopes value)
    Check.addResult ⟨t, value.span, value.constants?.getD []⟩

theorem checkStmt_var (name : String) (type : Option TypeExpr) (value : Option Expr) (span : Span) :
    checkStmt f scopes (.var name type value span) = (do
      if scopes.declares name then Check.fail span (.redeclared name)
      let t ← declaredType scopes type value span
      return scopes.declare name t) := by
  rw [checkStmt]
  cases value <;> rfl

theorem checkStmt_assign (target : String) (op : Option BinaryOp) (value : Expr) (span : Span) :
    checkStmt f scopes (.assign target op value span) = (do
      let t ← targetType scopes target span
      checkAssigned scopes t op value span
      return scopes) := by
  rw [checkStmt]
  cases op <;> simp [checkAssigned]

theorem checkStmt_ret (value : Option Expr) (span : Span) :
    checkStmt f scopes (.ret value span) = (do
      checkResult f scopes value span
      return scopes) := by
  obtain ⟨result, inLoop⟩ := f
  rw [checkStmt.eq_def]
  dsimp only
  rcases result with _ | result
  · cases value with
    | none => rfl
    | some e => simp [checkResult]
  · cases value <;> cases result <;> first | rfl | simp [checkResult]

theorem checkStmt_cond (condition : Expr) (thenStatements : List Stmt) (thenSpan : Span)
    (elseBlock : Option Block) (span : Span) :
    checkStmt f scopes (.cond condition (.mk thenStatements thenSpan) elseBlock span) = (do
      checkBool scopes .choice condition
      checkStmts f scopes.push thenStatements
      checkElse f scopes elseBlock
      return scopes) := by
  rw [checkStmt, checkBool, bind_assoc]
  refine bind_congr fun t => ?_
  by_cases ht : t = .bool <;> rcases elseBlock with _ | ⟨statements, blockSpan⟩ <;>
    simp [ht, checkElse]

theorem checkStmt_loop (init : Option Stmt) (condition : Option Expr) (post : Option Stmt)
    (statements : List Stmt) (bodySpan span : Span) :
    checkStmt f scopes (.loop init condition post (.mk statements bodySpan) span) = (do
      let inner ← checkInit f scopes init
      checkCondition inner condition
      let inner ← checkPost f inner post
      checkStmts { f with inLoop := true } inner.push statements
      return scopes) := by
  rw [checkStmt.eq_def]
  cases init <;> rcases condition with _ | c <;> rcases post with _ | post <;>
    simp only [checkInit, checkCondition, checkBool, checkPost, pure_bind, bind_assoc]
  · cases post <;> rfl
  · refine bind_congr fun t => ?_
    by_cases ht : t = .bool <;> simp [ht]
  · refine bind_congr fun t => ?_
    by_cases ht : t = .bool <;> cases post <;> simp [ht]
  · refine bind_congr fun inner => ?_
    cases post <;> rfl
  · refine bind_congr fun inner => bind_congr fun t => ?_
    by_cases ht : t = .bool <;> simp [ht]
  · refine bind_congr fun inner => bind_congr fun t => ?_
    by_cases ht : t = .bool <;> cases post <;> simp [ht]

end Formula
