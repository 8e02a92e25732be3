import Formula.Program

/-!
# Induction over programs

Expressions, statements and blocks lie within one another. A property of all of them is proved by
one case for each form of expression and statement, where the property holds of the parts.

## Main definitions

* `SyntaxCases P A Q S`: the cases of an induction, for expressions, rows of expressions,
  statements and rows of statements

## Main results

* `SyntaxCases.all`: what is closed under all forms holds of all of them
-/

namespace Formula

/-- **The cases of an induction over programs.** Optional parts and the statements of a block are
given as what holds of them if they are there. -/
structure SyntaxCases (P : Expr → Prop) (A : List Expr → Prop) (Q : Stmt → Prop)
    (S : List Stmt → Prop) : Prop where
  literal : ∀ value span, P (.literal value span)
  identifier : ∀ name span, P (.identifier name span)
  binary : ∀ op left right span, P left → P right → P (.binary op left right span)
  unary : ∀ op operand span, P operand → P (.unary op operand span)
  call : ∀ function arguments span, P function → A arguments → P (.call function arguments span)
  selector : ∀ target member span, P (.selector target member span)
  function : ∀ params result statements bodySpan span,
    S statements → P (.function params result (.mk statements bodySpan) span)
  noArguments : A []
  argument : ∀ e es, P e → A es → A (e :: es)
  define : ∀ name value span, P value → Q (.define name value span)
  var : ∀ name type value span, (∀ e ∈ value, P e) → Q (.var name type value span)
  assign : ∀ target op value span, P value → Q (.assign target op value span)
  increment : ∀ target up span, Q (.increment target up span)
  expr : ∀ value, P value → Q (.expr value)
  ret : ∀ value span, (∀ e ∈ value, P e) → Q (.ret value span)
  breakLoop : ∀ span, Q (.breakLoop span)
  continueLoop : ∀ span, Q (.continueLoop span)
  cond : ∀ condition thenStatements thenSpan elseBlock span, P condition → S thenStatements →
    (∀ b ∈ elseBlock, S b.statements) →
    Q (.cond condition (.mk thenStatements thenSpan) elseBlock span)
  loop : ∀ init condition post statements bodySpan span, (∀ i ∈ init, Q i) →
    (∀ c ∈ condition, P c) → (∀ p ∈ post, Q p) → S statements →
    Q (.loop init condition post (.mk statements bodySpan) span)
  block : ∀ statements span, S statements → Q (.block (.mk statements span))
  noStatements : S []
  statement : ∀ s ss, Q s → S ss → S (s :: ss)

namespace SyntaxCases

variable {P : Expr → Prop} {A : List Expr → Prop} {Q : Stmt → Prop} {S : List Stmt → Prop}

mutual

theorem ofExpr (h : SyntaxCases P A Q S) : (e : Expr) → P e
  | .literal _ _ => h.literal ..
  | .identifier _ _ => h.identifier ..
  | .binary _ left right _ => h.binary _ _ _ _ (h.ofExpr left) (h.ofExpr right)
  | .unary _ operand _ => h.unary _ _ _ (h.ofExpr operand)
  | .call function arguments _ => h.call _ _ _ (h.ofExpr function) (h.ofExprs arguments)
  | .selector _ _ _ => h.selector ..
  | .function _ _ (.mk statements _) _ => h.function _ _ _ _ _ (h.ofStmts statements)

theorem ofExprs (h : SyntaxCases P A Q S) : (es : List Expr) → A es
  | [] => h.noArguments
  | e :: es => h.argument _ _ (h.ofExpr e) (h.ofExprs es)

theorem ofStmt (h : SyntaxCases P A Q S) : (s : Stmt) → Q s
  | .define _ value _ => h.define _ _ _ (h.ofExpr value)
  | .var _ _ none _ => h.var _ _ _ _ (by simp)
  | .var _ _ (some value) _ => h.var _ _ _ _ (by simpa using h.ofExpr value)
  | .assign _ _ value _ => h.assign _ _ _ _ (h.ofExpr value)
  | .increment _ _ _ => h.increment ..
  | .expr value => h.expr _ (h.ofExpr value)
  | .ret none _ => h.ret _ _ (by simp)
  | .ret (some value) _ => h.ret _ _ (by simpa using h.ofExpr value)
  | .breakLoop _ => h.breakLoop ..
  | .continueLoop _ => h.continueLoop ..
  | .cond condition (.mk thenStatements _) none _ =>
    h.cond _ _ _ _ _ (h.ofExpr condition) (h.ofStmts thenStatements) (by simp)
  | .cond condition (.mk thenStatements _) (some (.mk elseStatements _)) _ =>
    h.cond _ _ _ _ _ (h.ofExpr condition) (h.ofStmts thenStatements)
      (by simpa using h.ofStmts elseStatements)
  | .loop init condition post (.mk statements _) _ =>
    h.loop _ _ _ _ _ _
      (match init with
        | none => by simp
        | some i => by simpa using h.ofStmt i)
      (match condition with
        | none => by simp
        | some c => by simpa using h.ofExpr c)
      (match post with
        | none => by simp
        | some p => by simpa using h.ofStmt p)
      (h.ofStmts statements)
  | .block (.mk statements _) => h.block _ _ (h.ofStmts statements)

theorem ofStmts (h : SyntaxCases P A Q S) : (ss : List Stmt) → S ss
  | [] => h.noStatements
  | s :: ss => h.statement _ _ (h.ofStmt s) (h.ofStmts ss)

end

/-- **Induction over programs**: what all forms pass on from their parts holds of everything. -/
theorem all (h : SyntaxCases P A Q S) :
    (∀ e, P e) ∧ (∀ es, A es) ∧ (∀ s, Q s) ∧ ∀ ss, S ss :=
  ⟨h.ofExpr, h.ofExprs, h.ofStmt, h.ofStmts⟩

end SyntaxCases

end Formula
