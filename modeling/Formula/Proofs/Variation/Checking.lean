import Formula.Proofs.Shift.Carry
import Formula.Proofs.Typing.Bodies
import Formula.Proofs.Typing.Effects
import Formula.Proofs.Typing.Forms
import Formula.Proofs.Variation.Trees

/-!
# Checking variants of a tree

A variant is accepted where the tree is, in scopes in which each name stands for the same, and then it
has the same type. What the checker has noted before does not matter for that, and it notes the same, but
for the ones that increments are written out with.

## Main definitions

* `Scoped.Same`: scopes in which each name stands for the same
* `Notes.Kept V S`: what is noted of a tree and of a variant keeps the notes in the relation `S`
* `Check.Varies S W x y`: `y` fails where `x` does, or both give something related and note the same
* `Expr.CheckedAlike`, `Stmt.CheckedAlike`: a tree and its variants are checked alike

## Main results

* `Stmt.alike_operation`, `Stmt.alike_one`: what is written out
* `alike_checks`: expressions and statements
* `Check.varies_checkFunction`: the bodies of functions
-/

namespace Formula

/-! ## Scopes -/

/-- Tables in which each name stands for the same. -/
def Bindings.Same {α : Type} (b b' : Bindings α) : Prop :=
  ∀ name, b'.get? name = b.get? name

/-- **Scopes in which each name stands for the same.** -/
abbrev Scoped.Same {α : Type} (s s' : Scoped α) : Prop :=
  List.Forall₂ Bindings.Same s s'

namespace Scoped.Same

variable {α : Type} {s s' : Scoped α}

theorem refl (s : Scoped α) : Same s s :=
  List.forall₂_same.mpr fun _ _ _ => rfl

theorem find?_eq (h : Same s s') (name : String) : s'.find? name = s.find? name := by
  induction h with
  | nil => rfl
  | cons hb _ ih =>
    simp only [find?, List.findSome?_cons] at ih ⊢
    rw [hb name, ih]

theorem declares_eq (h : Same s s') (name : String) : s'.declares name = s.declares name := by
  cases h with
  | nil => rfl
  | cons hb => exact congrArg Option.isSome (hb name)

theorem push (h : Same s s') : Same s.push s'.push :=
  .cons (fun _ => rfl) h

theorem declare (h : Same s s') (name : String) (a : α) :
    Same (s.declare name a) (s'.declare name a) := by
  cases h with
  | nil => exact .nil
  | cons hb h =>
    refine .cons (fun other => ?_) h
    rw [Bindings.get?_set, Bindings.get?_set, hb other]

end Scoped.Same

/-! ## Notes -/

variable {V : Variation} {S : Notes → Notes → Prop} {α β γ δ : Type} {W : α → β → Prop}
  {W' : γ → δ → Prop}

/-- **The notes of the two checks stay related**, whatever is marked in both trees, and with the ones that
increments are written out with. -/
structure Notes.Kept (V : Variation) (S : Notes → Notes → Prop) : Prop where
  mark : ∀ {n n' : Notes} {spans : List Span}, S n n' → (∀ s ∈ spans, V.Old s) →
    S (n.mark spans) (n'.mark spans)
  one : ∀ {n n' : Notes} {s : Span}, S n n' → V.ones s → S n (n'.mark [s])

/-- The notes of the two checks stay related, if the same result of the entry function is added. -/
def Notes.KeptResults (V : Variation) (S : Notes → Notes → Prop) : Prop :=
  ∀ n n' (r : InferredResult), S n n' → (∀ s ∈ r.constants, V.Old s) →
    S { n with results := r :: n.results } { n' with results := r :: n'.results }

/-- What becomes a floating-point number with an expression is no node that something is written out
with. -/
theorem Expr.Variant.old {e e' : Expr} (h : e.Variant V e') {spans : List Span}
    (hspans : e.constants? = some spans) : ∀ s ∈ spans, V.Old s :=
  h.old_of_constant (constant_of_constants? hspans)

namespace Check

/-- **One computation does what another one does**: both fail, or both give something related and note
the same. -/
abbrev Varies (S : Notes → Notes → Prop) (W : α → β → Prop) (x : Check α) (y : Check β) : Prop :=
  Relates S (fun _ _ => True) W x y

theorem varies_fail {span span' : Span} {cause cause' : TypeCause} :
    Varies S W (fail span cause) (fail span' cause') :=
  .throw trivial

theorem varies_ofExcept (r : Except TypeError α) : Varies S Eq (r : Check α) (r : Check α) := by
  intro n n' hn
  cases r with
  | error e => exact .error trivial
  | ok a => exact .ok rfl hn

/-- A result is no error. -/
theorem ofExcept_ok (a : α) : ((Except.ok a : Except TypeError α) : Check α) = pure a := rfl

theorem varies_resolved (r : Except UnknownType α) : Varies S Eq (resolved r) (resolved r) := by
  cases r with
  | error u => exact .throw trivial
  | ok a => exact .pure rfl

/-- A check that comes before the rest of a computation. -/
theorem varies_unless {c c' : Prop} [Decidable c] [Decidable c'] (hc : c ↔ c') {span span' : Span}
    {cause cause' : TypeCause} {f : Unit → Check α} {g : Unit → Check β}
    (h : Varies S W (f ()) (g ())) :
    Varies S W (if c then fail span cause >>= f else f ())
      (if c' then fail span' cause' >>= g else g ()) :=
  .ite hc (varies_fail.bind (R := Eq) fun _ _ _ => h) h

/-! ## Parts of trees -/

theorem varies_checkCount {callee callee' : Expr} (h : callee.Variant V callee') (params : List Ty)
    (variadic : Option Ty) (count : Nat) (span : Span) :
    Varies S Eq (checkCount callee params variadic count span)
      (checkCount callee' params variadic count span) := by
  unfold checkCount
  rw [h.calleeName_eq]
  exact .ite Iff.rfl varies_fail (.ite Iff.rfl varies_fail (.pure rfl))

theorem varies_checkAccepts {wanted found : Ty} {span span' : Span} {place : ValuePlace} :
    Varies S Eq (checkAccepts wanted found span place) (checkAccepts wanted found span' place) :=
  .ite Iff.rfl (.pure rfl) varies_fail

theorem varies_uninitialisedType (type : Option TypeExpr) (span : Span) :
    Varies S Eq (uninitialisedType type span) (uninitialisedType type span) := by
  cases type with
  | none => exact varies_fail
  | some type => exact varies_resolved _

theorem varies_checkEnd (result : Option Ty) {body body' : Block} (h : body.Variant V body') :
    Varies S Eq (checkEnd result body) (checkEnd result body') := by
  unfold checkEnd
  rw [h.terminates_eq]
  exact .ite Iff.rfl varies_fail (.pure rfl)

/-- The target of an assignment is a variable of the same type, if it is one. -/
theorem varies_targetType {scopes scopes' : Scoped Ty} (h : scopes.Same scopes') (name : String)
    (span span' : Span) :
    Varies S (fun t t' => t = t' ∧ scopes.find? name = some t ∧ t.isValue = true)
      (targetType scopes name span : Check Ty) (targetType scopes' name span' : Check Ty) := by
  unfold targetType
  rw [h.find?_eq]
  cases hfind : scopes.find? name with
  | none => exact fun _ _ _ => .error trivial
  | some t =>
    dsimp only
    split
    · exact fun _ _ hn => .ok ⟨rfl, rfl, ‹_›⟩ hn
    · exact fun _ _ _ => .error trivial

theorem varies_declareParams {scopes scopes' : Scoped Ty} (h : scopes.Same scopes')
    (params : List Parameter) :
    Varies S Scoped.Same (declareParams scopes params : Check (Scoped Ty))
      (declareParams scopes' params : Check (Scoped Ty)) := by
  induction params generalizing scopes scopes' with
  | nil => exact fun _ _ hn => .ok h hn
  | cons p params ih =>
    rw [declareParams, declareParams, h.declares_eq]
    split
    · exact fun _ _ _ => .error trivial
    · cases p.type.resolve with
      | error u => exact fun _ _ _ => .error trivial
      | ok t => exact ih (h.declare p.name t)

section Values

variable {e e' left left' right right' : Expr} {x y x' y' : Check Ty}

theorem varies_valueType (he : e.Variant V e') (h : Varies S Eq x y) :
    Varies S Eq (valueType e x) (valueType e' y) := by
  refine h.bind fun t t' ht => ?_
  have hused : usedType e' t = usedType e t := by
    unfold usedType
    rw [he.span_eq, he.calleeName_eq]
  rw [← ht, hused]
  exact varies_ofExcept _

variable (hS : Notes.Kept V S)
include hS

theorem varies_mark {spans : List Span} (h : ∀ s ∈ spans, V.Old s) :
    Varies S Eq (mark spans) (mark spans) :=
  fun _ _ hn => .ok rfl (hS.mark hn h)

theorem varies_valueTypeFor (he : e.Variant V e') (wanted : Ty) (h : Varies S Eq x y) :
    Varies S Eq (valueTypeFor e wanted x) (valueTypeFor e' wanted y) := by
  unfold valueTypeFor
  rw [he.constants?_eq]
  cases hc : e.constants? with
  | none => cases wanted <;> exact varies_valueType he h
  | some spans =>
    cases wanted with
    | float =>
      exact h.bind fun _ _ _ => (varies_mark hS (he.old hc)).bind fun _ _ _ => .pure rfl
    | _ => exact varies_valueType he h

theorem varies_operandTypes (hl : left.Variant V left') (hr : right.Variant V right')
    (h : Varies S Eq x y) (h' : Varies S Eq x' y') :
    Varies S Eq (operandTypes left right x x') (operandTypes left' right' y y') := by
  unfold operandTypes
  rw [hl.isConstant_eq, hr.isConstant_eq]
  refine .ite Iff.rfl ?_ ?_
  · refine (varies_valueType hr h').bind fun r r' hrr => ?_
    subst hrr
    exact (varies_valueTypeFor hS hl r h).bind fun l l' hll => .pure (by rw [hll])
  · refine (varies_valueType hl h).bind fun l l' hll => ?_
    subst hll
    exact (varies_valueTypeFor hS hr l h').bind fun r r' hrr => .pure (by rw [hrr])

theorem varies_initialisedType (he : e.Variant V e') (type : Option TypeExpr)
    (h : Varies S Eq x y) :
    Varies S Eq (initialisedType type e x) (initialisedType type e' y) := by
  cases type with
  | none => exact varies_valueType he h
  | some type =>
    refine (varies_resolved _).bind fun t t' ht => ?_
    subst ht
    refine (varies_valueTypeFor hS he t h).bind fun found found' hfound => ?_
    subst hfound
    exact varies_checkAccepts.bind fun _ _ _ => .pure rfl

end Values

end Check

open Check

/-! ## Expressions and statements -/

/-- **An expression and its variants are checked alike.** -/
def Expr.CheckedAlike (V : Variation) (S : Notes → Notes → Prop) (e : Expr) : Prop :=
  ∀ e', e.Variant V e' → ∀ scopes scopes', Scoped.Same scopes scopes' →
    Varies S Eq (checkExpr scopes e) (checkExpr scopes' e')

/-- **A statement and its variants are checked alike**; where the result type of the function is to be
inferred, results are noted. -/
def Stmt.CheckedAlike (V : Variation) (S : Notes → Notes → Prop) (s : Stmt) : Prop :=
  ∀ s', s.Variant V s' → ∀ f : Surroundings, (f.result = none → Notes.KeptResults V S) →
    ∀ scopes scopes', Scoped.Same scopes scopes' →
      Varies S Scoped.Same (checkStmt f scopes s) (checkStmt f scopes' s')

/-- Statements in a row and their variants are checked alike. -/
def Stmt.AllAlike (V : Variation) (S : Notes → Notes → Prop) (ss : List Stmt) : Prop :=
  ∀ ss', List.Forall₂ (Stmt.Variant V) ss ss' → ∀ f : Surroundings,
    (f.result = none → Notes.KeptResults V S) → ∀ scopes scopes', Scoped.Same scopes scopes' →
      Varies S Eq (checkStmts f scopes ss) (checkStmts f scopes' ss')

section Forms

variable (hS : Notes.Kept V S) {scopes scopes' : Scoped Ty} {f : Surroundings}
  (hf : f.result = none → Notes.KeptResults V S)

include hS

theorem varies_checkArguments {es es' : List Expr} (h : ∀ e ∈ es, e.CheckedAlike V S)
    (hes : List.Forall₂ (Expr.Variant V) es es') (hscopes : scopes.Same scopes')
    (variadic : Option Ty) (params : List Ty) :
    Varies S Eq (checkArguments scopes variadic params es)
      (checkArguments scopes' variadic params es') := by
  induction hes generalizing params with
  | nil =>
    rw [checkArguments, checkArguments]
    exact .pure rfl
  | cons he _ ih =>
    obtain ⟨h, hrest⟩ := List.forall_mem_cons.mp h
    rw [checkArguments, checkArguments]
    refine (varies_valueTypeFor hS he _ (h _ he _ _ hscopes)).bind fun found found' hfound => ?_
    subst hfound
    exact varies_checkAccepts.bind fun _ _ _ => ih hrest params.tail

theorem Expr.alike_call {function : Expr} {arguments : List Expr} {span : Span}
    (hf : function.CheckedAlike V S) (ha : ∀ a ∈ arguments, a.CheckedAlike V S) :
    (call function arguments span).CheckedAlike V S := by
  intro e' hvariant scopes scopes' hscopes
  cases hvariant with
  | call hfunction harguments =>
    rw [checkExpr, checkExpr]
    refine (hf _ hfunction _ _ hscopes).bind fun t t' ht => ?_
    subst ht
    cases t with
    | builtin b =>
      -- A predeclared function takes just one argument.
      cases harguments with
      | nil => exact varies_fail
      | cons h hrest =>
        cases hrest with
        | nil =>
          refine (varies_valueType h (ha _ List.mem_cons_self _ h _ _ hscopes)).bind
            fun t t' ht => ?_
          subst ht
          rw [h.span_eq]
          exact varies_ofExcept _
        | cons => exact varies_fail
    | function params variadic result =>
      dsimp only
      rw [harguments.length_eq]
      exact (varies_checkCount hfunction _ _ _ _).bind fun _ _ _ =>
        (varies_checkArguments hS ha harguments hscopes variadic params).bind fun _ _ _ => .pure rfl
    | _ => exact varies_fail

omit hS in
theorem Expr.alike_function {params : List Parameter} {result : Option TypeExpr}
    {statements : List Stmt} {bodySpan span : Span} (h : Stmt.AllAlike V S statements) :
    (function params result (.mk statements bodySpan) span).CheckedAlike V S := by
  intro e' hvariant scopes scopes' hscopes
  cases hvariant with
  | function hb =>
    cases hb with
    | mk hstatements =>
      rw [checkExpr, checkExpr]
      refine (varies_resolved _).bind fun type type' htype => ?_
      subst htype
      refine (varies_resolved _).bind fun resultType resultType' hresult => ?_
      subst hresult
      refine (varies_declareParams hscopes.push params).bind fun inner inner' hinner => ?_
      -- The result type is known in a body, so nothing is noted of its results.
      refine (h _ hstatements _ (by rintro ⟨⟩) _ _ hinner).bind fun _ _ _ => ?_
      exact (varies_checkEnd (V := V) _ (.mk hstatements)).bind fun _ _ _ => .pure rfl

omit hS in
theorem varies_checkBool {e e' : Expr} (he : e.Variant V e') (h : e.CheckedAlike V S)
    (hscopes : scopes.Same scopes') (place : ConditionPlace) :
    Varies S Eq (checkBool scopes place e) (checkBool scopes' place e') := by
  refine (varies_valueType he (h _ he _ _ hscopes)).bind fun t t' ht => ?_
  subst ht
  exact .ite Iff.rfl varies_fail (.pure rfl)

theorem varies_declaredType {value value' : Option Expr}
    (hrel : Option.Rel (Expr.Variant V) value value') (h : ∀ e ∈ value, e.CheckedAlike V S)
    (hscopes : scopes.Same scopes') (type : Option TypeExpr) (span : Span) :
    Varies S Eq (declaredType scopes type value span) (declaredType scopes' type value' span) := by
  cases hrel with
  | none => exact varies_uninitialisedType type span
  | some he => exact varies_initialisedType hS he type (h _ rfl _ he _ _ hscopes)

theorem varies_checkAssigned {value value' : Expr} (hvalue : value.Variant V value')
    (h : value.CheckedAlike V S) (hscopes : scopes.Same scopes') (t : Ty) (op : Option BinaryOp)
    (span : Span) :
    Varies S Eq (checkAssigned scopes t op value span) (checkAssigned scopes' t op value' span) := by
  refine (varies_valueTypeFor hS hvalue t (h _ hvalue _ _ hscopes)).bind fun found found' hfound => ?_
  subst hfound
  rw [hvalue.span_eq]
  cases op with
  | none => exact varies_checkAccepts
  | some op =>
    refine (varies_ofExcept _).bind fun result result' hresult => ?_
    subst hresult
    exact varies_checkAccepts

include hf in
theorem varies_checkResult {value value' : Option Expr}
    (hrel : Option.Rel (Expr.Variant V) value value') (h : ∀ e ∈ value, e.CheckedAlike V S)
    (hscopes : scopes.Same scopes') (span : Span) :
    Varies S Eq (checkResult f scopes value span) (checkResult f scopes' value' span) := by
  obtain ⟨result, inLoop⟩ := f
  cases hrel with
  | none =>
    rcases result with _ | result
    · exact varies_fail
    · cases result <;> first | exact varies_fail | exact .pure rfl
  | @some e e' he =>
    have hvalue := h _ rfl _ he _ _ hscopes
    rcases result with _ | result
    · -- The result type is to be inferred, so the result is noted with the constants in it.
      refine (varies_valueType he hvalue).bind fun t t' ht => ?_
      subst ht
      rw [he.span_eq, he.constants?_eq]
      have hold : ∀ s ∈ e.constants?.getD [], V.Old s := by
        cases hc : e.constants? with
        | none => exact fun _ hs => absurd hs List.not_mem_nil
        | some spans => exact he.old hc
      exact fun n n' hn => .ok rfl (hf rfl n n' _ hn hold)
    · cases result with
      | void => exact varies_fail
      | _ =>
        refine (varies_valueTypeFor hS he _ hvalue).bind fun found found' hfound => ?_
        subst hfound
        exact varies_checkAccepts

section Loops

omit hS

theorem varies_checkCondition {condition condition' : Option Expr}
    (hrel : Option.Rel (Expr.Variant V) condition condition')
    (h : ∀ e ∈ condition, e.CheckedAlike V S)
    (hscopes : scopes.Same scopes') :
    Varies S Eq (checkCondition scopes condition) (checkCondition scopes' condition') := by
  cases hrel with
  | none => exact .pure rfl
  | some he => exact varies_checkBool he (h _ rfl) hscopes .loop

include hf

theorem varies_checkInit {init init' : Option Stmt} (hrel : Option.Rel (Stmt.Variant V) init init')
    (h : ∀ s ∈ init, s.CheckedAlike V S) (hscopes : scopes.Same scopes') :
    Varies S Scoped.Same (checkInit f scopes init) (checkInit f scopes' init') := by
  cases hrel with
  | none => exact .pure hscopes.push
  | some hs => exact h _ rfl _ hs f hf _ _ hscopes.push

theorem varies_checkPost {post post' : Option Stmt} (hrel : Option.Rel (Stmt.Variant V) post post')
    (h : ∀ s ∈ post, s.CheckedAlike V S) (hscopes : scopes.Same scopes') :
    Varies S Scoped.Same (checkPost f scopes post) (checkPost f scopes' post') := by
  cases hrel with
  | none => exact .pure hscopes
  | some hs =>
    have hstmt := h _ rfl _ hs f hf _ _ hscopes
    cases hs with
    | define => exact varies_fail
    | _ => exact hstmt

end Loops

/-! ### What is written out -/

omit hS in
/-- The type of a variable may be used. -/
theorem usedType_of_isValue {e : Expr} {t : Ty} (h : t.isValue = true) : usedType e t = .ok t := by
  cases t <;> first | rfl | cases h

omit hS in
/-- An operation that is written out has the type of its target. -/
theorem operationType_arithmetic {op : BinaryOp} (hop : op.isArithmetic = true) (t found : Ty)
    (span span' : Span) :
    operationType op t found span = .ok t ∧ operationType op t found span' = .ok t ∨
      ∃ e e', operationType op t found span = .error e ∧ operationType op t found span' = .error e' := by
  unfold operationType
  dsimp only
  split
  · exact .inr ⟨_, _, rfl, rfl⟩
  · rw [if_neg (show ¬ op.isComparison = true by cases op <;> simp_all [BinaryOp.isComparison,
      BinaryOp.isArithmetic])]
    split_ifs
    · exact .inr ⟨_, _, rfl, rfl⟩
    · exact .inl ⟨rfl, rfl⟩

omit hS in
/-- What is checked of an assignment of an operation to its left operand, which is a variable. -/
theorem checkAssigned_operation {target : String} {t : Ty} (hfind : scopes.find? target = some t)
    (ht : t.isValue = true) (op : BinaryOp) (value : Expr) (nameSpan opSpan span : Span) :
    checkAssigned scopes t none (.binary op (.identifier target nameSpan) value opSpan) span = (do
      let found ← valueTypeFor value t (checkExpr scopes value)
      let result ← operationType op t found opSpan
      let result ← usedType (.binary op (.identifier target nameSpan) value opSpan) result
      checkAccepts t result opSpan .assignment) := by
  have hname : valueType (.identifier target nameSpan)
      (checkExpr scopes (.identifier target nameSpan)) = pure t := by
    rw [checkExpr, hfind, valueType, pure_bind, usedType_of_isValue ht]
    rfl
  have hexpr : checkExpr scopes (.binary op (.identifier target nameSpan) value opSpan) = (do
      let found ← valueTypeFor value t (checkExpr scopes value)
      operationType op t found opSpan) := by
    rw [checkExpr, operandTypes, if_neg (by simp [Expr.isConstant, Expr.constants?]), hname, pure_bind,
      bind_assoc]
    rfl
  -- The operation is no constant, as its left operand is a name: it does not become a number of the type
  -- of its target.
  have hfor (type : Check Ty) : valueTypeFor
      (.binary op (.identifier target nameSpan) value opSpan) t type =
        valueType (.binary op (.identifier target nameSpan) value opSpan) type := by
    have hconstants : (Expr.binary op (.identifier target nameSpan) value opSpan).constants? = none := by
      cases op <;> rfl
    unfold valueTypeFor
    rw [hconstants]
    cases t <;> rfl
  rw [checkAssigned, hfor, hexpr, valueType]
  simp only [bind_assoc]
  rfl

/-- **An operation that is written out** is accepted where it was: its target has the type that it had,
and is a variable. -/
theorem Stmt.alike_operation {target : String} {op : BinaryOp} (hop : op.isArithmetic = true)
    {value value' : Expr} (hvalue : value.Variant V value') (h : value.CheckedAlike V S)
    (hscopes : scopes.Same scopes') (span nameSpan opSpan span' : Span) :
    Varies S Scoped.Same (checkStmt f scopes (.assign target (some op) value span))
      (checkStmt f scopes'
        (.assign target none (.binary op (.identifier target nameSpan) value' opSpan) span')) := by
  rw [checkStmt_assign, checkStmt_assign]
  refine (varies_targetType hscopes target _ _).bind fun t t' ht => ?_
  obtain ⟨rfl, hfind, ht⟩ := ht
  refine Relates.bind (R := Eq) ?_ fun _ _ _ => .pure hscopes
  rw [checkAssigned_operation ((hscopes.find?_eq target).trans hfind) ht]
  refine (varies_valueTypeFor hS hvalue t (h _ hvalue _ _ hscopes)).bind fun found found' hfound => ?_
  subst hfound
  -- The written operation has the type of the one in the statement, or is refused like it.
  rcases operationType_arithmetic hop t found span opSpan with
    ⟨heq, heq'⟩ | ⟨e, e', heq, heq'⟩
  · dsimp only
    rw [heq, heq', ofExcept_ok, pure_bind, pure_bind, usedType_of_isValue ht, ofExcept_ok, pure_bind]
    exact varies_checkAccepts
  · dsimp only
    rw [heq, heq']
    exact fun _ _ _ => .error trivial

/-- **An increment that is written out** is accepted where it was: the one becomes a floating-point number
if the target is one. -/
theorem Stmt.alike_one {target : String} (up : Bool) {oneSpan : Span} (hnew : V.ones oneSpan)
    (hscopes : scopes.Same scopes') (span span' : Span) :
    Varies S Scoped.Same (checkStmt f scopes (.increment target up span))
      (checkStmt f scopes' (.assign target (some (if up then .add else .sub))
        (.literal (.int 1) oneSpan) span')) := by
  rw [checkStmt_assign, checkStmt]
  refine (varies_targetType hscopes target _ _).bind fun t t' ht => ?_
  obtain ⟨rfl, -, -⟩ := ht
  have hone : checkExpr scopes' (.literal (.int 1) oneSpan) = pure .int := by
    rw [checkExpr]
    rfl
  rw [checkAssigned, hone]
  intro n n' hn
  -- the one is marked where the target is a floating-point number
  cases t with
  | int =>
    cases up <;> exact .ok hscopes hn
  | float =>
    cases up <;> exact .ok hscopes (hS.one hn hnew)
  | _ => exact .error trivial

end Forms

/-- **Expressions, statements and their variants are checked alike.** -/
theorem alike_checks (hS : Notes.Kept V S) :
    SyntaxCases (Expr.CheckedAlike V S) (fun es => ∀ e ∈ es, e.CheckedAlike V S)
      (Stmt.CheckedAlike V S)
      (Stmt.AllAlike V S) where
  literal value span e' h scopes scopes' _ := by
    cases h
    rw [checkExpr, checkExpr]
    exact .pure rfl
  identifier name span e' h scopes scopes' hscopes := by
    cases h
    rw [checkExpr, checkExpr, hscopes.find?_eq]
    cases scopes.find? name with
    | none => exact varies_fail
    | some t => exact .pure rfl
  binary op left right span hl hr e' h scopes scopes' hscopes := by
    cases h with
    | binary _ hleft hright =>
      rw [checkExpr, checkExpr]
      refine (varies_operandTypes hS hleft hright (hl _ hleft _ _ hscopes)
        (hr _ hright _ _ hscopes)).bind fun types types' htypes => ?_
      subst htypes
      exact varies_ofExcept _
  unary op operand span ho e' h scopes scopes' hscopes := by
    cases h with
    | unary hoperand =>
      rw [checkExpr, checkExpr]
      refine (varies_valueType hoperand (ho _ hoperand _ _ hscopes)).bind fun t t' ht => ?_
      subst ht
      exact varies_ofExcept _
  call function arguments span hf ha := Expr.alike_call hS hf ha
  selector target member span e' h scopes scopes' hscopes := by
    cases h
    rw [checkExpr, checkExpr, hscopes.find?_eq]
    exact varies_ofExcept _
  function params result statements bodySpan span hs := Expr.alike_function hs
  noArguments _ he := absurd he List.not_mem_nil
  argument e es he hes := List.forall_mem_cons.mpr ⟨he, hes⟩
  define name value span hv s' h f _ scopes scopes' hscopes := by
    cases h with
    | define hvalue =>
      rw [checkStmt, checkStmt, hscopes.declares_eq]
      refine varies_unless Iff.rfl ?_
      refine (varies_valueType hvalue (hv _ hvalue _ _ hscopes)).bind fun t t' ht => ?_
      exact .pure (ht ▸ hscopes.declare name t)
  var name type value span hv s' h f _ scopes scopes' hscopes := by
    cases h with
    | var hvalue =>
      rw [checkStmt_var, checkStmt_var, hscopes.declares_eq]
      refine varies_unless Iff.rfl ?_
      refine (varies_declaredType hS hvalue hv hscopes type span).bind fun t t' ht => ?_
      exact .pure (ht ▸ hscopes.declare name t)
  assign target op value span hv s' h f _ scopes scopes' hscopes := by
    cases h with
    | assign _ hvalue =>
      rw [checkStmt_assign, checkStmt_assign]
      refine (varies_targetType hscopes target span span).bind fun t t' ht => ?_
      obtain ⟨rfl, -, -⟩ := ht
      exact (varies_checkAssigned hS hvalue hv hscopes t op span).bind fun _ _ _ => .pure hscopes
    | operation _ _ hop _ hvalue => exact Stmt.alike_operation hS hop hvalue hv hscopes _ _ _ _
  increment target up span s' h f _ scopes scopes' hscopes := by
    cases h with
    | increment =>
      rw [checkStmt, checkStmt]
      refine (varies_targetType hscopes target span span).bind fun t t' ht => ?_
      obtain ⟨rfl, -, -⟩ := ht
      exact varies_unless Iff.rfl (.pure hscopes)
    | one _ hnew => exact Stmt.alike_one hS up hnew hscopes _ _
  expr value hv s' h f _ scopes scopes' hscopes := by
    cases h with
    | expr hvalue =>
      rw [checkStmt, checkStmt, hvalue.isCall_eq]
      exact varies_unless Iff.rfl ((hv _ hvalue _ _ hscopes).bind fun _ _ _ => .pure hscopes)
  ret value span hv s' h f hf scopes scopes' hscopes := by
    cases h with
    | ret hvalue =>
      rw [checkStmt_ret, checkStmt_ret]
      exact (varies_checkResult hS hf hvalue hv hscopes span).bind fun _ _ _ => .pure hscopes
  breakLoop span s' h f _ scopes scopes' hscopes := by
    cases h
    rw [checkStmt, checkStmt]
    exact .ite Iff.rfl (.pure hscopes) varies_fail
  continueLoop span s' h f _ scopes scopes' hscopes := by
    cases h
    rw [checkStmt, checkStmt]
    exact .ite Iff.rfl (.pure hscopes) varies_fail
  cond condition thenStatements thenSpan elseBlock span hc ht he s' h f hf scopes scopes' hscopes := by
    cases h with
    | cond hcondition hthen helse =>
      cases hthen with
      | mk hthen =>
        rw [checkStmt_cond, checkStmt_cond]
        refine (varies_checkBool hcondition hc hscopes .choice).bind fun _ _ _ => ?_
        refine (ht _ hthen f hf _ _ hscopes.push).bind fun _ _ _ => ?_
        refine Relates.bind (R := Eq) ?_ fun _ _ _ => .pure hscopes
        cases helse with
        | none => exact .pure rfl
        | some helse => exact he _ rfl _ helse.statements f hf _ _ hscopes.push
  loop init condition post statements bodySpan span hi hc hp hs s' h f hf scopes scopes' hscopes := by
    cases h with
    | loop hinit hcondition hpost hbody =>
      cases hbody with
      | mk hbody =>
        rw [checkStmt_loop, checkStmt_loop]
        refine (varies_checkInit hf hinit hi hscopes).bind fun inner inner' hinner => ?_
        refine (varies_checkCondition hcondition hc hinner).bind fun _ _ _ => ?_
        refine (varies_checkPost hf hpost hp hinner).bind fun inner inner' hinner => ?_
        exact (hs _ hbody { f with inLoop := true } hf _ _ hinner.push).bind fun _ _ _ => .pure hscopes
  block statements span hs s' h f hf scopes scopes' hscopes := by
    cases h with
    | block hbody =>
      cases hbody with
      | mk hbody =>
        rw [checkStmt, checkStmt]
        exact (hs _ hbody f hf _ _ hscopes.push).bind fun _ _ _ => .pure hscopes
  noStatements ss' h f _ scopes scopes' _ := by
    cases h
    rw [checkStmts, checkStmts]
    exact .pure rfl
  statement s ss hs hss ss' h f hf scopes scopes' hscopes := by
    cases h with
    | cons h hrest =>
      rw [checkStmts, checkStmts]
      exact (hs _ h f hf _ _ hscopes).bind fun _ _ hnext => hss _ hrest f hf _ _ hnext

/-! ## Declarations -/

/-- The notes of the two checks stay related, and the results of the entry function in them are the
same. -/
structure Notes.KeptSame (V : Variation) (S : Notes → Notes → Prop) : Prop extends Notes.Kept V S where
  keptResults : Notes.KeptResults V S
  results_eq : ∀ {n n' : Notes}, S n n' → n'.results = n.results
  old : ∀ {n n' : Notes}, S n n' → ∀ r ∈ n.results, ∀ s ∈ r.constants, V.Old s

section Declarations

variable {scopes scopes' : Scoped Ty} (hscopes : scopes.Same scopes')

include hscopes

/-- **The bodies of functions are checked alike.** -/
theorem varies_checkFunction (hS : Notes.Kept V S) {result : Option Ty}
    (hresult : result = none → Notes.KeptResults V S) (params : List Parameter) {body body' : Block}
    (hbody : body.Variant V body') :
    Varies S Eq (checkFunction result scopes params body)
      (checkFunction result scopes' params body') := by
  refine (varies_declareParams hscopes.push params).bind fun inner inner' hinner => ?_
  refine ((alike_checks hS).ofStmts body.statements _ hbody.statements ⟨result, false⟩ hresult
    _ _ hinner).bind fun _ _ _ => ?_
  exact varies_checkEnd result hbody

/-- **Package-level variables are checked alike.** -/
theorem varies_checkVars (hS : Notes.Kept V S) {vars vars' : List VarDecl}
    (hvars : List.Forall₂ (VarDecl.Variant V) vars vars') :
    Varies S Scoped.Same (checkVars scopes vars) (checkVars scopes' vars') := by
  induction hvars generalizing scopes scopes' with
  | nil =>
    rw [checkVars, checkVars]
    exact .pure hscopes
  | @cons d d' vars vars' hd _ ih =>
    rw [checkVars_cons, checkVars_cons, hd.name, hd.type, hd.span]
    refine (varies_declaredType hS hd.value (fun e _ => (alike_checks hS).ofExpr e) hscopes d.type
      d.span).bind fun t t' ht => ?_
    exact ih (ht ▸ hscopes.declare d.name t)

omit hscopes in
theorem varies_unifyResults (hS : Notes.Kept V S) (name : String) (span : Span)
    {results : List InferredResult} (hold : ∀ r ∈ results, ∀ s ∈ r.constants, V.Old s) :
    Varies S Eq (unifyResults name span results) (unifyResults name span results) := by
  cases results with
  | nil => exact varies_fail
  | cons first rest =>
    rw [unifyResults]
    cases (first :: rest).find? (·.type ≠ first.type) with
    | none => exact .pure rfl
    | some other =>
      refine varies_unless Iff.rfl ((varies_mark hS fun s hs => ?_).bind fun _ _ _ => .pure rfl)
      obtain ⟨r, hr, hs⟩ := List.mem_flatMap.mp hs
      exact hold r (List.mem_filter.mp hr).1 s hs

/-- **The entry function has the same result type**, inferred or not. -/
theorem varies_checkEntry (hS : Notes.KeptSame V S) {d d' : FunctionDecl} (hd : d.Variant V d') :
    Varies S Eq (checkEntry scopes d) (checkEntry scopes' d') := by
  unfold checkEntry
  rw [hd.params, hd.result, hd.name, hd.span]
  cases d.params with
  | cons => exact varies_fail
  | nil =>
    cases d.result with
    | some e =>
      refine (varies_resolved _).bind fun t t' ht => ?_
      subst ht
      exact (varies_checkFunction hscopes hS.toKept (by rintro ⟨⟩) [] hd.body).bind
        fun _ _ _ => .pure rfl
    | none =>
      -- The result type is inferred from what was noted in the body.
      refine (varies_checkFunction hscopes hS.toKept (fun _ => hS.keptResults) [] hd.body).bind
        fun _ _ _ => .get_bind fun n n' hn => ?_
      rw [hS.results_eq hn]
      exact varies_unifyResults hS.toKept _ _ fun r hr => hS.old hn r (List.mem_reverse.mp hr)

/-- Functions in the same order are checked alike. -/
theorem varies_checkFunctions (hS : Notes.KeptSame V S) (entryPoint : String) (entry : Option Ty)
    {functions functions' : List FunctionDecl}
    (hfunctions : List.Forall₂ (FunctionDecl.Variant V) functions functions') :
    Varies S Eq (checkFunctions entryPoint scopes entry functions)
      (checkFunctions entryPoint scopes' entry functions') := by
  induction hfunctions generalizing entry with
  | nil =>
    rw [checkFunctions, checkFunctions]
    exact .pure rfl
  | cons hd _ ih =>
    rw [checkFunctions, checkFunctions, hd.name, hd.result, hd.params]
    refine .ite Iff.rfl ?_ ?_
    · refine (varies_checkEntry hscopes hS hd).bind fun t t' ht => ?_
      subst ht
      exact ih (some t)
    · -- the results of other functions are expected, so what was noted of results does not matter
      refine (varies_resolved _).bind fun result result' hresult => ?_
      subst hresult
      exact (varies_checkFunction hscopes hS.toKept (by rintro ⟨⟩) _ hd.body).bind fun _ _ _ => ih entry

end Declarations

/-! ## Programs -/

/-- What a name has to be declared twice, or to be of an unknown type, is the same in a variant. -/
theorem checkNames_variant (entryPoint : String) (taken : List String) (scopes : Scoped Ty)
    {items items' : List Item} (h : List.Forall₂ (Item.Variant V) items items') :
    checkNames entryPoint taken scopes items' = checkNames entryPoint taken scopes items := by
  induction h generalizing taken scopes with
  | nil => rfl
  | @cons i i' items items' hi _ ih =>
    -- names, heads and places of declarations are kept by variants
    cases hi with
    | @var d d' hd =>
      obtain ⟨name, type, value, span⟩ := d
      obtain ⟨name', type', value', span'⟩ := d'
      obtain ⟨rfl, rfl, -, rfl⟩ := hd
      simp only [checkNames, Item.name, Item.span, ih]
      rfl
    | @function d d' hd =>
      obtain ⟨name, params, result, body, span⟩ := d
      obtain ⟨name', params', result', body', span'⟩ := d'
      obtain ⟨rfl, rfl, rfl, -, rfl⟩ := hd
      simp only [checkNames, Item.name, Item.span, ih]
      rfl

/-- **The declarations of variants are checked alike.** -/
theorem varies_checkBodies (hS : Notes.KeptSame V S) {p p' : Program} (h : p.Variant V p')
    (entryPoint : String) (scopes : Scoped Ty) :
    Varies S Eq (checkBodies p entryPoint scopes) (checkBodies p' entryPoint scopes) := by
  refine (varies_checkVars (.refl scopes) hS.toKept h.vars).bind fun inner inner' hinner => ?_
  have hfunctions := h.functions
  have hentry : p'.functions.any (·.name == entryPoint) = p.functions.any (·.name == entryPoint) := by
    clear * - hfunctions
    generalize p.functions = ds at hfunctions ⊢
    generalize p'.functions = ds' at hfunctions ⊢
    induction hfunctions with
    | nil => rfl
    | cons hd _ ih => rw [List.any_cons, List.any_cons, hd.name, ih]
  have hrest := varies_checkFunctions hinner hS entryPoint none h.functions
  rw [hentry]
  refine .ite Iff.rfl (Relates.bind (R := Eq) (.throw trivial) fun _ _ _ => hrest) hrest

/-- What is noted of a program and of a variant: the same, but for what is written out, and of the entry
function what is related. In the second check other marks may have been set before. -/
structure Notes.Variant (V : Variation) (before : List Span)
    (R : List InferredResult → List InferredResult → Prop) (n n' : Notes) : Prop where
  floats : ∀ s, V.Old s → (s ∈ n'.floats ↔ s ∈ n.floats ∨ s ∈ before)
  operations : ∀ target s, V.operations target s → s ∉ n'.floats
  results : R n.results n'.results

/-- The same results, of which nothing that is written out becomes a floating-point number. -/
def InferredResult.Same (V : Variation) (rs rs' : List InferredResult) : Prop :=
  rs' = rs ∧ ∀ r ∈ rs, ∀ s ∈ r.constants, V.Old s

theorem InferredResult.same_nil : Same V [] [] :=
  ⟨rfl, by simp⟩

/-- At the start nothing is noted. -/
theorem Notes.Variant.empty {R : List InferredResult → List InferredResult → Prop} (hR : R [] []) :
    Notes.Variant V [] R {} {} where
  floats _ _ := by simp
  operations _ _ _ := List.not_mem_nil
  results := hR

theorem Notes.mem_mark {n : Notes} {spans : List Span} {s : Span} :
    s ∈ (n.mark spans).floats ↔ s ∈ n.floats ∨ s ∈ spans :=
  (n.takes_mark spans).floats s

theorem Notes.Variant.kept {before : List Span} {R : List InferredResult → List InferredResult → Prop} :
    Notes.Kept V (Notes.Variant V before R) where
  mark {n n' spans} h hspans := by
    refine ⟨fun s hs => ?_, fun target s hs hmem => ?_, h.results⟩
    · rw [mem_mark, mem_mark, h.floats s hs, or_right_comm]
    · rcases mem_mark.mp hmem with hmem | hmem
      · exact h.operations target s hs hmem
      · exact (hspans s hmem).not_operation target hs
  one {n n' t} h ht := by
    refine ⟨fun s hs => ?_, fun target s hs hmem => ?_, h.results⟩
    · rw [mem_mark, h.floats s hs, List.mem_singleton, or_iff_left]
      rintro rfl
      exact hs.not_one ht
    · rcases mem_mark.mp hmem with hmem | hmem
      · exact h.operations target s hs hmem
      · exact V.apart target s hs (List.mem_singleton.mp hmem ▸ ht)

theorem Notes.Variant.keptSame {before : List Span} :
    Notes.KeptSame V (Notes.Variant V before (InferredResult.Same V)) where
  toKept := kept
  keptResults _ _ r h hr :=
    ⟨h.floats, h.operations, congrArg (r :: ·) h.results.1, List.forall_mem_cons.mpr ⟨hr, h.results.2⟩⟩
  results_eq h := h.results.1
  old h := h.results.2

/-- What is found of a program and of a variant. -/
structure TypeInfo.Variant (V : Variation) (t t' : TypeInfo) : Prop where
  result : t'.result = t.result
  floats : ∀ s, V.Old s → (s ∈ t'.floats ↔ s ∈ t.floats)
  operations : ∀ target s, V.operations target s → s ∉ t'.floats

/-- A program is accepted or not as another one is. -/
inductive Program.ChecksAs (R : TypeInfo → TypeInfo → Prop) :
    Except TypeError TypeInfo → Except TypeError TypeInfo → Prop where
  | error (e e' : TypeError) : ChecksAs R (.error e) (.error e')
  | ok {t t' : TypeInfo} (h : R t t') : ChecksAs R (.ok t) (.ok t')

/-- **A variant of a program is accepted where the program is**, with the same result type, and the same
integers become floating-point numbers. -/
theorem Program.Variant.check {p p' : Program} (h : p.Variant V p') (entryPoint : String) :
    Program.ChecksAs (TypeInfo.Variant V) (p.check entryPoint) (p'.check entryPoint) := by
  unfold Program.check
  rw [h.imports]
  cases checkImports [] universeScopes p.imports with
  | error e => exact .error e e
  | ok r =>
    obtain ⟨taken, scopes⟩ := r
    have hnames := checkNames_variant entryPoint taken scopes h.items
    simp only [Bind.bind, Except.bind]
    rw [hnames]
    cases checkNames entryPoint taken scopes p.items with
    | error e => exact .error e e
    | ok scopes =>
      have hbodies := varies_checkBodies Notes.Variant.keptSame h entryPoint scopes {} {}
        (.empty InferredResult.same_nil)
      simp only [StateT.run]
      generalize checkBodies p entryPoint scopes {} = r at hbodies ⊢
      generalize checkBodies p' entryPoint scopes {} = r' at hbodies ⊢
      -- the notes of the two checks differ in places that only the variant has
      cases hbodies with
      | error => exact .error _ _
      | @ok entry _ n n' hentry hn =>
        subst hentry
        cases entry with
        | none => exact .error _ _
        | some result => exact .ok ⟨rfl, fun s hs => by simpa using hn.floats s hs, hn.operations⟩

end Formula
