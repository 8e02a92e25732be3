import Formula.Proofs.Flow.Exits
import Formula.Proofs.Program.Node
import Formula.Proofs.Resolution.Checked

/-!
# What accepted bodies cannot do

A body that is accepted as that of a function is left neither by a `break` nor by a `continue`, and
where a result is expected, each `return` in it has a value. All bodies in an accepted program were
accepted so: those of its functions, and those of the function literals at any place of it.

## Main definitions

* `Check.Yields`: a result of the checker, whatever was noted before.
* `Exits.Allowed`: the ends that statements may have where they stand.
* `Block.Accepted`: a body was accepted, for a result type that may be inferred.
* `Program.HasBody`: the bodies in a program.

## Main results

* `passes`: what the checker accepts ends as it may.
* `Program.accepted_of_check`: all bodies in an accepted program were accepted.
-/

namespace Formula

open Program (Node)

/-! ## Results of the checker -/

namespace Check

variable {α β : Type}

/-- **A computation of the checker has this result**, whatever was noted before and is noted by
it. -/
def Yields (x : Check α) (a : α) : Prop :=
  ∃ n n', x n = .ok (a, n')

namespace Yields

variable {x : Check α} {f : α → Check β} {a : α} {b : β}

theorem exists_bind (h : Yields (x >>= f) b) : ∃ a, x.Yields a ∧ (f a).Yields b := by
  obtain ⟨n, n'', h⟩ := h
  obtain ⟨a, n', hx, h⟩ := bind_eq_ok h
  exact ⟨a, ⟨n, n', hx⟩, n', n'', h⟩

theorem of_fail {span : Span} {cause : TypeCause} {p : Prop}
    (h : Yields (Check.fail span cause : Check α) a) : p := by
  obtain ⟨n, n', h⟩ := h
  cases h

theorem of_fail_bind {span : Span} {cause : TypeCause} {p : Prop}
    (h : Yields (Check.fail span cause >>= f) b) : p := by
  obtain ⟨_, h, -⟩ := h.exists_bind
  exact h.of_fail

theorem eq_ok {r : Except UnknownType α} (h : (resolved r).Yields a) : r = .ok a := by
  obtain ⟨n, n', h⟩ := h
  exact (resolved_eq_ok h).1

variable {e left right : Expr} {type leftType rightType : Check Ty} {t wanted : Ty}

theorem exists_type (h : (valueType e type).Yields t) : ∃ u, type.Yields u := by
  obtain ⟨u, hu, -⟩ := h.exists_bind
  exact ⟨u, hu⟩

theorem exists_typeFor (h : (valueTypeFor e wanted type).Yields t) : ∃ u, type.Yields u := by
  unfold valueTypeFor at h
  split at h
  · obtain ⟨u, hu, -⟩ := h.exists_bind
    exact ⟨u, hu⟩
  · exact h.exists_type

theorem exists_operands {p : Ty × Ty} (h : (operandTypes left right leftType rightType).Yields p) :
    (∃ l, leftType.Yields l) ∧ ∃ r, rightType.Yields r := by
  unfold operandTypes at h
  split at h
  · obtain ⟨_, hr, h⟩ := h.exists_bind
    obtain ⟨_, hl, -⟩ := h.exists_bind
    exact ⟨hl.exists_typeFor, hr.exists_type⟩
  · obtain ⟨_, hl, h⟩ := h.exists_bind
    obtain ⟨_, hr, -⟩ := h.exists_bind
    exact ⟨hl.exists_type, hr.exists_typeFor⟩

theorem exists_arguments {scopes : Scoped Ty} {variadic : Option Ty} {params : List Ty}
    {arguments : List Expr} (h : (checkArguments scopes variadic params arguments).Yields ()) :
    ∀ a ∈ arguments, ∃ t, (checkExpr scopes a).Yields t := by
  induction arguments generalizing params with
  | nil => exact List.forall_mem_nil _
  | cons a arguments ih =>
    rw [checkArguments] at h
    obtain ⟨_, ha, h⟩ := h.exists_bind
    obtain ⟨_, -, h⟩ := h.exists_bind
    exact List.forall_mem_cons.mpr ⟨ha.exists_typeFor, ih h⟩

theorem exists_initialised {type : Option TypeExpr} {valueTy : Check Ty}
    (h : (initialisedType type e valueTy).Yields t) : ∃ u, valueTy.Yields u := by
  unfold initialisedType at h
  split at h
  · exact h.exists_type
  · obtain ⟨_, -, h⟩ := h.exists_bind
    obtain ⟨_, he, -⟩ := h.exists_bind
    exact he.exists_typeFor

theorem exists_declared {scopes : Scoped Ty} {type : Option TypeExpr} {value : Option Expr}
    {span : Span} (h : (declaredType scopes type value span).Yields t) :
    ∀ e ∈ value, ∃ u, (checkExpr scopes e).Yields u := by
  rintro e ⟨⟩
  exact h.exists_initialised

theorem exists_condition {scopes : Scoped Ty} {place : ConditionPlace}
    (h : (checkBool scopes place e).Yields ()) : ∃ u, (checkExpr scopes e).Yields u := by
  obtain ⟨_, he, -⟩ := h.exists_bind
  exact he.exists_type

end Yields

end Check

/-- A function literal is checked as the body of a function is. -/
theorem checkExpr_function (scopes : Scoped Ty) (params : List Parameter)
    (result : Option TypeExpr) (body : Block) (span : Span) :
    checkExpr scopes (.function params result body span) = (do
      let type ← Check.resolved (functionType params result)
      let resultType ← Check.resolved (resultType result)
      checkFunction (some resultType) scopes params body
      return type) := by
  obtain ⟨statements, bodySpan⟩ := body
  simp only [checkExpr, checkFunction, Block.statements, bind_assoc]

/-! ## Bodies -/

/-- **The ends that statements may have where they stand**: they are left by a `break` or a
`continue` only within a loop, and a `return` has a value unless no result is expected. -/
structure Exits.Allowed (x : Exits) (f : Surroundings) : Prop where
  breaks : f.inLoop = false → x.breaks = false
  continues : f.inLoop = false → x.continues = false
  returned : f.result ≠ some .void → none ∉ x.returned

/-- **A body was accepted** as that of a function, for a result type that may be inferred. -/
def Block.Accepted (result : Option Ty) (body : Block) : Prop :=
  ∃ scopes params, (checkFunction result scopes params body).Yields ()

/-- The body of a function literal was accepted. -/
def Program.Node.Accepted : Node → Prop
  | expr (.function _ result body _) => ∃ t, resultType result = .ok t ∧ body.Accepted (some t)
  | _ => True

/-- What the checker accepts has function literals only that were accepted. -/
def Expr.Passes (e : Expr) : Prop :=
  ∀ scopes t, (checkExpr scopes e).Yields t → (Node.expr e).All Node.Accepted

/-- What the checker accepts has function literals only that were accepted, and ends as it may. -/
structure Stmt.Passed (f : Surroundings) (s : Stmt) : Prop where
  accepted : (Node.stmt s).All Node.Accepted
  allowed : s.exits.Allowed f

/-- The same of a statement, wherever it is checked. -/
def Stmt.Passes (s : Stmt) : Prop :=
  ∀ f scopes scopes', (checkStmt f scopes s).Yields scopes' → s.Passed f

/-- The same of statements. -/
structure Stmt.AllPassed (f : Surroundings) (ss : List Stmt) : Prop where
  accepted : ∀ s ∈ ss, (Node.stmt s).All Node.Accepted
  allowed : (Exits.ofAll ss).Allowed f

/-- The same of statements, wherever they are checked. -/
def Stmt.AllPass (ss : List Stmt) : Prop :=
  ∀ f scopes, (checkStmts f scopes ss).Yields () → Stmt.AllPassed f ss

theorem Program.Node.all_block {ss : List Stmt} {span : Span} :
    (Node.block (.mk ss span)).All Node.Accepted ↔ ∀ s ∈ ss, (Node.stmt s).All Node.Accepted := by
  rw [all_iff]
  simp [Accepted, parts, Block.statements]

theorem Program.Node.all_param (p : Parameter) : (Node.param p).All Node.Accepted :=
  all_iff.mpr ⟨trivial, List.forall_mem_nil _⟩

namespace Expr

theorem passes_function (params : List Parameter) (result : Option TypeExpr)
    {statements : List Stmt} (bodySpan span : Span) (hbody : Stmt.AllPass statements) :
    (function params result (.mk statements bodySpan) span).Passes := by
  intro scopes t h
  rw [checkExpr_function] at h
  obtain ⟨_, -, h⟩ := h.exists_bind
  obtain ⟨r, hr, h⟩ := h.exists_bind
  obtain ⟨⟨⟩, hfunction, -⟩ := h.exists_bind
  obtain ⟨inner, -, hstatements⟩ := hfunction.exists_bind
  obtain ⟨⟨⟩, hstatements, -⟩ := hstatements.exists_bind
  -- It was checked as the body of a function, from which its statements are known to be accepted.
  refine Node.all_iff.mpr ⟨⟨r, hr.eq_ok, scopes, params, hfunction⟩, ?_⟩
  intro n hn
  rcases List.mem_append.mp hn with hn | hn
  · obtain ⟨p, -, rfl⟩ := List.mem_map.mp hn
    exact Node.all_param p
  · obtain rfl := List.mem_singleton.mp hn
    exact Node.all_block.mpr (hbody _ _ hstatements).accepted

theorem passes_call {callee : Expr} {arguments : List Expr} (span : Span) (hc : callee.Passes)
    (ha : ∀ a ∈ arguments, a.Passes) : (call callee arguments span).Passes := by
  intro scopes t h
  rw [checkExpr] at h
  obtain ⟨u, hu, h⟩ := h.exists_bind
  -- an integer is converted, or the arguments are checked one by one
  have harguments : ∀ a ∈ arguments, ∃ t, (checkExpr scopes a).Yields t := by
    split at h
    · split at h
      · obtain ⟨_, ha, -⟩ := h.exists_bind
        exact List.forall_mem_singleton.mpr ha.exists_type
      · exact h.of_fail
    · obtain ⟨_, -, h⟩ := h.exists_bind
      obtain ⟨_, h, -⟩ := h.exists_bind
      exact h.exists_arguments
    · exact h.of_fail
  refine Node.all_iff.mpr ⟨trivial, List.forall_mem_cons.mpr ⟨hc scopes u hu, fun n hn => ?_⟩⟩
  obtain ⟨a, hmem, rfl⟩ := List.mem_map.mp hn
  obtain ⟨v, hv⟩ := harguments a hmem
  exact ha a hmem scopes v hv

end Expr

/-! ## Statements -/

namespace Exits

variable {f : Surroundings} {x y : Exits}

/-- A statement that ends normally, whatever stands around it. -/
theorem allowed_of_normal (h : x.breaks = false ∧ x.continues = false ∧ x.returned = []) :
    x.Allowed f := by
  obtain ⟨hbreaks, hcontinues, hreturned⟩ := h
  exact ⟨fun _ => hbreaks, fun _ => hcontinues, fun _ => by simp [hreturned]⟩

theorem allowed_ofAll_cons {s : Stmt} {ss : List Stmt} (hs : s.exits.Allowed f)
    (hss : (ofAll ss).Allowed f) : (ofAll (s :: ss)).Allowed f where
  breaks h := by
    have h₁ : s.breaksOut = false := hs.breaks h
    have h₂ : anyBreaksOut ss = false := hss.breaks h
    simp [ofAll, anyBreaksOut, h₁, h₂]
  continues h := by
    have h₁ : s.continuesOut = false := hs.continues h
    have h₂ : anyContinuesOut ss = false := hss.continues h
    simp [ofAll, anyContinuesOut, h₁, h₂]
  returned h := by
    have h₁ : none ∉ s.returned := hs.returned h
    have h₂ : none ∉ returnedAll ss := hss.returned h
    simp [ofAll, returnedAll, h₁, h₂]

theorem allowed_cond {condition : Expr} {thenStatements : List Stmt} {thenSpan span : Span}
    {elseBlock : Option Block} (hthen : (ofAll thenStatements).Allowed f)
    (helse : ∀ b ∈ elseBlock, b.exits.Allowed f) :
    (Stmt.cond condition (.mk thenStatements thenSpan) elseBlock span).exits.Allowed f := by
  rcases elseBlock with _ | ⟨elseStatements, elseSpan⟩
  · -- Without an `else`, only the first block can be left.
    refine ⟨fun h => ?_, fun h => ?_, fun h => ?_⟩
    · exact hthen.breaks h
    · exact hthen.continues h
    · exact hthen.returned h
  · have helse := helse _ rfl
    refine ⟨fun h => ?_, fun h => ?_, fun h => ?_⟩
    · exact Bool.or_eq_false_iff.mpr ⟨hthen.breaks h, helse.breaks h⟩
    · exact Bool.or_eq_false_iff.mpr ⟨hthen.continues h, helse.continues h⟩
    · exact fun hmem => (List.mem_append.mp hmem).elim (hthen.returned h) (helse.returned h)

end Exits

namespace Stmt

variable {f : Surroundings} {scopes scopes' : Scoped Ty}

theorem passes_ret {value : Option Expr} (span : Span) (hv : ∀ e ∈ value, e.Passes) :
    (ret value span).Passes := by
  intro f scopes scopes' h
  rw [checkStmt_ret] at h
  obtain ⟨_, h, -⟩ := h.exists_bind
  obtain ⟨result, inLoop⟩ := f
  cases value with
  | none =>
    refine ⟨Node.all_iff.mpr ⟨trivial, List.forall_mem_nil _⟩, fun _ => rfl, fun _ => rfl, ?_⟩
    -- A `return` without a value is accepted only where no result is expected.
    intro hresult
    unfold checkResult at h
    split at h
    case h_2 => exact absurd ‹_› hresult
    all_goals first
      | exact h.of_fail
      | cases ‹none = some _›
  | some e =>
    have he : ∃ t, (checkExpr scopes e).Yields t := by
      unfold checkResult at h
      split at h
      case h_4 =>
        obtain ⟨_, he, -⟩ := h.exists_bind
        cases ‹some _ = some _›
        exact he.exists_typeFor
      case h_5 =>
        obtain ⟨_, he, -⟩ := h.exists_bind
        cases ‹some _ = some _›
        exact he.exists_type
      all_goals first
        | exact h.of_fail
        | cases ‹some _ = none›
    obtain ⟨t, he⟩ := he
    refine ⟨Node.all_iff.mpr ⟨trivial, List.forall_mem_singleton.mpr (hv e rfl scopes t he)⟩,
      fun _ => rfl, fun _ => rfl, fun _ => ?_⟩
    simp [exits, returned]

theorem passed_else {elseBlock : Option Block} (he : ∀ b ∈ elseBlock, AllPass b.statements)
    (h : (checkElse f scopes elseBlock).Yields ()) :
    ∀ b ∈ elseBlock, AllPassed f b.statements := by
  rintro b ⟨⟩
  exact he b rfl _ _ h

theorem passes_cond {condition : Expr} {thenStatements : List Stmt} (thenSpan : Span)
    {elseBlock : Option Block} (span : Span) (hc : condition.Passes) (ht : AllPass thenStatements)
    (he : ∀ b ∈ elseBlock, AllPass b.statements) :
    (cond condition (.mk thenStatements thenSpan) elseBlock span).Passes := by
  intro f scopes scopes' h
  rw [checkStmt_cond] at h
  obtain ⟨_, hcondition, h⟩ := h.exists_bind
  obtain ⟨_, hthen, h⟩ := h.exists_bind
  obtain ⟨_, helse, -⟩ := h.exists_bind
  obtain ⟨t, hcondition⟩ := hcondition.exists_condition
  have hthen := ht _ _ hthen
  have helse := passed_else he helse
  refine ⟨Node.all_iff.mpr ⟨trivial, ?_⟩, Exits.allowed_cond hthen.allowed fun b hb =>
    (helse b hb).allowed⟩
  refine List.forall_mem_cons.mpr ⟨hc scopes t hcondition, List.forall_mem_cons.mpr
    ⟨Node.all_block.mpr hthen.accepted, fun n hn => ?_⟩⟩
  obtain ⟨⟨elseStatements, elseSpan⟩, hb, rfl⟩ := List.mem_map.mp hn
  exact Node.all_block.mpr (helse _ (Option.mem_toList.mp hb)).accepted

theorem accepted_init {init : Option Stmt} (hi : ∀ i ∈ init, i.Passes)
    (h : (checkInit f scopes init).Yields scopes') :
    ∀ i ∈ init, (Node.stmt i).All Node.Accepted := by
  rintro i ⟨⟩
  exact (hi i rfl _ _ _ h).accepted

theorem accepted_condition {condition : Option Expr} (hc : ∀ c ∈ condition, c.Passes)
    (h : (checkCondition scopes condition).Yields ()) :
    ∀ c ∈ condition, (Node.expr c).All Node.Accepted := by
  rintro c ⟨⟩
  obtain ⟨t, ht⟩ := Check.Yields.exists_condition h
  exact hc c rfl _ _ ht

theorem accepted_post {post : Option Stmt} (hp : ∀ p ∈ post, p.Passes)
    (h : (checkPost f scopes post).Yields scopes') :
    ∀ p ∈ post, (Node.stmt p).All Node.Accepted := by
  rintro p ⟨⟩
  unfold checkPost at h
  split at h
  · exact h.of_fail
  · cases ‹some _ = some _›
    exact (hp p rfl _ _ _ h).accepted
  · cases ‹some _ = none›

theorem passes_loop {init : Option Stmt} {condition : Option Expr} {post : Option Stmt}
    {statements : List Stmt} (bodySpan span : Span) (hi : ∀ i ∈ init, i.Passes)
    (hc : ∀ c ∈ condition, c.Passes) (hp : ∀ p ∈ post, p.Passes) (hs : AllPass statements) :
    (loop init condition post (.mk statements bodySpan) span).Passes := by
  intro f scopes scopes' h
  rw [checkStmt_loop] at h
  obtain ⟨inner, hinit, h⟩ := h.exists_bind
  obtain ⟨_, hcondition, h⟩ := h.exists_bind
  obtain ⟨inner', hpost, h⟩ := h.exists_bind
  obtain ⟨_, hstatements, -⟩ := h.exists_bind
  have hbody := hs _ _ hstatements
  refine ⟨Node.all_iff.mpr ⟨trivial, fun n hn => ?_⟩, fun _ => rfl, fun _ => rfl, ?_⟩
  · simp only [Node.parts, Node.ofStmt, List.mem_append, List.mem_map, Option.mem_toList,
      List.mem_singleton] at hn
    rcases hn with ⟨i, hmem, rfl⟩ | ⟨c, hmem, rfl⟩ | ⟨p, hmem, rfl⟩ | rfl
    · exact accepted_init hi hinit i hmem
    · exact accepted_condition hc hcondition c hmem
    · exact accepted_post hp hpost p hmem
    · exact Node.all_block.mpr hbody.accepted
  · -- The result that is expected in the body is that of the function, as around the loop.
    exact hbody.allowed.returned

/-- A statement that has no parts. -/
theorem passed_of_leaf {s : Stmt} (hparts : (Node.stmt s).parts = [])
    (hself : (Node.stmt s).Accepted) (hallowed : s.exits.Allowed f) : s.Passed f :=
  ⟨Node.all_iff.mpr ⟨hself, by simp [hparts]⟩, hallowed⟩

/-- A statement that has just one part, an expression. -/
theorem passed_of_value {s : Stmt} {e : Expr} (hparts : (Node.stmt s).parts = [.expr e])
    (he : (Node.expr e).All Node.Accepted)
    (hends : s.breaksOut = false ∧ s.continuesOut = false ∧ s.returned = []) : s.Passed f := by
  refine ⟨Node.all_iff.mpr ⟨?_, ?_⟩, Exits.allowed_of_normal hends⟩
  · trivial
  · rw [hparts]
    exact List.forall_mem_singleton.mpr he

end Stmt

/-- **What the checker accepts ends as it may**, and so do the bodies of the function literals in
it. -/
theorem passes : SyntaxCases Expr.Passes (fun es => ∀ e ∈ es, e.Passes) Stmt.Passes Stmt.AllPass where
  literal _ _ := fun _ _ _ => Node.all_iff.mpr ⟨trivial, List.forall_mem_nil _⟩
  identifier _ _ := fun _ _ _ => Node.all_iff.mpr ⟨trivial, List.forall_mem_nil _⟩
  binary op left right span hl hr := by
    intro scopes t h
    rw [checkExpr] at h
    obtain ⟨p, h, -⟩ := h.exists_bind
    obtain ⟨⟨l, hleft⟩, r, hright⟩ := h.exists_operands
    exact Node.all_iff.mpr ⟨trivial, List.forall_mem_cons.mpr
      ⟨hl scopes l hleft, List.forall_mem_singleton.mpr (hr scopes r hright)⟩⟩
  unary op operand span ho := by
    intro scopes t h
    rw [checkExpr] at h
    obtain ⟨_, h, -⟩ := h.exists_bind
    obtain ⟨u, hu⟩ := h.exists_type
    exact Node.all_iff.mpr ⟨trivial, List.forall_mem_singleton.mpr (ho scopes u hu)⟩
  call _ _ span := Expr.passes_call span
  selector _ _ _ := fun _ _ _ => Node.all_iff.mpr ⟨trivial, List.forall_mem_nil _⟩
  function params result _ := Expr.passes_function params result
  noArguments := List.forall_mem_nil _
  argument _ _ he hes := List.forall_mem_cons.mpr ⟨he, hes⟩
  define name value span hv := by
    intro f scopes scopes' h
    rw [checkStmt] at h
    split at h
    · exact h.of_fail_bind
    · obtain ⟨_, h, -⟩ := h.exists_bind
      obtain ⟨t, ht⟩ := h.exists_type
      exact Stmt.passed_of_value rfl (hv scopes t ht) ⟨rfl, rfl, rfl⟩
  var name type value span hv := by
    intro f scopes scopes' h
    rw [checkStmt_var] at h
    split at h
    · exact h.of_fail_bind
    · obtain ⟨_, h, -⟩ := h.exists_bind
      have hvalue := h.exists_declared
      refine ⟨Node.all_iff.mpr ⟨trivial, fun n hn => ?_⟩,
        Exits.allowed_of_normal ⟨rfl, rfl, rfl⟩⟩
      obtain ⟨e, he, rfl⟩ := List.mem_map.mp hn
      obtain ⟨t, ht⟩ := hvalue e (Option.mem_toList.mp he)
      exact hv e (Option.mem_toList.mp he) scopes t ht
  assign target op value span hv := by
    intro f scopes scopes' h
    rw [checkStmt_assign] at h
    obtain ⟨_, -, h⟩ := h.exists_bind
    obtain ⟨_, h, -⟩ := h.exists_bind
    obtain ⟨_, h, -⟩ := h.exists_bind
    obtain ⟨t, ht⟩ := h.exists_typeFor
    exact Stmt.passed_of_value rfl (hv scopes t ht) ⟨rfl, rfl, rfl⟩
  increment target up span := fun _ _ _ _ =>
    Stmt.passed_of_leaf rfl trivial (Exits.allowed_of_normal ⟨rfl, rfl, rfl⟩)
  expr value hv := by
    intro f scopes scopes' h
    rw [checkStmt] at h
    split at h
    · exact h.of_fail_bind
    · obtain ⟨t, ht, -⟩ := h.exists_bind
      exact Stmt.passed_of_value rfl (hv scopes t ht) ⟨rfl, rfl, rfl⟩
  ret _ span := Stmt.passes_ret span
  -- outside a loop neither of these is accepted, and in one both may leave
  breakLoop span := by
    intro f scopes scopes' h
    rw [checkStmt] at h
    split at h
    case isTrue hloop =>
      have hnot : f.inLoop ≠ false := by simp [hloop]
      exact Stmt.passed_of_leaf rfl trivial ⟨fun h => absurd h hnot, fun _ => rfl, fun _ => by
        simp [Stmt.exits, Stmt.returned]⟩
    case isFalse => exact h.of_fail
  continueLoop span := by
    intro f scopes scopes' h
    rw [checkStmt] at h
    split at h
    case isTrue hloop =>
      have hnot : f.inLoop ≠ false := by simp [hloop]
      exact Stmt.passed_of_leaf rfl trivial ⟨fun _ => rfl, fun h => absurd h hnot, fun _ => by
        simp [Stmt.exits, Stmt.returned]⟩
    case isFalse => exact h.of_fail
  cond _ _ thenSpan _ span := Stmt.passes_cond thenSpan span
  loop _ _ _ _ bodySpan span := Stmt.passes_loop bodySpan span
  block statements span hs := by
    intro f scopes scopes' h
    rw [checkStmt] at h
    obtain ⟨_, h, -⟩ := h.exists_bind
    have hpassed := hs _ _ h
    refine ⟨Node.all_iff.mpr ⟨trivial, List.forall_mem_singleton.mpr ?_⟩, ?_⟩
    · exact Node.all_block.mpr hpassed.accepted
    · rw [Exits.block_eq]
      exact hpassed.allowed
  noStatements := fun _ _ _ => ⟨List.forall_mem_nil _, Exits.allowed_of_normal ⟨rfl, rfl, rfl⟩⟩
  statement s ss hs hss := by
    intro f scopes h
    rw [checkStmts] at h
    obtain ⟨inner, hfirst, hrest⟩ := h.exists_bind
    have hfirst := hs _ _ _ hfirst
    have hrest := hss _ _ hrest
    exact ⟨List.forall_mem_cons.mpr ⟨hfirst.accepted, hrest.accepted⟩,
      Exits.allowed_ofAll_cons hfirst.allowed hrest.allowed⟩

/-- **An accepted body ends as it may**: it is not left by a `break` or a `continue`, and where a
result is expected, each `return` has a value and control does not come to the end. -/
theorem Block.Accepted.exits {result : Option Ty} {body : Block} (h : body.Accepted result) :
    (body.exits.breaks = false ∧ body.exits.continues = false) ∧
      (result ≠ some .void → body.terminates = true ∧ none ∉ body.returned) := by
  obtain ⟨scopes, params, h⟩ := h
  obtain ⟨inner, -, h⟩ := h.exists_bind
  obtain ⟨_, hstatements, hend⟩ := h.exists_bind
  have hpassed := passes.ofStmts body.statements ⟨result, false⟩ inner hstatements
  refine ⟨⟨hpassed.allowed.breaks rfl, hpassed.allowed.continues rfl⟩, fun hresult => ⟨?_, ?_⟩⟩
  · unfold checkEnd at hend
    split at hend
    case isTrue => exact hend.of_fail
    case isFalse hends => simpa [hresult] using hends
  · cases body
    exact hpassed.allowed.returned hresult

/-! ## Programs -/

/-- **The bodies in a program**: those of its functions, and those of the function literals at any
place of it. For each it is given whether a result is expected of it. -/
inductive Program.HasBody (p : Program) (entryPoint : String) : Block → Bool → Prop where
  | function {d : FunctionDecl} (h : d ∈ p.functions) :
    HasBody p entryPoint d.body (d.result.isSome || d.name == entryPoint)
  | literal {path : List Nat} {params : List Parameter} {result : Option TypeExpr} {body : Block}
    {span : Span} (h : p.at? path = some (.expr (.function params result body span))) :
    HasBody p entryPoint body result.isSome

/-- A result type that is written is one of values. -/
theorem ne_void_of_resultType {result : Option TypeExpr} {t : Ty} (h : resultType result = .ok t)
    (hresult : result.isSome = true) : some t ≠ some .void := by
  obtain ⟨e, rfl⟩ := Option.isSome_iff_exists.mp hresult
  rintro ⟨⟩
  cases TypeExpr.isValue_of_resolve h

theorem accepted_of_checkEntry {scopes : Scoped Ty} {d : FunctionDecl} {t : Ty}
    (h : (checkEntry scopes d).Yields t) : ∃ r, r ≠ some .void ∧ d.body.Accepted r := by
  unfold checkEntry at h
  split at h
  · exact h.of_fail
  · split at h
    · rename_i e _
      obtain ⟨u, hu, h⟩ := h.exists_bind
      obtain ⟨_, hbody, -⟩ := h.exists_bind
      have hresult : resultType (some e) = .ok u := hu.eq_ok
      exact ⟨some u, ne_void_of_resultType hresult rfl, scopes, [], hbody⟩
    · -- A type that is inferred is one of values, too: there is none without a result.
      obtain ⟨_, hbody, -⟩ := h.exists_bind
      refine ⟨none, ?_, scopes, [], hbody⟩
      simp

theorem accepted_of_checkFunctions {entryPoint : String} {scopes : Scoped Ty}
    {entry result : Option Ty} {functions : List FunctionDecl}
    (h : (checkFunctions entryPoint scopes entry functions).Yields result) :
    ∀ d ∈ functions, ∃ r, d.body.Accepted r ∧
      ((d.result.isSome || d.name == entryPoint) = true → r ≠ some .void) := by
  induction functions generalizing entry with
  | nil => exact List.forall_mem_nil _
  | cons d functions ih =>
    rw [checkFunctions] at h
    split at h
    case isTrue hname =>
      obtain ⟨t, hentry, h⟩ := h.exists_bind
      obtain ⟨r, hr, hbody⟩ := accepted_of_checkEntry hentry
      exact List.forall_mem_cons.mpr ⟨⟨r, hbody, fun _ => hr⟩, ih h⟩
    case isFalse hname =>
      obtain ⟨t, ht, h⟩ := h.exists_bind
      obtain ⟨_, hbody, h⟩ := h.exists_bind
      refine List.forall_mem_cons.mpr ⟨⟨some t, ⟨scopes, d.params, hbody⟩, fun hresult => ?_⟩, ih h⟩
      exact ne_void_of_resultType ht.eq_ok (by simpa [hname] using hresult)

theorem accepted_of_checkVars {scopes scopes' : Scoped Ty} {vars : List VarDecl}
    (h : (checkVars scopes vars).Yields scopes') :
    ∀ d ∈ vars, ∀ e ∈ d.value, (Node.expr e).All Node.Accepted := by
  induction vars generalizing scopes with
  | nil => exact List.forall_mem_nil _
  | cons d vars ih =>
    rw [checkVars_cons] at h
    obtain ⟨t, hd, h⟩ := h.exists_bind
    refine List.forall_mem_cons.mpr ⟨fun e he => ?_, ih h⟩
    obtain ⟨u, hu⟩ := hd.exists_declared e he
    exact passes.ofExpr e scopes u hu

/-- The function literals in an accepted body were accepted. -/
theorem Block.Accepted.literals {result : Option Ty} {body : Block} (h : body.Accepted result) :
    (Node.block body).All Node.Accepted := by
  obtain ⟨scopes, params, h⟩ := h
  obtain ⟨inner, -, h⟩ := h.exists_bind
  obtain ⟨_, hstatements, -⟩ := h.exists_bind
  cases body
  exact Node.all_block.mpr (passes.ofStmts _ _ _ hstatements).accepted

/-- **All bodies in an accepted program were accepted**, those with a result for a result type. -/
theorem Program.accepted_of_check {p : Program} {entryPoint : String} {types : TypeInfo}
    (h : p.check entryPoint = .ok types) {body : Block} {hasResult : Bool}
    (hbody : p.HasBody entryPoint body hasResult) :
    ∃ r, body.Accepted r ∧ (hasResult = true → r ≠ some .void) := by
  obtain ⟨taken, scopes₁, scopes₂, notes, -, -, hbodies, -⟩ := Program.check_eq_ok h
  obtain ⟨scopes₃, n, hvars, hfunctions⟩ := checkBodies_parts hbodies
  have hvars := accepted_of_checkVars ⟨_, _, hvars⟩
  have hfunctions := accepted_of_checkFunctions ⟨_, _, hfunctions⟩
  have hnodes : ∀ n ∈ p.nodes, n.All Node.Accepted := by
    intro n hn
    obtain ⟨i, hi, hn⟩ := List.mem_flatMap.mp hn
    cases i with
    | var d =>
      obtain ⟨e, he, rfl⟩ := List.mem_map.mp hn
      exact hvars d (mem_vars.mpr hi) e (Option.mem_toList.mp he)
    | function d =>
      rcases List.mem_append.mp hn with hn | hn
      · obtain ⟨q, -, rfl⟩ := List.mem_map.mp hn
        exact Node.all_param q
      · obtain rfl := List.mem_singleton.mp hn
        obtain ⟨r, hr, -⟩ := hfunctions d (mem_functions.mpr hi)
        exact hr.literals
  cases hbody with
  | function hd => exact hfunctions _ hd
  | literal hpath =>
    -- The literal stands somewhere in a variable or function, all of which was accepted.
    obtain ⟨i, rest, n, -, hn, hnode⟩ := exists_of_at? hpath
    obtain ⟨t, ht, haccepted⟩ := hnodes n (List.mem_of_getElem? hn) rest _ hnode
    exact ⟨some t, haccepted, ne_void_of_resultType ht⟩

end Formula
