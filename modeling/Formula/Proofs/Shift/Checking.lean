import Formula.Proofs.Shift.Carry
import Formula.Proofs.Shift.Trees
import Formula.Proofs.Typing.Constant
import Formula.Proofs.Typing.Forms

/-!
# Checking programs elsewhere

The checker notes spans and reports them, and never looks into one. A program elsewhere has the types
that it had, and what is wrong with it is wrong with it there. Where the spans of integers and of
operations between two operands stay apart, the same ones become floating-point numbers.

## Main definitions

* `Program.Node.Marked M n`: the spans in a node that may become floating-point numbers satisfy `M`
* `Notes.Moves`, `TypeError.Moves`, `TypeInfo.Moves`: what is noted, reported and found of a program
  and of the program elsewhere
* `Check.Shifts`: one computation notes elsewhere what another one notes

## Main results

* `shifts_checks`: expressions, arguments and statements
* `shifts_checkVars`, `shifts_checkFunctions`, `shifts_checkBodies`: the declarations of a program
* `Program.check_shift`: the types of a program
-/

namespace Formula

variable {k : Shift} {M : Span → Prop}

/-! ## What may be marked -/

/-- Whether the place of a node may be one that becomes a floating-point number: that of an integer
or of an operation between two operands. -/
def Program.Node.isMarkable : Program.Node → Bool
  | .expr (.literal (.int _) _) | .expr (.binary ..) => true
  | _ => false

/-- The spans in a node that may become floating-point numbers satisfy `M`. -/
def Program.Node.Marked (M : Span → Prop) (n : Program.Node) : Prop :=
  n.All fun m => m.isMarkable = true → M m.span

theorem Program.Node.Marked.part {n m : Program.Node} (h : n.Marked M) (hm : m ∈ n.parts) :
    m.Marked M :=
  All.part h hm

theorem Program.Node.marked_true (n : Program.Node) : n.Marked fun _ => True :=
  fun _ _ _ _ => trivial

/-- What becomes a floating-point number with an untyped constant is marked in it. -/
theorem Expr.Constant.marked {e : Expr} {spans : List Span} (h : e.Constant spans)
    (hm : (Program.Node.expr e).Marked M) : ∀ s ∈ spans, M s := by
  induction h with
  | int => exact List.forall_mem_singleton.mpr (hm.self rfl)
  | neg _ ih => exact ih (hm.part (List.mem_singleton_self _))
  | sum _ _ _ ihl ihr =>
    have hright := hm.part (List.mem_cons_of_mem _ (List.mem_singleton_self _))
    exact List.forall_mem_append.mpr ⟨ihl (hm.part List.mem_cons_self), ihr hright⟩
  | quotient => exact List.forall_mem_singleton.mpr (hm.self rfl)

theorem Expr.marked_of_constants? {e : Expr} {spans : List Span} (h : e.constants? = some spans)
    (hm : (Program.Node.expr e).Marked M) : ∀ s ∈ spans, M s :=
  (constant_of_constants? h).marked hm

/-- A change of spans keeps those that satisfy `M` apart. -/
def Shift.Separates (k : Shift) (M : Span → Prop) : Prop :=
  ∀ s t, M s → M t → s.shift k = t.shift k → s = t

theorem Descent.separates (k : Descent) : Shift.Separates k M :=
  fun s t _ _ => Span.shift_injective k s t

/-! ## Notes and errors -/

/-- A result of the entry function elsewhere. -/
def InferredResult.shift (k : Shift) (r : InferredResult) : InferredResult :=
  ⟨r.type, r.span.shift k, r.constants.map (Span.shift k)⟩

/-- Places that are marked, and those that are marked elsewhere. -/
structure Notes.MovesFloats (k : Shift) (M : Span → Prop) (floats floats' : List Span) : Prop where
  marked : ∀ s ∈ floats, M s
  eq : k.Separates M → floats' = floats.map (Span.shift k)

/-- What is noted of a program, and what is noted of it elsewhere. -/
structure Notes.Moves (k : Shift) (M : Span → Prop) (n n' : Notes) : Prop where
  floats : MovesFloats k M n.floats n'.floats
  constants : ∀ r ∈ n.results, ∀ s ∈ r.constants, M s
  results : n'.results = n.results.map (InferredResult.shift k)

/-- What is wrong with a program elsewhere. -/
def TypeError.shift (k : Shift) (e : TypeError) : TypeError :=
  ⟨e.cause, e.span.map (Span.shift k)⟩

/-- The end of a span. -/
def Span.closing (s : Span) : Span :=
  { s with start := s.stop }

/-- What is wrong with a program, and what is wrong with it elsewhere: a place that is reported is
that of a node, or where a node ends. -/
inductive TypeError.Moves (k : Shift) : TypeError → TypeError → Prop where
  | at (e : TypeError) : Moves k e (e.shift k)
  | closing (cause : TypeCause) (s : Span) :
    Moves k ⟨cause, some s.closing⟩ ⟨cause, some (s.shift k).closing⟩

theorem Notes.MovesFloats.insert {floats floats' : List Span} {s : Span}
    (h : MovesFloats k M floats floats') (hs : M s) :
    MovesFloats k M (floats.insert s) (floats'.insert (s.shift k)) where
  marked t ht := by
    rcases List.mem_insert_iff.mp ht with rfl | ht
    · exact hs
    · exact h.marked t ht
  eq hk := by
    rw [h.eq hk]
    -- As different spans stay different, a mark that is new stays new.
    have hmem : s.shift k ∈ floats.map (Span.shift k) ↔ s ∈ floats := by
      refine ⟨fun hmem => ?_, List.mem_map_of_mem⟩
      obtain ⟨t, ht, heq⟩ := List.mem_map.mp hmem
      rwa [← hk t s (h.marked t ht) hs heq]
    by_cases hin : s ∈ floats
    · rw [List.insert_of_mem hin, List.insert_of_mem (hmem.mpr hin)]
    · rw [List.insert_of_not_mem hin, List.insert_of_not_mem (mt hmem.mp hin), List.map_cons]

/-- Nothing is noted at first. -/
theorem Notes.Moves.empty : Notes.Moves k M {} {} :=
  ⟨⟨nofun, fun _ => rfl⟩, nofun, rfl⟩

theorem Notes.Moves.mark {n n' : Notes} (h : n.Moves k M n') {spans : List Span}
    (hspans : ∀ s ∈ spans, M s) : (n.mark spans).Moves k M (n'.mark (spans.map (Span.shift k))) where
  floats := by
    have hfold (floats floats' : List Span) (hfloats : MovesFloats k M floats floats') :
        MovesFloats k M (spans.foldl (fun l s => l.insert s) floats)
          ((spans.map (Span.shift k)).foldl (fun l s => l.insert s) floats') := by
      induction spans generalizing floats floats' with
      | nil => exact hfloats
      | cons s spans ih =>
        obtain ⟨hs, hrest⟩ := List.forall_mem_cons.mp hspans
        exact ih hrest _ _ (hfloats.insert hs)
    exact hfold _ _ h.floats
  constants := h.constants
  results := h.results

namespace Check

variable {α β : Type}

/-- **One computation notes elsewhere what another one notes**, and has the same result. -/
abbrev Shifts (k : Shift) (M : Span → Prop) (x y : Check α) : Prop :=
  Carries (Notes.Moves k M) (TypeError.Moves k) id x y

theorem shifts_fail (span : Span) (cause : TypeCause) :
    Shifts k M (fail span cause : Check α) (fail (span.shift k) cause) :=
  .throw (.at _)

theorem shifts_resolved {r r' : Except UnknownType α} (h : r' = r.mapError (UnknownType.shift k)) :
    Shifts k M (resolved r) (resolved r') := by
  rw [h]
  cases r with
  | error u => exact .throw (.at (.ofUnknownType u))
  | ok a => exact .pure rfl

theorem shifts_mark {spans : List Span} (h : ∀ s ∈ spans, M s) :
    Shifts k M (mark spans) (mark (spans.map (Span.shift k))) :=
  fun _ _ hn => .ok rfl (hn.mark h)

theorem shifts_addResult {r : InferredResult} (h : ∀ s ∈ r.constants, M s) :
    Shifts k M (addResult r) (addResult (r.shift k)) :=
  fun _ _ hn => .ok rfl ⟨hn.floats, List.forall_mem_cons.mpr ⟨h, hn.constants⟩,
    congrArg (r.shift k :: ·) hn.results⟩

/-- A computation that takes no notes. -/
theorem shifts_lift {r r' : Except TypeError α} (h : r' = r.mapError (TypeError.shift k)) :
    Shifts k M (r : Check α) (r' : Check α) := by
  apply Carries.lift TypeError.Moves.at
  rw [h]
  cases r <;> rfl

/-- A check that comes before the rest of a computation. -/
theorem shifts_unless {c : Prop} [Decidable c] {cause : TypeCause} {span : Span}
    {f g : Unit → Check α} (h : ∀ u, Shifts k M (f u) (g u)) :
    Shifts k M (if c then fail span cause >>= f else f ())
      (if c then fail (span.shift k) cause >>= g else g ()) :=
  .ite Iff.rfl ((shifts_fail span cause).bind h) (h ())

end Check

open Check
open Program (Node)

/-! ## Types of operations and parts -/

theorem operationType_shift (op : BinaryOp) (left right : Ty) (span : Span) :
    operationType op left right (span.shift k) =
      (operationType op left right span).mapError (TypeError.shift k) := by
  unfold operationType
  dsimp only
  repeat' split
  all_goals rfl

theorem unaryType_shift (op : UnaryOp) (operand : Ty) (span : Span) :
    unaryType op operand (span.shift k) =
      (unaryType op operand span).mapError (TypeError.shift k) := by
  unfold unaryType
  cases op <;> dsimp only <;> split <;> rfl

theorem usedType_shift (e : Expr) (t : Ty) :
    usedType (e.shift k) t = (usedType e t).mapError (TypeError.shift k) := by
  unfold usedType
  rw [Expr.span_shift, Expr.calleeName_shift]
  split <;> rfl

theorem builtinResult_shift (b : Builtin) (argument : Ty) (span : Span) :
    builtinResult b argument (span.shift k) =
      (builtinResult b argument span).mapError (TypeError.shift k) := by
  unfold builtinResult
  cases b <;> dsimp only <;> split <;> rfl

theorem selectorType_shift (found : Option Ty) (target member : String) (span : Span) :
    selectorType found target member (span.shift k) =
      (selectorType found target member span).mapError (TypeError.shift k) := by
  unfold selectorType
  split
  · rfl
  · split <;> rfl
  · rfl

theorem targetType_shift (scopes : Scoped Ty) (name : String) (span : Span) :
    targetType scopes name (span.shift k) =
      (targetType scopes name span).mapError (TypeError.shift k) := by
  unfold targetType
  split
  · rfl
  · split <;> rfl

theorem declareParams_shift (scopes : Scoped Ty) (params : List Parameter) :
    declareParams scopes (params.map (Parameter.shift k)) =
      (declareParams scopes params).mapError (TypeError.shift k) := by
  induction params generalizing scopes with
  | nil => rfl
  | cons p params ih =>
    have hname : (p.shift k).name = p.name := rfl
    have htype : (p.shift k).type = p.type.shift k := rfl
    rw [List.map_cons, declareParams, declareParams, hname, htype, TypeExpr.resolve_shift]
    split
    · rfl
    · cases p.type.resolve with
      | error u => rfl
      | ok t => exact ih _

theorem shifts_checkCount (callee : Expr) (params : List Ty) (variadic : Option Ty) (count : Nat)
    (span : Span) :
    Check.Shifts k M (checkCount callee params variadic count span)
      (checkCount (callee.shift k) params variadic count (span.shift k)) := by
  unfold checkCount
  rw [Expr.calleeName_shift]
  apply Carries.ite Iff.rfl
  · exact shifts_fail _ _
  · exact .ite Iff.rfl (shifts_fail _ _) (.pure rfl)

theorem shifts_checkAccepts (wanted found : Ty) (span : Span) (place : ValuePlace) :
    Check.Shifts k M (checkAccepts wanted found span place)
      (checkAccepts wanted found (span.shift k) place) :=
  .ite Iff.rfl (.pure rfl) (shifts_fail _ _)

section Parts

variable {e left right : Expr} {x y x' y' : Check Ty}

theorem shifts_valueType (h : Check.Shifts k M x y) :
    Check.Shifts k M (valueType e x) (valueType (e.shift k) y) :=
  h.bind fun t => shifts_lift (usedType_shift e t)

theorem shifts_valueTypeFor (he : (Node.expr e).Marked M) (wanted : Ty)
    (h : Check.Shifts k M x y) :
    Check.Shifts k M (valueTypeFor e wanted x) (valueTypeFor (e.shift k) wanted y) := by
  unfold valueTypeFor
  rw [Expr.constants?_shift]
  cases hc : e.constants? with
  | none => cases wanted <;> exact shifts_valueType h
  | some spans =>
    cases wanted with
    | float =>
      exact h.bind fun _ => (shifts_mark (Expr.marked_of_constants? hc he)).bind fun _ => .pure rfl
    | _ => exact shifts_valueType h

theorem shifts_operandTypes (hl : (Node.expr left).Marked M) (hr : (Node.expr right).Marked M)
    (h : Check.Shifts k M x y) (h' : Check.Shifts k M x' y') :
    Check.Shifts k M (operandTypes left right x x')
      (operandTypes (left.shift k) (right.shift k) y y') := by
  unfold operandTypes
  rw [Expr.isConstant_shift, Expr.isConstant_shift]
  apply Carries.ite Iff.rfl
  · apply (shifts_valueType h').bind
    intro r
    exact (shifts_valueTypeFor hl r h).bind fun l => .pure rfl
  · apply (shifts_valueType h).bind
    intro l
    exact (shifts_valueTypeFor hr l h').bind fun r => .pure rfl

theorem shifts_initialisedType (he : (Node.expr e).Marked M) (type : Option TypeExpr)
    (h : Check.Shifts k M x y) :
    Check.Shifts k M (initialisedType type e x)
      (initialisedType (type.map (TypeExpr.shift k)) (e.shift k) y) := by
  cases type with
  | none => exact shifts_valueType h
  | some type =>
    apply (shifts_resolved (type.resolve_shift k)).bind
    intro t
    apply (shifts_valueTypeFor he t h).bind
    intro found
    rw [Expr.span_shift]
    exact (shifts_checkAccepts t found _ _).bind fun _ => .pure rfl

end Parts

theorem shifts_uninitialisedType (type : Option TypeExpr) (span : Span) :
    Check.Shifts k M (uninitialisedType type span)
      (uninitialisedType (type.map (TypeExpr.shift k)) (span.shift k)) := by
  cases type with
  | none => exact shifts_fail _ _
  | some type => exact shifts_resolved (type.resolve_shift k)

theorem shifts_checkEnd (result : Option Ty) (body : Block) :
    Check.Shifts k M (checkEnd result body) (checkEnd result (body.shift k)) := by
  unfold checkEnd
  rw [Block.terminates_shift, Block.span_shift]
  exact .ite Iff.rfl (.throw (.closing _ body.span)) (.pure rfl)

/-! ## Expressions and statements -/

/-- What is known of an expression: it has the type that it has elsewhere. -/
def Expr.Stays (k : Shift) (M : Span → Prop) (e : Expr) : Prop :=
  (Node.expr e).Marked M →
    ∀ scopes, Check.Shifts k M (checkExpr scopes e) (checkExpr scopes (e.shift k))

/-- What is known of a statement: it declares what it declares elsewhere. -/
def Stmt.Stays (k : Shift) (M : Span → Prop) (s : Stmt) : Prop :=
  (Node.stmt s).Marked M →
    ∀ f scopes, Check.Shifts k M (checkStmt f scopes s) (checkStmt f scopes (s.shift k))

/-- What is known of statements in a row. -/
def Stmt.AllStay (k : Shift) (M : Span → Prop) (ss : List Stmt) : Prop :=
  (∀ s ∈ ss, (Node.stmt s).Marked M) →
    ∀ f scopes, Check.Shifts k M (checkStmts f scopes ss) (checkStmts f scopes (ss.map (Stmt.shift k)))

/-- The statements of a block that is marked are. -/
theorem marked_statements {b : Block} (h : (Node.block b).Marked M) :
    ∀ s ∈ b.statements, (Node.stmt s).Marked M :=
  fun _ hs => h.part (List.mem_map_of_mem hs)

theorem shifts_checkArguments {es : List Expr} (h : ∀ e ∈ es, e.Stays k M)
    (hm : ∀ e ∈ es, (Node.expr e).Marked M) (scopes : Scoped Ty) (variadic : Option Ty)
    (params : List Ty) :
    Check.Shifts k M (checkArguments scopes variadic params es)
      (checkArguments scopes variadic params (es.map (Expr.shift k))) := by
  induction es generalizing params with
  | nil => exact .pure rfl
  | cons e es ih =>
    rw [List.forall_mem_cons] at h hm
    rw [List.map_cons, checkArguments, checkArguments]
    apply (shifts_valueTypeFor hm.1 _ (h.1 hm.1 scopes)).bind
    intro found
    rw [Expr.span_shift]
    exact (shifts_checkAccepts _ found _ _).bind fun _ => ih h.2 hm.2 params.tail

theorem Expr.stays_call {function : Expr} {arguments : List Expr} {span : Span}
    (hf : function.Stays k M) (ha : ∀ a ∈ arguments, a.Stays k M) :
    (call function arguments span).Stays k M := by
  intro hm scopes
  have hmf : (Node.expr function).Marked M := hm.part List.mem_cons_self
  have hma : ∀ a ∈ arguments, (Node.expr a).Marked M := fun a ha =>
    hm.part (List.mem_cons_of_mem _ (List.mem_map_of_mem ha))
  rw [shift_call, checkExpr, checkExpr]
  apply (hf hmf scopes).bind
  intro t
  -- what is called decides how many arguments may be there
  cases t with
  | builtin b =>
    rcases arguments with _ | ⟨a, _ | ⟨a', arguments⟩⟩
    · exact shifts_fail _ _
    · have hself := List.mem_singleton_self a
      apply (shifts_valueType (ha a hself (hma a hself) scopes)).bind
      intro t
      apply shifts_lift
      rw [← builtinResult_shift, span_shift]
      rfl
    · simp only [List.map_cons, List.length_cons, List.length_map]
      exact shifts_fail _ _
  | function params variadic result =>
    dsimp only [id_eq]
    rw [List.length_map]
    apply (shifts_checkCount _ _ _ _ _).bind
    intro _
    exact (shifts_checkArguments ha hma scopes variadic params).bind fun _ => .pure rfl
  | _ =>
    dsimp only [id_eq]
    rw [span_shift]
    exact shifts_fail _ _

theorem Expr.stays_function {params : List Parameter} {result : Option TypeExpr}
    {statements : List Stmt} {bodySpan span : Span} (h : Stmt.AllStay k M statements) :
    (function params result (.mk statements bodySpan) span).Stays k M := by
  intro hm scopes
  have hbody : (Node.block (.mk statements bodySpan)).Marked M :=
    hm.part (List.mem_append_right _ (List.mem_singleton_self _))
  rw [shift_function, Block.shift_mk, checkExpr, checkExpr]
  apply (shifts_resolved (functionType_shift k params result)).bind
  intro type
  apply (shifts_resolved (resultType_shift k result)).bind
  intro resultType
  apply (shifts_lift (declareParams_shift scopes.push params)).bind
  intro inner
  apply (h (marked_statements hbody) _ _).bind
  intro _
  -- the missing return of a body is reported at its end
  have hend := shifts_checkEnd (k := k) (M := M) (some resultType) (.mk statements bodySpan)
  rw [Block.shift_mk] at hend
  exact hend.bind fun _ => .pure rfl

theorem shifts_checkBool {e : Expr} (place : ConditionPlace) (h : e.Stays k M)
    (hm : (Node.expr e).Marked M) (scopes : Scoped Ty) :
    Check.Shifts k M (checkBool scopes place e) (checkBool scopes place (e.shift k)) := by
  apply (shifts_valueType (h hm scopes)).bind
  intro t
  rw [Expr.span_shift]
  exact .ite Iff.rfl (shifts_fail _ _) (.pure rfl)

theorem Stmt.stays_var {name : String} {type : Option TypeExpr} {value : Option Expr} {span : Span}
    (h : ∀ e ∈ value, e.Stays k M) : (var name type value span).Stays k M := by
  intro hm f scopes
  rw [shift_var, checkStmt_var, checkStmt_var]
  have htype : Check.Shifts k M (declaredType scopes type value span)
      (declaredType scopes (type.map (TypeExpr.shift k)) (value.map (Expr.shift k))
        (span.shift k)) := by
    cases value with
    | none => exact shifts_uninitialisedType type span
    | some e =>
      have he : (Node.expr e).Marked M := hm.part (List.mem_singleton_self _)
      exact shifts_initialisedType he type (h e rfl he scopes)
  exact shifts_unless fun _ => htype.bind fun t => .pure rfl

theorem Stmt.stays_assign {target : String} {op : Option BinaryOp} {value : Expr} {span : Span}
    (h : value.Stays k M) : (assign target op value span).Stays k M := by
  intro hm f scopes
  have he : (Node.expr value).Marked M := hm.part (List.mem_singleton_self _)
  rw [shift, checkStmt_assign, checkStmt_assign]
  apply (shifts_lift (targetType_shift scopes target span)).bind
  intro t
  -- the value that is assigned, or that of the operation
  have hvalue : Check.Shifts k M (checkAssigned scopes t op value span)
      (checkAssigned scopes t op (value.shift k) (span.shift k)) := by
    apply (shifts_valueTypeFor he t (h he scopes)).bind
    intro found
    rw [Expr.span_shift]
    cases op with
    | none => exact shifts_checkAccepts _ _ _ _
    | some op =>
      apply (shifts_lift (operationType_shift op t found span)).bind
      exact fun result => shifts_checkAccepts _ _ _ _
  exact hvalue.bind fun _ => .pure rfl

theorem Stmt.stays_ret {value : Option Expr} {span : Span} (h : ∀ e ∈ value, e.Stays k M) :
    (ret value span).Stays k M := by
  intro hm f scopes
  rw [shift_ret, checkStmt_ret, checkStmt_ret]
  have hresult : Check.Shifts k M (checkResult f scopes value span)
      (checkResult f scopes (value.map (Expr.shift k)) (span.shift k)) := by
    -- With and without a value, where a type is expected, none may be, or it is to be inferred.
    obtain ⟨result, inLoop⟩ := f
    rcases value with _ | e
    · rcases result with _ | result
      · exact shifts_fail _ _
      · cases result <;> first | exact shifts_fail _ _ | exact .pure rfl
    have hme : (Node.expr e).Marked M := hm.part (List.mem_singleton_self _)
    have he := h e rfl hme scopes
    rcases result with _ | result
    · apply (shifts_valueType he).bind
      intro t
      -- a constant that may still become another number is one of the spans that are known
      have hconstants : ∀ s ∈ e.constants?.getD [], M s := by
        cases hc : e.constants? with
        | none => exact nofun
        | some spans => exact Expr.marked_of_constants? hc hme
      have hr := shifts_addResult (k := k) (r := ⟨t, e.span, e.constants?.getD []⟩) hconstants
      rw [Expr.constants?_shift, Expr.span_shift]
      cases hc : e.constants? <;> rwa [hc] at hr
    · cases result with
      | void =>
        dsimp only [checkResult, Option.map_some]
        rw [Expr.span_shift]
        exact shifts_fail _ _
      | _ =>
        dsimp only [checkResult, Option.map_some]
        apply (shifts_valueTypeFor hme _ he).bind
        intro found
        rw [Expr.span_shift]
        exact shifts_checkAccepts _ _ _ _
  exact hresult.bind fun _ => .pure rfl

theorem Stmt.stays_cond {condition : Expr} {thenStatements : List Stmt} {thenSpan : Span}
    {elseBlock : Option Block} {span : Span} (hc : condition.Stays k M)
    (ht : Stmt.AllStay k M thenStatements) (he : ∀ b ∈ elseBlock, Stmt.AllStay k M b.statements) :
    (cond condition (.mk thenStatements thenSpan) elseBlock span).Stays k M := by
  intro hm f scopes
  have hthen : (Node.block (.mk thenStatements thenSpan)).Marked M :=
    hm.part (List.mem_cons_of_mem _ List.mem_cons_self)
  rw [shift_cond, Block.shift_mk, checkStmt_cond, checkStmt_cond]
  apply (shifts_checkBool .choice hc (hm.part List.mem_cons_self) scopes).bind
  intro _
  apply (ht (marked_statements hthen) f scopes.push).bind
  intro _
  have helse : Check.Shifts k M (checkElse f scopes elseBlock)
      (checkElse f scopes (elseBlock.map (Block.shift k))) := by
    cases elseBlock with
    | none => exact .pure rfl
    | some b =>
      have hb : (Node.block b).Marked M :=
        hm.part (List.mem_cons_of_mem _ (List.mem_cons_of_mem _ (List.mem_singleton_self _)))
      rw [Option.map_some, checkElse, checkElse, Block.statements_shift]
      exact he b rfl (marked_statements hb) f scopes.push
  exact helse.bind fun _ => .pure rfl

theorem Stmt.stays_loop {init : Option Stmt} {condition : Option Expr} {post : Option Stmt}
    {statements : List Stmt} {bodySpan span : Span} (hi : ∀ s ∈ init, s.Stays k M)
    (hc : ∀ e ∈ condition, e.Stays k M) (hp : ∀ s ∈ post, s.Stays k M)
    (hs : Stmt.AllStay k M statements) :
    (loop init condition post (.mk statements bodySpan) span).Stays k M := by
  intro hm f scopes
  have hparts : ∀ m ∈ init.toList.map Node.stmt ++ (condition.toList.map Node.expr ++
      (post.toList.map Node.stmt ++ [.block (.mk statements bodySpan)])), m.Marked M :=
    fun m hmem => hm.part hmem
  simp only [List.forall_mem_append, List.forall_mem_singleton] at hparts
  obtain ⟨hmi, hmc, hmp, hms⟩ := hparts
  rw [shift_loop, Block.shift_mk, checkStmt_loop, checkStmt_loop]
  -- each part of the head may be left out, and is checked in scopes of its own
  have hinit : Check.Shifts k M (checkInit f scopes init)
      (checkInit f scopes (init.map (Stmt.shift k))) := by
    cases init with
    | none => exact .pure rfl
    | some s => exact hi s rfl (hmi _ (List.mem_singleton_self _)) f scopes.push
  have hcondition (scopes : Scoped Ty) : Check.Shifts k M (checkCondition scopes condition)
      (checkCondition scopes (condition.map (Expr.shift k))) := by
    cases condition with
    | none => exact .pure rfl
    | some e => exact shifts_checkBool .loop (hc e rfl) (hmc _ (List.mem_singleton_self _)) scopes
  have hpost (scopes : Scoped Ty) : Check.Shifts k M (checkPost f scopes post)
      (checkPost f scopes (post.map (Stmt.shift k))) := by
    rcases post with _ | s
    · exact .pure rfl
    have hs := hp s rfl (hmp _ (List.mem_singleton_self _)) f scopes
    rw [Option.map_some]
    cases s with
    | define name value span => exact shifts_fail _ _
    | var | ret | cond | loop => simpa [checkPost] using hs
    | _ => exact hs
  apply hinit.bind
  intro inner
  apply (hcondition inner).bind
  intro _
  apply (hpost inner).bind
  intro inner
  exact (hs (marked_statements hms) _ _).bind fun _ => .pure rfl

/-- **What is checked of expressions and statements is checked of them elsewhere.** -/
theorem shifts_checks (k : Shift) (M : Span → Prop) :
    SyntaxCases (Expr.Stays k M) (fun es => ∀ e ∈ es, e.Stays k M) (Stmt.Stays k M)
      (Stmt.AllStay k M) where
  literal value span _ scopes := .pure rfl
  identifier name span _ scopes := by
    rw [Expr.shift_identifier, checkExpr, checkExpr]
    cases scopes.find? name with
    | none => exact shifts_fail _ _
    | some t => exact .pure rfl
  binary op left right span hl hr hm scopes := by
    have hml : (Node.expr left).Marked M := hm.part List.mem_cons_self
    have hmr : (Node.expr right).Marked M :=
      hm.part (List.mem_cons_of_mem _ (List.mem_singleton_self _))
    rw [Expr.shift_binary, checkExpr, checkExpr]
    apply (shifts_operandTypes hml hmr (hl hml scopes) (hr hmr scopes)).bind
    rintro ⟨l, r⟩
    exact shifts_lift (operationType_shift op l r span)
  unary op operand span ho hm scopes := by
    rw [Expr.shift_unary, checkExpr, checkExpr]
    apply (shifts_valueType (ho (hm.part (List.mem_singleton_self _)) scopes)).bind
    exact fun t => shifts_lift (unaryType_shift op t span)
  call function arguments span hf ha := Expr.stays_call hf ha
  selector target member span _ scopes := by
    rw [Expr.shift_selector, checkExpr, checkExpr]
    exact shifts_lift (selectorType_shift ..)
  function params result statements bodySpan span hs := Expr.stays_function hs
  noArguments := nofun
  argument e es he hes := List.forall_mem_cons.mpr ⟨he, hes⟩
  define name value span hv hm f scopes := by
    rw [Stmt.shift, checkStmt, checkStmt]
    have hvalue := hv (hm.part (List.mem_singleton_self _)) scopes
    exact shifts_unless fun _ => (shifts_valueType hvalue).bind fun t => .pure rfl
  var name type value span hv := Stmt.stays_var hv
  assign target op value span hv := Stmt.stays_assign hv
  increment target up span _ f scopes := by
    rw [Stmt.shift, checkStmt, checkStmt]
    apply (shifts_lift (targetType_shift scopes target span)).bind
    intro t
    exact shifts_unless fun _ => .pure rfl
  expr value hv hm f scopes := by
    rw [Stmt.shift, checkStmt, checkStmt, Expr.isCall_shift, Expr.span_shift]
    have hvalue := hv (hm.part (List.mem_singleton_self _)) scopes
    exact shifts_unless fun _ => hvalue.bind fun _ => .pure rfl
  ret value span hv := Stmt.stays_ret hv
  breakLoop span _ f scopes := by
    rw [Stmt.shift, checkStmt, checkStmt]
    exact .ite Iff.rfl (.pure rfl) (shifts_fail _ _)
  continueLoop span _ f scopes := by
    rw [Stmt.shift, checkStmt, checkStmt]
    exact .ite Iff.rfl (.pure rfl) (shifts_fail _ _)
  cond condition thenStatements thenSpan elseBlock span hc ht he := Stmt.stays_cond hc ht he
  loop init condition post statements bodySpan span hi hc hp hs := Stmt.stays_loop hi hc hp hs
  block statements span hs hm f scopes := by
    rw [Stmt.shift, Block.shift_mk, checkStmt, checkStmt]
    have hbody : (Node.block (.mk statements span)).Marked M := hm.part (List.mem_singleton_self _)
    exact (hs (marked_statements hbody) f scopes.push).bind fun _ => .pure rfl
  noStatements _ f scopes := .pure rfl
  statement s ss hs hss hm f scopes := by
    obtain ⟨hm, hms⟩ := List.forall_mem_cons.mp hm
    rw [List.map_cons, checkStmts, checkStmts]
    exact (hs hm f scopes).bind fun scopes => hss hms f scopes

/-! ## Declarations -/

theorem shifts_checkFunction (result : Option Ty) (scopes : Scoped Ty) (params : List Parameter)
    {body : Block} (hm : (Node.block body).Marked M) :
    Check.Shifts k M (checkFunction result scopes params body)
      (checkFunction result scopes (params.map (Parameter.shift k)) (body.shift k)) := by
  apply (shifts_lift (declareParams_shift scopes.push params)).bind
  intro inner
  rw [Block.statements_shift]
  apply ((shifts_checks k M).ofStmts body.statements (marked_statements hm) _ _).bind
  intro _
  exact shifts_checkEnd result body

theorem shifts_checkVars (scopes : Scoped Ty) {vars : List VarDecl}
    (hm : ∀ d ∈ vars, ∀ e ∈ d.value, (Node.expr e).Marked M) :
    Check.Shifts k M (checkVars scopes vars) (checkVars scopes (vars.map (VarDecl.shift k))) := by
  induction vars generalizing scopes with
  | nil => exact .pure rfl
  | cons d vars ih =>
    obtain ⟨hd, hrest⟩ := List.forall_mem_cons.mp hm
    obtain ⟨name, type, value, span⟩ := d
    rw [List.map_cons, checkVars, checkVars]
    cases value with
    | none => exact (shifts_uninitialisedType type span).bind fun t => ih _ hrest
    | some e =>
      have he := (shifts_checks k M).ofExpr e (hd e rfl) scopes
      apply (shifts_initialisedType (hd e rfl) type he).bind
      exact fun t => ih _ hrest

theorem shifts_unifyResults (name : String) (span : Span) {results : List InferredResult}
    (hm : ∀ r ∈ results, ∀ s ∈ r.constants, M s) :
    Check.Shifts k M (unifyResults name span results)
      (unifyResults name (span.shift k) (results.map (InferredResult.shift k))) := by
  rcases results with _ | ⟨first, results⟩
  · exact shifts_fail _ _
  generalize hall : first :: results = all at hm
  -- Types do not change their places, so the results differ where they did.
  have hother : (all.map (InferredResult.shift k)).find? (·.type ≠ (first.shift k).type) =
      (all.find? (·.type ≠ first.type)).map (InferredResult.shift k) := by
    rw [List.find?_map]
    rfl
  have hwidens : ((all.map (InferredResult.shift k)).all fun r =>
      r.type = .float || (r.type = .int && !r.constants.isEmpty)) =
      all.all fun r => r.type = .float || (r.type = .int && !r.constants.isEmpty) := by
    rw [List.all_map]
    congr 1
    funext r
    simp only [Function.comp_apply, InferredResult.shift, List.isEmpty_map]
    rfl
  have hmarks : ((all.map (InferredResult.shift k)).filter (·.type = .int)).flatMap (·.constants) =
      ((all.filter (·.type = .int)).flatMap (·.constants)).map (Span.shift k) := by
    rw [List.filter_map, List.flatMap_map, List.map_flatMap]
    rfl
  have hmarked : ∀ s ∈ (all.filter (·.type = .int)).flatMap (·.constants), M s := by
    intro s hs
    obtain ⟨r, hr, hs⟩ := List.mem_flatMap.mp hs
    exact hm r (List.mem_filter.mp hr).1 s hs
  have hunify : Check.Shifts k M (unifyResults name span all)
      (unifyResults name (span.shift k) (all.map (InferredResult.shift k))) := by
    subst hall
    rw [List.map_cons, unifyResults, unifyResults, ← List.map_cons, hother, hwidens, hmarks]
    cases (first :: results).find? (·.type ≠ first.type) with
    | none => exact .pure rfl
    | some other => exact shifts_unless fun _ => (shifts_mark hmarked).bind fun _ => .pure rfl
  exact hunify

theorem shifts_checkEntry (scopes : Scoped Ty) {d : FunctionDecl}
    (hm : (Node.block d.body).Marked M) :
    Check.Shifts k M (checkEntry scopes d) (checkEntry scopes (d.shift k)) := by
  obtain ⟨name, params, result, body, span⟩ := d
  rcases params with _ | ⟨p, params⟩
  · rcases result with _ | e
    · apply (shifts_checkFunction none scopes [] hm).bind
      intro _
      refine .get_bind fun n n' hn => ?_
      have hconstants : ∀ r ∈ n.results.reverse, ∀ s ∈ r.constants, M s :=
        fun r hr => hn.constants r (List.mem_reverse.mp hr)
      have h := shifts_unifyResults (k := k) name span hconstants
      rwa [List.map_reverse, ← hn.results] at h
    · apply (shifts_resolved (e.resolve_shift k)).bind
      intro t
      exact (shifts_checkFunction (some t) scopes [] hm).bind fun _ => .pure rfl
  · exact shifts_fail _ _

theorem shifts_checkFunctions (entryPoint : String) (scopes : Scoped Ty) (entry : Option Ty)
    {functions : List FunctionDecl} (hm : ∀ d ∈ functions, (Node.block d.body).Marked M) :
    Check.Shifts k M (checkFunctions entryPoint scopes entry functions)
      (checkFunctions entryPoint scopes entry (functions.map (FunctionDecl.shift k))) := by
  induction functions generalizing entry with
  | nil => exact .pure rfl
  | cons d functions ih =>
    obtain ⟨hd, hrest⟩ := List.forall_mem_cons.mp hm
    rw [List.map_cons, checkFunctions, checkFunctions]
    apply Carries.ite Iff.rfl
    · exact (shifts_checkEntry scopes hd).bind fun t => ih (some t) hrest
    · apply (shifts_resolved (resultType_shift k d.result)).bind
      intro result
      exact (shifts_checkFunction (some result) scopes d.params hd).bind fun _ => ih entry hrest

/-- The spans in the declarations of a program that may become floating-point numbers satisfy `M`. -/
def Item.Marked (M : Span → Prop) (i : Item) : Prop :=
  ∀ n ∈ i.nodes, n.Marked M

theorem Item.marked_true (i : Item) : i.Marked fun _ => True :=
  fun n _ => n.marked_true

/-- **The declarations of a program elsewhere** are checked as they are. -/
theorem shifts_checkBodies (imports imports' : List ImportDecl) {items : List Item}
    (hm : ∀ i ∈ items, i.Marked M) (entryPoint : String) (scopes : Scoped Ty) :
    Check.Shifts k M (checkBodies ⟨imports, items⟩ entryPoint scopes)
      (checkBodies ⟨imports', items.map (Item.shift k)⟩ entryPoint scopes) := by
  have hvars : Program.vars ⟨imports', items.map (Item.shift k)⟩ =
      (Program.vars ⟨imports, items⟩).map (VarDecl.shift k) := Item.filterMap_var?_shift k items
  have hfunctions : Program.functions ⟨imports', items.map (Item.shift k)⟩ =
      (Program.functions ⟨imports, items⟩).map (FunctionDecl.shift k) :=
    Item.filterMap_function?_shift k items
  -- it has variables and functions of the same names
  have hentry : ((Program.functions ⟨imports, items⟩).map (FunctionDecl.shift k)).any
      (·.name == entryPoint) = (Program.functions ⟨imports, items⟩).any (·.name == entryPoint) := by
    rw [List.any_map]
    rfl
  have hmvars : ∀ d ∈ Program.vars ⟨imports, items⟩, ∀ e ∈ d.value, (Node.expr e).Marked M := by
    intro d hd e he
    exact hm _ (Program.mem_vars.mp hd) _ (List.mem_map_of_mem (by simpa using he))
  have hmfunctions : ∀ d ∈ Program.functions ⟨imports, items⟩, (Node.block d.body).Marked M := by
    intro d hd
    exact hm _ (Program.mem_functions.mp hd) _ (List.mem_append_right _ (List.mem_singleton_self _))
  rw [checkBodies, checkBodies, hvars, hfunctions, hentry]
  apply (shifts_checkVars scopes hmvars).bind
  intro scopes'
  have hbodies := shifts_checkFunctions (k := k) entryPoint scopes' none hmfunctions
  have hmissing : Check.Shifts k M (throw ⟨.noEntryPoint entryPoint, none⟩ : Check Unit)
      (throw ⟨.noEntryPoint entryPoint, none⟩) := .throw (.at _)
  exact .ite Iff.rfl (hmissing.bind fun _ => hbodies) hbodies

/-! ## Programs -/

theorem checkImports_shift (taken : List String) (scopes : Scoped Ty) (imports : List ImportDecl) :
    checkImports taken scopes (imports.map (ImportDecl.shift k)) =
      (checkImports taken scopes imports).mapError (TypeError.shift k) := by
  induction imports generalizing taken scopes with
  | nil => rfl
  | cons i imports ih =>
    have hpath : (i.shift k).path = i.path := rfl
    have hbinding : (i.shift k).binding = i.binding := rfl
    rw [List.map_cons, checkImports, checkImports, hpath, hbinding]
    split
    · rfl
    · split
      · rfl
      · exact ih _ _

theorem checkNames_shift (entryPoint : String) (taken : List String) (scopes : Scoped Ty)
    (items : List Item) :
    checkNames entryPoint taken scopes (items.map (Item.shift k)) =
      (checkNames entryPoint taken scopes items).mapError (TypeError.shift k) := by
  induction items generalizing taken scopes with
  | nil => rfl
  | cons i items ih =>
    have hname := i.name_shift k
    have hspan := i.span_shift k
    cases i with
    | var d =>
      simp only [List.map_cons, Item.shift, checkNames] at hname hspan ⊢
      rw [hname, hspan]
      split
      · rfl
      · exact ih _ _
    | function d =>
      have htype : functionType (d.shift k).params (d.shift k).result =
          (functionType d.params d.result).mapError (UnknownType.shift k) :=
        functionType_shift k d.params d.result
      have hdecl : (d.shift k).name = d.name := rfl
      simp only [List.map_cons, Item.shift, checkNames] at hname hspan ⊢
      -- a name in use, then the entry function, then a type that is unknown
      rw [hname, hspan, hdecl, htype]
      split
      · rfl
      split
      · exact ih _ _
      · cases functionType d.params d.result with
        | error u => rfl
        | ok t => exact ih _ _

/-- What is found of a program, and what is found of it elsewhere. -/
structure TypeInfo.Moves (k : Shift) (M : Span → Prop) (t t' : TypeInfo) : Prop where
  result : t'.result = t.result
  floats : Notes.MovesFloats k M t.floats t'.floats

/-- What keeps its place apart is marked elsewhere if it is marked. -/
theorem TypeInfo.Moves.isFloat {t t' : TypeInfo} (h : t.Moves k M t') (hk : k.Separates M)
    {s : Span} (hs : M s) : t'.isFloat (s.shift k) = t.isFloat s := by
  have hmem : s.shift k ∈ t.floats.map (Span.shift k) ↔ s ∈ t.floats := by
    refine ⟨fun hmem => ?_, List.mem_map_of_mem⟩
    obtain ⟨u, hu, heq⟩ := List.mem_map.mp hmem
    rwa [← hk u s (h.floats.marked u hu) hs heq]
  simp only [TypeInfo.isFloat, h.floats.eq hk, List.contains_eq_mem, hmem]

/-- A program is accepted and rejected as it is elsewhere. -/
inductive Program.ChecksAlike (k : Shift) (M : Span → Prop) :
    Except TypeError TypeInfo → Except TypeError TypeInfo → Prop where
  | error {e e' : TypeError} (h : e.Moves k e') : ChecksAlike k M (.error e) (.error e')
  | ok {t t' : TypeInfo} (h : t.Moves k M t') : ChecksAlike k M (.ok t) (.ok t')

/-- A stage that fails elsewhere as it does, and what follows it. -/
theorem Program.ChecksAlike.bind {α : Type} {x : Except TypeError α}
    {f g : α → Except TypeError TypeInfo} (h : ∀ a, ChecksAlike k M (f a) (g a)) :
    ChecksAlike k M (x >>= f) (x.mapError (TypeError.shift k) >>= g) := by
  cases x with
  | error e => exact .error (.at e)
  | ok a => exact h a

/-- **A program elsewhere is checked as it is**: it has the same result type, the same integers
become floating-point numbers, and what is wrong with it is wrong there. -/
theorem Program.check_shift {p : Program} (hm : ∀ i ∈ p.items, i.Marked M) (entryPoint : String) :
    ChecksAlike k M (p.check entryPoint) ((p.shift k).check entryPoint) := by
  unfold Program.check
  rw [shift, checkImports_shift]
  refine .bind ?_
  rintro ⟨taken, scopes⟩
  dsimp only
  rw [checkNames_shift]
  refine .bind fun scopes => ?_
  have hbodies := shifts_checkBodies (k := k) p.imports (p.imports.map (ImportDecl.shift k)) hm
    entryPoint scopes {} {} .empty
  change ChecksAlike k M (checkBodies ⟨p.imports, p.items⟩ entryPoint scopes {} >>= _)
    (checkBodies ⟨p.imports.map (ImportDecl.shift k), p.items.map (Item.shift k)⟩ entryPoint
      scopes {} >>= _)
  generalize checkBodies ⟨p.imports, p.items⟩ entryPoint scopes {} = r at hbodies ⊢
  generalize checkBodies ⟨p.imports.map (ImportDecl.shift k), p.items.map (Item.shift k)⟩ entryPoint
    scopes {} = r' at hbodies ⊢
  -- what was noted has moved with the spans
  cases hbodies with
  | error he => exact .error he
  | @ok entry _ n n' hentry hn =>
    cases hentry
    cases entry with
    | none => exact .error (.at _)
    | some result => exact .ok ⟨rfl, hn.floats⟩

end Formula
