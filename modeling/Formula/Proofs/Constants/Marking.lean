import Formula.Proofs.Constants.Slots
import Formula.Proofs.Flow.Accepted
import Formula.Proofs.Typing.Bodies

/-!
# What the checker marks

The checker marks places in passing: those in an untyped constant as soon as it is used where a
floating-point number is wanted, in an operand perhaps before the one in front of it. The results of
an entry function are only noted, to be marked when all of the body has been checked. Whatever the
order, of an expression or statement just those slots are marked of which a floating-point number is
wanted.

## Main definitions

* `Slot.marks`: what becomes a floating-point number in a slot
* `Effect.Matches`, `Effect.MatchesFor`: what is noted is what becomes a floating-point number in
  slots, where the result type is known and where it may be inferred
* `Expr.Found`, `Stmt.Found`: what is found out about an expression or statement

## Main results

* `Check.finds_operandTypes`: of each operand the type of the other one is wanted
* `finds`: what is noted of an expression or statement matches the constants in it
-/

namespace Formula

open Check.Gives

namespace Slot

/-- **What becomes a floating-point number** in a slot. -/
def marks (p : Slot) : List Span :=
  if p.wanted = some .float then p.expr.constants?.getD [] else []

/-- Whether a place becomes a floating-point number in one of some slots. -/
def Marked (slots : List Slot) (s : Span) : Prop :=
  ∃ p ∈ slots, s ∈ p.marks

variable {slots slots' : List Slot} {s : Span}

@[simp]
theorem not_marked_nil : ¬Marked [] s := by
  rintro ⟨p, hp, -⟩
  cases hp

@[simp]
theorem marked_append : Marked (slots ++ slots') s ↔ Marked slots s ∨ Marked slots' s := by
  simp only [Marked, List.mem_append, or_and_right, exists_or]

@[simp]
theorem marked_singleton {p : Slot} : Marked [p] s ↔ s ∈ p.marks := by
  simp [Marked]

end Slot

open Slot (Marked)

namespace Expr

variable {e : Expr} {scopes : Scoped Ty} {wanted : Option Ty} {s : Span}

theorem slots_of_constant (h : e.isConstant = true) : e.slots scopes wanted = [⟨wanted, e⟩] :=
  if_pos h

theorem slots_of_not_constant (h : e.isConstant = false) :
    e.slots scopes wanted = e.within scopes :=
  if_neg (Bool.eq_false_iff.mp h)

theorem Constant.isConstant {spans : List Span} (h : e.Constant spans) : e.isConstant = true := by
  induction h with
  | int => rfl
  | neg _ ih => exact ih
  | sum hop _ _ ihl ihr =>
    rw [isConstant_binary, ihl, ihr]
    rcases hop with rfl | rfl | rfl <;> rfl
  | quotient hop _ _ ihl ihr =>
    rw [isConstant_binary, ihl, ihr]
    rcases hop with rfl | rfl <;> rfl

/-- A constant is an integer as long as nothing is marked. -/
theorem type?_of_constant (h : e.isConstant = true) : e.type? scopes = some .int := by
  obtain ⟨spans, hspans⟩ := Option.isSome_iff_exists.mp h
  have he := constant_of_constants? hspans
  clear h hspans
  induction he with
  | int => rfl
  | neg _ ih => exact ih
  | sum hop hl hr ihl ihr =>
    rcases hop with rfl | rfl | rfl <;> simp [type?, BinaryOp.isComparison, ihl, ihr]
  | quotient hop hl hr ihl ihr =>
    rcases hop with rfl | rfl <;> simp [type?, BinaryOp.isComparison, ihl, ihr]

/-- An integer constant is not marked. -/
theorem not_marked_slots (h : e.isConstant = true) (hwanted : wanted ≠ some .float) :
    ¬Marked (e.slots scopes wanted) s := by
  rw [slots_of_constant h, Slot.marked_singleton, Slot.marks, if_neg hwanted]
  exact List.not_mem_nil

/-- Where nothing is wanted of a constant, no more is wanted of those in it. -/
theorem not_marked_within (h : e.isConstant = true) : ¬Marked (e.within scopes) s := by
  obtain ⟨spans, hspans⟩ := Option.isSome_iff_exists.mp h
  cases constant_of_constants? hspans with
  | int => exact Slot.not_marked_nil
  | neg ho => exact not_marked_slots ho.isConstant (by decide)
  | sum _ hl hr | quotient _ hl hr =>
    -- The operands are wanted to be of each other's type, and both are constants: integers.
    rw [within, Slot.marked_append, not_or]
    refine ⟨not_marked_slots hl.isConstant ?_, not_marked_slots hr.isConstant ?_⟩
    · rw [type?_of_constant hr.isConstant]
      decide
    · rw [type?_of_constant hl.isConstant]
      decide

/-- Of what is no constant nothing is wanted, and of a constant no floating-point number. -/
theorem marked_slots (h : e.isConstant = true → wanted ≠ some .float) :
    Marked (e.slots scopes wanted) s ↔ Marked (e.within scopes) s := by
  cases he : e.isConstant with
  | false => rw [slots_of_not_constant he]
  | true => exact iff_of_false (not_marked_slots he (h he)) (not_marked_within he)

end Expr

/-! ## Effects -/

namespace Effect

/-- **What is noted is what becomes a floating-point number in slots**, and no results. -/
structure Matches (x : Effect) (slots : List Slot) : Prop where
  results : x.results = []
  marks : ∀ s, s ∈ x.marks ↔ Marked slots s

/-- The types of the results that are noted, in order. -/
def types (x : Effect) : List (Option Ty) :=
  x.results.reverse.map fun r => some r.type

/-- **What is noted is what becomes a floating-point number in slots** in the end, given what is
wanted of the results of the function; if their type is to be inferred, they are noted as well. -/
structure MatchesFor (x : Effect) (expected : Option Ty) (slots : Option Ty → List Slot)
    (types : List (Option Ty)) : Prop where
  types : x.types = if expected = none then types else []
  marks : ∀ result, (∀ t, expected = some t → result = t) → ∀ s,
    x.Marks result s ↔ Marked (slots (some result)) s

variable {x y : Effect} {slots slots' : List Slot} {expected : Option Ty}
  {slotsFor slotsFor' : Option Ty → List Slot} {ts ts' : List (Option Ty)}

theorem matches_nil : Matches {} [] :=
  ⟨rfl, fun _ => iff_of_false List.not_mem_nil Slot.not_marked_nil⟩

theorem Matches.append (h : x.Matches slots) (h' : y.Matches slots') :
    (x.append y).Matches (slots ++ slots') where
  results := by rw [Effect.append, h.results, h'.results, List.append_nil]
  marks s := by rw [Effect.append, List.mem_append, h.marks, h'.marks, Slot.marked_append]

theorem Matches.swap (h : x.Matches (slots ++ slots')) : x.Matches (slots' ++ slots) :=
  ⟨h.results, fun s => by rw [h.marks, Slot.marked_append, Slot.marked_append, or_comm]⟩

/-- Of an expression nothing is wanted, or nothing that would be marked. -/
theorem Matches.wanting {e : Expr} {scopes : Scoped Ty} {wanted : Option Ty}
    (h : x.Matches (e.within scopes)) (hwanted : e.isConstant = true → wanted ≠ some .float) :
    x.Matches (e.slots scopes wanted) :=
  ⟨h.results, fun s => by rw [h.marks, Expr.marked_slots hwanted]⟩

theorem types_eq_nil : x.types = [] ↔ x.results = [] := by
  simp [types]

theorem types_append : (x.append y).types = x.types ++ y.types := by
  simp [types, Effect.append]

theorem Matches.matchesFor (h : x.Matches slots) : x.MatchesFor expected (fun _ => slots) [] where
  types := by rw [types_eq_nil.mpr h.results, ite_self]
  marks result _ s := by rw [marks_of_results h.results, h.marks]

/-- Where the result type is known, no results are noted. -/
theorem MatchesFor.matches {t : Ty} (h : x.MatchesFor (some t) slotsFor ts) :
    x.Matches (slotsFor (some t)) := by
  have hresults : x.results = [] := types_eq_nil.mp h.types
  refine ⟨hresults, fun s => ?_⟩
  rw [← h.marks t (fun _ h => Option.some.inj h), marks_of_results hresults]

/-- Where the result type is known, it does not matter which results there are. -/
theorem Matches.matchesKnown {t : Ty} (h : x.Matches (slotsFor (some t))) :
    x.MatchesFor (some t) slotsFor ts where
  types := types_eq_nil.mpr h.results
  marks result hresult s := by rw [marks_of_results h.results, h.marks, hresult t rfl]

theorem MatchesFor.congr (h : x.MatchesFor expected slotsFor ts)
    (hslots : ∀ wanted, slotsFor' wanted = slotsFor wanted) (hts : ts' = ts) :
    x.MatchesFor expected slotsFor' ts' := by
  rwa [funext hslots, hts]

theorem MatchesFor.append (h : x.MatchesFor expected slotsFor ts)
    (h' : y.MatchesFor expected slotsFor' ts') :
    (x.append y).MatchesFor expected (fun wanted => slotsFor wanted ++ slotsFor' wanted)
      (ts ++ ts') where
  types := by
    rw [types_append, h.types, h'.types]
    split <;> rfl
  marks result hresult s := by
    rw [marks_append, h.marks result hresult, h'.marks result hresult, Slot.marked_append]

end Effect

/-! ## Expressions -/

/-- **What is found out about an expression**: its type, and what is noted matches the constants
within it. -/
structure Expr.Found (scopes : Scoped Ty) (e : Expr) (t : Ty) (x : Effect) : Prop where
  type : e.type? scopes = some t
  within : x.Matches (e.within scopes)

namespace Check

variable {scopes : Scoped Ty}

section Values

variable {e : Expr} {type : Check Ty} (he : Gives type e.spans (e.Found scopes))

include he

theorem finds_valueType : Gives (valueType e type) e.spans (e.Found scopes) := by
  refine last he (fun _ => id) fun t x ht _ => .ofExcept fun u hu => ?_
  obtain rfl : u = t := by cases t <;> cases hu <;> rfl
  rw [Effect.append_nil]
  exact ht

/-- **Of an untyped constant is marked what is wanted of it.** -/
theorem finds_valueTypeFor (wanted : Ty) :
    Gives (valueTypeFor e wanted type) e.spans fun t x => x.Matches (e.slots scopes (some wanted)) ∧
      (wanted ≠ .float → e.type? scopes = some t) := by
  unfold valueTypeFor
  split
  · rename_i spans hspans
    have hconstant : e.isConstant = true := by rw [Expr.isConstant, hspans]; rfl
    refine (bind he (l := e.spans) fun t x ht _ => ?_).weaken (by simp) fun _ _ _ => id
    refine .mark_bind (Expr.constant_of_constants? hspans).mem_spans (.pure ⟨rfl, ?_, ?_⟩)
    · -- Nothing was marked before, as nothing was wanted.
      refine ⟨by simp [Effect.append, ht.within.results], fun s => ?_⟩
      have hbefore : s ∉ x.marks := by
        rw [ht.within.marks]
        exact Expr.not_marked_within hconstant
      rw [Expr.slots_of_constant hconstant, Slot.marked_singleton, Slot.marks, if_pos rfl, hspans]
      simp [Effect.append, hbefore]
    · exact fun h => absurd rfl h
  · rename_i hnone
    refine (finds_valueType he).mono fun t x ht =>
      ⟨ht.within.wanting fun hconstant => ?_, fun _ => ht.type⟩
    rintro ⟨⟩
    obtain ⟨spans, hspans⟩ := Option.isSome_iff_exists.mp hconstant
    exact hnone spans rfl hspans

end Values

/-- **Of each operand the type of the other one is wanted**, whichever is looked at first. -/
theorem finds_operandTypes {left right : Expr} {leftType rightType : Check Ty}
    (hl : Gives leftType left.spans (left.Found scopes))
    (hr : Gives rightType right.spans (right.Found scopes)) :
    Gives (operandTypes left right leftType rightType) (left.spans ++ right.spans) fun p x =>
      x.Matches (left.slots scopes (right.type? scopes) ++ right.slots scopes (left.type? scopes)) ∧
        (p.1 = p.2 →
          (if left.isConstant then right.type? scopes else left.type? scopes) = some p.1) := by
  have hint (e : Expr) (he : e.isConstant = true) : e.type? scopes ≠ some .float := by
    rw [Expr.type?_of_constant he]
    decide
  unfold operandTypes
  split
  · rename_i hconstant
    rw [Bool.and_eq_true, Bool.not_eq_true'] at hconstant
    obtain ⟨hleft, hright⟩ := hconstant
    -- The right operand is looked at first, so what it marks comes before what the left one does.
    refine (bind (finds_valueType hr) (l := left.spans) fun r x hr _ => ?_).weaken
      (fun s hs => List.mem_append.mpr (List.mem_append.mp hs).symm) fun _ _ _ => id
    refine last (finds_valueTypeFor hl r) (fun _ => id) fun l y hl _ => .pure ?_
    have hright : x.Matches (right.slots scopes (left.type? scopes)) :=
      hr.within.wanting fun h => by simp [hright] at h
    rw [Effect.append_nil, hr.type, if_pos hleft]
    exact ⟨(hright.append hl.1).swap, fun h => congrArg some h.symm⟩
  · rename_i hconstant
    refine bind (finds_valueType hl) fun l x hl _ => ?_
    refine last (finds_valueTypeFor hr l) (fun _ => id) fun r y hr _ => .pure ?_
    -- If the left operand is a constant, the right one is one as well.
    have hboth (hleft : left.isConstant = true) : right.isConstant = true := by
      simpa [hleft] using hconstant
    have hleft : x.Matches (left.slots scopes (right.type? scopes)) :=
      hl.within.wanting fun hleft => hint right (hboth hleft)
    rw [Effect.append_nil, hl.type]
    refine ⟨hleft.append hr.1, fun _ => ?_⟩
    split
    · rename_i hconstant
      rw [← hl.type, Expr.type?_of_constant hconstant, Expr.type?_of_constant (hboth hconstant)]
    · rfl

end Check

/-- What the checker finds out about an expression, in whatever scopes. -/
def Expr.Finds (e : Expr) : Prop :=
  ∀ scopes, Check.Gives (checkExpr scopes e) e.spans (e.Found scopes)

/-- **What is found out about a statement**: the scopes behind it, and what is noted matches the
constants in it. -/
structure Stmt.Found (f : Surroundings) (scopes : Scoped Ty) (s : Stmt) (scopes' : Scoped Ty)
    (x : Effect) : Prop where
  behind : scopes' = s.behind scopes
  noted : x.MatchesFor f.result (s.slots · scopes) (s.results scopes)

/-- What the checker finds out about a statement, wherever it stands. -/
def Stmt.Finds (s : Stmt) : Prop :=
  ∀ f scopes, Check.Gives (checkStmt f scopes s) s.spans (s.Found f scopes)

/-- What the checker finds out about statements, wherever they stand. -/
def Stmt.AllFind (ss : List Stmt) : Prop :=
  ∀ f scopes, Check.Gives (checkStmts f scopes ss) (Stmt.spansOfAll ss) fun _ x =>
    x.MatchesFor f.result (Stmt.allSlots · scopes ss) (Stmt.allResults scopes ss)

namespace Expr

variable {scopes : Scoped Ty}

theorem finds_literal (value : Scalar) (span : Span) : (literal value span).Finds := by
  intro scopes
  rw [checkExpr]
  exact .pure ⟨rfl, Effect.matches_nil⟩

theorem finds_identifier (name : String) (span : Span) : (identifier name span).Finds := by
  intro scopes
  rw [checkExpr]
  split
  · rename_i t ht
    exact .pure ⟨ht, Effect.matches_nil⟩
  · exact .fail _ _

theorem finds_selector (target member : String) (span : Span) :
    (selector target member span).Finds := by
  intro scopes
  rw [checkExpr]
  refine .ofExcept fun t ht => ⟨?_, Effect.matches_nil⟩
  unfold selectorType at ht
  rw [type?]
  split at ht
  · cases ht
  · rename_i path hpath
    rw [hpath]
    dsimp only
    split at ht
    · rename_i n hn
      cases ht
      rw [hn]
      rfl
    · cases ht
  · cases ht

theorem finds_binary (op : BinaryOp) {left right : Expr} (span : Span) (hl : left.Finds)
    (hr : right.Finds) : (binary op left right span).Finds := by
  intro scopes
  rw [checkExpr]
  refine last (Check.finds_operandTypes (hl scopes) (hr scopes))
    (fun s hs => List.mem_cons_of_mem _ hs) fun p x hx _ => .ofExcept fun t ht => ?_
  obtain ⟨hsame, -, rfl⟩ := operationType_eq_ok ht
  rw [Effect.append_nil]
  refine ⟨?_, hx.1⟩
  -- The checker takes the type on the left, which is the other one's by now if that was a constant.
  rw [type?]
  split
  · rfl
  · exact hx.2 hsame

theorem finds_unary (op : UnaryOp) {operand : Expr} (span : Span) (ho : operand.Finds) :
    (unary op operand span).Finds := by
  intro scopes
  rw [checkExpr]
  refine last (Check.finds_valueType (ho scopes)) (fun s hs => List.mem_cons_of_mem _ hs)
    fun t x ht _ => .ofExcept fun u hu => ?_
  obtain rfl : u = t := by
    cases op <;> cases t <;> first | cases hu; rfl | cases hu
  rw [Effect.append_nil]
  exact ⟨ht.type, ht.within.wanting (by simp)⟩

/-- Arguments are found out about one after the other, each for the type of its parameter. -/
theorem finds_checkArguments (variadic : Option Ty) {arguments : List Expr}
    (h : ∀ e ∈ arguments, e.Finds) (params : List Ty) :
    Check.Gives (checkArguments scopes variadic params arguments) (spansOfAll arguments)
      fun _ x => x.Matches (withinArguments scopes variadic params arguments) := by
  induction arguments generalizing params with
  | nil =>
    rw [checkArguments]
    exact .pure Effect.matches_nil
  | cons a arguments ih =>
    obtain ⟨ha, harguments⟩ := List.forall_mem_cons.mp h
    rw [checkArguments]
    refine bind (Check.finds_valueTypeFor (ha scopes) _) fun t x ht _ =>
      Check.accepts_bind fun _ => ?_
    refine (ih harguments params.tail).mono fun _ y hy => Effect.Matches.append ?_ hy
    -- Of an argument without a parameter the checker wants any type, which marks nothing either.
    have hwanted : params.head?.or variadic = some (params.head?.getD (variadic.getD .any)) ∨
        params.head?.or variadic = none ∧ params.head?.getD (variadic.getD .any) = .any := by
      cases params <;> cases variadic <;> simp
    rcases hwanted with heq | ⟨hnone, hany⟩
    · rw [heq]
      exact ht.1
    · rw [hnone]
      rw [hany] at ht
      exact ⟨ht.1.results, fun s => by
        rw [ht.1.marks, Expr.marked_slots (by simp)]
        exact (Expr.marked_slots (by simp)).symm⟩

theorem finds_call {function : Expr} {arguments : List Expr} (span : Span) (hf : function.Finds)
    (ha : ∀ e ∈ arguments, e.Finds) : (call function arguments span).Finds := by
  intro scopes
  rw [checkExpr]
  refine (bind (hf scopes) (l := spansOfAll arguments) fun t x ht _ => ?_).weaken
    (fun _ => List.mem_cons_of_mem _) fun _ _ _ => id
  have hfunction : x.Matches (function.slots scopes none) := ht.within.wanting (by simp)
  split
  · -- A predeclared function takes a value of whatever type, so nothing is wanted of a constant.
    rename_i b
    split
    · rename_i a
      refine last (Check.finds_valueType (ha a List.mem_cons_self scopes)) (by simp [spansOfAll])
        fun u y hu _ => .ofExcept fun w hw => ?_
      rw [Effect.append_nil]
      have hresult : w = b.result := by
        cases b <;> cases u <;> first | cases hw; rfl | cases hw
      refine ⟨by rw [type?, ht.type, hresult], ?_⟩
      rw [within, ht.type, withinArguments, withinArguments, List.append_nil]
      exact hfunction.append (hu.within.wanting (by simp))
    · exact .fail _ _
  · rename_i params variadic result
    unfold checkCount
    split
    · exact .fail_bind _ _
    split
    · exact .fail_bind _ _
    rw [pure_bind]
    refine last (finds_checkArguments variadic ha params) (fun _ => id) fun _ y hy _ => .pure ?_
    rw [Effect.append_nil]
    -- The parameters are those of the type that was found.
    refine ⟨by rw [type?, ht.type], ?_⟩
    rw [within, ht.type]
    exact hfunction.append hy
  · exact .fail _ _

/-- The parameters of a function are in scope in its body. -/
theorem eq_scopes_of_declareParams {params : List Parameter} {inner : Scoped Ty}
    (h : declareParams scopes.push params = .ok inner) : inner = Parameter.scopes scopes params := by
  unfold Parameter.scopes
  generalize scopes.push = outer at h
  induction params generalizing outer with
  | nil =>
    cases h
    rfl
  | cons p ps ih =>
    rw [declareParams] at h
    split at h
    · cases h
    split at h
    · rename_i t ht
      rw [List.foldl_cons, ht]
      exact ih _ h
    · cases h

/-- What is noted of the body of a function matches the constants in it. -/
theorem finds_checkFunction (expected : Option Ty) (params : List Parameter) {body : Block}
    (hs : Stmt.AllFind body.statements) :
    Check.Gives (checkFunction expected scopes params body) (Stmt.spansOfAll body.statements)
      fun _ x => x.MatchesFor expected
        (Stmt.allSlots · (Parameter.scopes scopes params) body.statements)
        (Stmt.allResults (Parameter.scopes scopes params) body.statements) := by
  refine .ofExcept_bind fun inner hinner => ?_
  obtain rfl := eq_scopes_of_declareParams hinner
  refine last (hs ⟨expected, false⟩ _) (fun _ => id) fun _ x hx _ => ?_
  refine .ite (fun _ => .fail _ _) fun _ => .pure ?_
  rwa [Effect.append_nil]

theorem finds_function (params : List Parameter) (result : Option TypeExpr) {statements : List Stmt}
    (bodySpan span : Span) (hs : Stmt.AllFind statements) :
    (function params result (.mk statements bodySpan) span).Finds := by
  intro scopes
  rw [checkExpr_function]
  refine .resolved_bind fun t ht => .resolved_bind fun r hr => ?_
  have hbody : Stmt.AllFind (Block.mk statements bodySpan).statements := hs
  refine last (finds_checkFunction (some r) params hbody)
    (fun s h => List.mem_cons_of_mem _ (List.mem_append_right _ h)) fun _ x hx _ => .pure ?_
  rw [Effect.append_nil]
  refine ⟨by rw [type?, ht]; rfl, ?_⟩
  -- Its result type is a written one, so none of its results are left to the function around it.
  rw [within, hr]
  exact hx.matches

end Expr

/-! ## Statements -/

section Parts

variable {f : Surroundings} {scopes : Scoped Ty}

theorem finds_checkBool (place : ConditionPlace) {e : Expr} (he : e.Finds) :
    Check.Gives (checkBool scopes place e) e.spans fun _ x => x.Matches (e.slots scopes none) := by
  refine last (Check.finds_valueType (he scopes)) (fun _ => id) fun t x ht _ => ?_
  refine .ite (fun _ => .fail _ _) fun _ => .pure ?_
  rw [Effect.append_nil]
  exact ht.within.wanting (by simp)

/-- Of an initial value the written type is wanted, or none. -/
theorem finds_declaredType (type : Option TypeExpr) {value : Option Expr} (span : Span)
    (hvalue : ∀ e ∈ value, e.Finds) :
    Check.Gives (declaredType scopes type value span) (Expr.spansIn value) fun t x =>
      Expr.declaredType? scopes type value = some t ∧
        x.Matches (Expr.slotsIn scopes (type.bind fun t => t.resolve.toOption) value) := by
  cases value with
  | none =>
    cases type with
    | none => exact .fail _ _
    | some type =>
      refine .resolved fun t ht => ⟨?_, Effect.matches_nil⟩
      rw [Expr.declaredType?, ht]
      rfl
  | some e =>
    cases type with
    | none =>
      exact (Check.finds_valueType (hvalue e rfl scopes)).mono fun t x ht =>
        ⟨ht.type, ht.within.wanting (by simp)⟩
    | some type =>
      refine .resolved_bind fun t ht => ?_
      refine last (Check.finds_valueTypeFor (hvalue e rfl scopes) t) (by simp [Expr.spansIn])
        fun u x hu _ => Check.accepts_bind fun _ => .pure ?_
      have ht : type.resolve.toOption = some t := by rw [ht]; rfl
      rw [Effect.append_nil]
      refine ⟨ht, ?_⟩
      rw [Option.bind_some, ht]
      exact hu.1

/-- The constants in a result whose type is to be inferred are noted with it. -/
theorem Expr.Found.marks_result {e : Expr} {t : Ty} {x : Effect} {span : Span}
    (h : e.Found scopes t x) (result : Ty) (s : Span) :
    (x.append ⟨[], [⟨t, span, e.constants?.getD []⟩]⟩).Marks result s ↔
      Marked (e.slots scopes (some result)) s := by
  have hresult : Effect.Marks ⟨[], [⟨t, span, e.constants?.getD []⟩]⟩ result s ↔
      result = .float ∧ t = .int ∧ s ∈ e.constants?.getD [] := by
    simp [Effect.Marks]
  rw [Effect.marks_append, Effect.marks_of_results h.within.results, h.within.marks, hresult]
  cases hc : e.constants? with
  | none =>
    rw [slots_of_not_constant (by rw [isConstant, hc]; rfl)]
    simp
  | some spans =>
    have hconstant : e.isConstant = true := by rw [isConstant, hc]; rfl
    obtain rfl : t = .int := Option.some.inj (h.type.symm.trans (type?_of_constant hconstant))
    rw [slots_of_constant hconstant, Slot.marked_singleton, Slot.marks, hc]
    simp [not_marked_within hconstant]

/-- **Of a result the result type is wanted**; if that is to be inferred, the result is noted with
what becomes a floating-point number in it. -/
theorem finds_checkResult {value : Option Expr} (span : Span) (hvalue : ∀ e ∈ value, e.Finds) :
    Check.Gives (checkResult f scopes value span) (Expr.spansIn value) fun _ x =>
      x.MatchesFor f.result (Expr.slotsIn scopes · value) ((Stmt.ret value span).results scopes) := by
  obtain ⟨expected, inLoop⟩ := f
  cases value with
  | none =>
    rcases expected with _ | t
    · exact .fail _ _
    · cases t <;> first
        | exact .fail _ _
        | exact .pure Effect.matches_nil.matchesFor
  | some e =>
    have he := hvalue e rfl scopes
    rcases expected with _ | t
    · -- Nothing is marked yet, as it depends on the other results what this one becomes.
      refine (bind (Check.finds_valueType he) (l := e.spans) fun t x ht _ => ?_).weaken
        (by simp [Expr.spansIn]) fun _ _ _ => id
      refine .addResult (fun s hs => ?_) ⟨?_, fun result _ s => ?_⟩
      · cases hc : e.constants? with
        | none =>
          rw [hc] at hs
          cases hs
        | some spans =>
          rw [hc] at hs
          exact (Expr.constant_of_constants? hc).mem_spans s hs
      · simp [Effect.types, Effect.append, ht.within.results, Stmt.results, ht.type]
      · exact ht.marks_result result s
    · -- What is known is wanted at once; only of a function without a result that is an error.
      have hwanted (t : Ty) : Check.Gives (do
          let found ← valueTypeFor e t (checkExpr scopes e)
          checkAccepts t found e.span .result) e.spans fun _ x =>
            x.MatchesFor (some t) (Expr.slotsIn scopes · (some e))
              ((Stmt.ret (some e) span).results scopes) := by
        refine last (Check.finds_valueTypeFor he t) (fun _ => id) fun u x hu _ => ?_
        rw [← bind_pure (checkAccepts t u e.span .result)]
        refine Check.accepts_bind fun _ => .pure ?_
        rw [Effect.append_nil]
        exact hu.1.matchesKnown
      cases t <;> first
        | exact hwanted _
        | exact .fail _ _

theorem finds_checkElse {elseBlock : Option Block}
    (helse : ∀ b ∈ elseBlock, Stmt.AllFind b.statements) :
    Check.Gives (checkElse f scopes elseBlock) (Block.spansIn elseBlock) fun _ x =>
      x.MatchesFor f.result (Block.slotsIn · scopes elseBlock) (Block.resultsIn scopes elseBlock) := by
  cases elseBlock with
  | none => exact .pure Effect.matches_nil.matchesFor
  | some b => exact helse b rfl f scopes.push

theorem finds_checkInit {init : Option Stmt} (hinit : ∀ i ∈ init, i.Finds) :
    Check.Gives (checkInit f scopes init) (Stmt.spansIn init) fun inner x =>
      inner = Stmt.behindIn scopes.push init ∧ x.MatchesFor f.result
        (Stmt.slotsIn · scopes.push init) (Stmt.resultsIn scopes.push init) := by
  cases init with
  | none => exact .pure ⟨rfl, Effect.matches_nil.matchesFor⟩
  | some i => exact (hinit i rfl f scopes.push).mono fun _ x hx => ⟨hx.behind, hx.noted⟩

theorem finds_checkCondition {condition : Option Expr} (hcondition : ∀ c ∈ condition, c.Finds) :
    Check.Gives (checkCondition scopes condition) (Expr.spansIn condition) fun _ x =>
      x.Matches (Expr.slotsIn scopes none condition) := by
  cases condition with
  | none => exact .pure Effect.matches_nil
  | some c => exact finds_checkBool .loop (hcondition c rfl)

theorem finds_checkPost {post : Option Stmt} (hpost : ∀ p ∈ post, p.Finds) :
    Check.Gives (checkPost f scopes post) (Stmt.spansIn post) fun inner x =>
      inner = Stmt.behindIn scopes post ∧ x.MatchesFor f.result
        (Stmt.slotsIn · scopes post) (Stmt.resultsIn scopes post) := by
  cases post with
  | none => exact .pure ⟨rfl, Effect.matches_nil.matchesFor⟩
  | some p =>
    have hcheck : Check.Gives (checkStmt f scopes p) p.spans fun inner x =>
        inner = p.behind scopes ∧ x.MatchesFor f.result (p.slots · scopes) (p.results scopes) :=
      (hpost p rfl f scopes).mono fun _ x hx => ⟨hx.behind, hx.noted⟩
    cases p <;> first
      | exact .fail _ _
      | exact hcheck

end Parts

namespace Stmt

theorem finds_define (name : String) {value : Expr} (span : Span) (hv : value.Finds) :
    (define name value span).Finds := by
  intro f scopes
  rw [checkStmt]
  refine .ite (fun _ => .fail_bind _ _) fun _ => ?_
  refine last (Check.finds_valueType (hv scopes)) (fun s hs => List.mem_cons_of_mem _ hs)
    fun t x ht _ => .pure ?_
  rw [Effect.append_nil]
  refine ⟨?_, (ht.within.wanting (by simp)).matchesFor⟩
  rw [behind, ht.type]
  rfl

theorem finds_var (name : String) (type : Option TypeExpr) {value : Option Expr} (span : Span)
    (hv : ∀ e ∈ value, e.Finds) : (var name type value span).Finds := by
  intro f scopes
  have hspans : (var name type value span).spans = span :: Expr.spansIn value := by
    cases value <;> rfl
  rw [hspans, checkStmt_var]
  refine .ite (fun _ => .fail_bind _ _) fun _ => ?_
  refine last (finds_declaredType type span hv) (fun s hs => List.mem_cons_of_mem _ hs)
    fun t x ht _ => .pure ?_
  rw [Effect.append_nil]
  refine ⟨?_, ht.2.matchesFor.congr (fun wanted => slots_var wanted ..) rfl⟩
  rw [behind, ht.1]
  rfl

theorem finds_assign (target : String) (op : Option BinaryOp) {value : Expr} (span : Span)
    (hv : value.Finds) : (assign target op value span).Finds := by
  intro f scopes
  rw [checkStmt_assign]
  refine .ofExcept_bind fun t ht => ?_
  rw [checkAssigned, bind_assoc]
  refine last (Check.finds_valueTypeFor (hv scopes) t) (fun s hs => List.mem_cons_of_mem _ hs)
    fun u x hu _ => ?_
  -- The type of the variable is wanted whether the value is assigned as it is or added first.
  have hfound : (assign target op value span).Found f scopes scopes x := by
    refine ⟨rfl, hu.1.matchesFor.congr (fun wanted => ?_) rfl⟩
    rw [slots, find?_of_targetType ht]
    rfl
  cases op with
  | none =>
    refine Check.accepts_bind fun _ => .pure ?_
    rwa [Effect.append_nil]
  | some op =>
    rw [bind_assoc]
    refine .ofExcept_bind fun w _ => Check.accepts_bind fun _ => .pure ?_
    rwa [Effect.append_nil]

theorem finds_increment (target : String) (up : Bool) (span : Span) :
    (increment target up span).Finds := by
  intro f scopes
  rw [checkStmt]
  refine .ofExcept_bind fun t _ => .ite (fun _ => .fail_bind _ _) fun _ => .pure ?_
  exact ⟨rfl, Effect.matches_nil.matchesFor⟩

theorem finds_expr {value : Expr} (hv : value.Finds) : (expr value).Finds := by
  intro f scopes
  rw [checkStmt]
  refine .ite (fun _ => .fail_bind _ _) fun _ => ?_
  refine last (hv scopes) (by simp [spans]) fun t x ht _ => .pure ?_
  rw [Effect.append_nil]
  exact ⟨rfl, (ht.within.wanting (by simp)).matchesFor⟩

theorem finds_ret {value : Option Expr} (span : Span) (hv : ∀ e ∈ value, e.Finds) :
    (ret value span).Finds := by
  intro f scopes
  have hspans : (ret value span).spans = span :: Expr.spansIn value := by
    cases value <;> rfl
  rw [hspans, checkStmt_ret]
  refine last (finds_checkResult span hv) (fun s hs => List.mem_cons_of_mem _ hs)
    fun _ x hx _ => .pure ?_
  rw [Effect.append_nil]
  exact ⟨rfl, hx.congr (fun wanted => slots_ret wanted ..) rfl⟩

theorem finds_breakLoop (span : Span) : (breakLoop span).Finds := by
  intro f scopes
  rw [checkStmt]
  exact .ite (fun _ => .pure ⟨rfl, Effect.matches_nil.matchesFor⟩) fun _ => .fail _ _

theorem finds_continueLoop (span : Span) : (continueLoop span).Finds := by
  intro f scopes
  rw [checkStmt]
  exact .ite (fun _ => .pure ⟨rfl, Effect.matches_nil.matchesFor⟩) fun _ => .fail _ _

theorem finds_cond {condition : Expr} {thenStatements : List Stmt} (thenSpan : Span)
    {elseBlock : Option Block} (span : Span) (hc : condition.Finds) (ht : AllFind thenStatements)
    (he : ∀ b ∈ elseBlock, AllFind b.statements) :
    (cond condition (.mk thenStatements thenSpan) elseBlock span).Finds := by
  intro f scopes
  rw [spans_cond, checkStmt_cond]
  refine (bind (finds_checkBool .choice hc) fun _ x hx _ => ?_).weaken
    (fun s => List.mem_cons_of_mem _) fun _ _ _ => id
  refine bind (ht f scopes.push) fun _ y hy _ => ?_
  refine last (finds_checkElse (f := f) he) (fun _ => id) fun _ z hz _ => .pure ⟨rfl, ?_⟩
  rw [Effect.append_nil]
  exact (hx.matchesFor.append (hy.append hz)).congr (fun wanted => slots_cond wanted ..)
    (results_cond ..)

theorem finds_loop {init : Option Stmt} {condition : Option Expr} {post : Option Stmt}
    {statements : List Stmt} (bodySpan span : Span) (hi : ∀ i ∈ init, i.Finds)
    (hc : ∀ c ∈ condition, c.Finds) (hp : ∀ p ∈ post, p.Finds) (hs : AllFind statements) :
    (loop init condition post (.mk statements bodySpan) span).Finds := by
  intro f scopes
  rw [spans_loop, checkStmt_loop]
  refine (bind (finds_checkInit hi) fun inner x hx _ => ?_).weaken
    (fun s => List.mem_cons_of_mem _) fun _ _ _ => id
  obtain ⟨rfl, hx⟩ := hx
  refine bind (finds_checkCondition hc) fun _ y hy _ => ?_
  refine bind (finds_checkPost (f := f) hp) fun inner z hz _ => ?_
  obtain ⟨rfl, hz⟩ := hz
  refine last (hs { f with inLoop := true } _) (fun _ => id) fun _ w hw _ => .pure ⟨rfl, ?_⟩
  -- The checker looks at the last part of the head before the body, which is the order of the text.
  rw [Effect.append_nil]
  exact (hx.append (hy.matchesFor.append (hz.append hw))).congr (fun wanted => slots_loop wanted ..)
    (results_loop ..)

theorem finds_block {statements : List Stmt} (span : Span) (hs : AllFind statements) :
    (block (.mk statements span)).Finds := by
  intro f scopes
  rw [checkStmt]
  refine last (hs f scopes.push) (by simp [spans]) fun _ x hx _ => .pure ⟨rfl, ?_⟩
  rwa [Effect.append_nil]

theorem allFind_nil : AllFind [] := by
  intro f scopes
  rw [checkStmts]
  exact .pure Effect.matches_nil.matchesFor

theorem allFind_cons {s : Stmt} {ss : List Stmt} (hs : s.Finds) (hss : AllFind ss) :
    AllFind (s :: ss) := by
  intro f scopes
  rw [checkStmts]
  refine bind (hs f scopes) fun inner x hx _ => ?_
  -- The scopes that the checker goes on with are those that are told from the program.
  obtain rfl := hx.behind
  exact (hss f _).mono fun _ y hy => hx.noted.append hy

end Stmt

/-- **What is noted of an expression or statement matches the constants in it.** -/
theorem finds : SyntaxCases Expr.Finds (fun es => ∀ e ∈ es, e.Finds) Stmt.Finds Stmt.AllFind where
  literal := Expr.finds_literal
  identifier := Expr.finds_identifier
  binary op _ _ span := Expr.finds_binary op span
  unary op _ span := Expr.finds_unary op span
  call _ _ span := Expr.finds_call span
  selector := Expr.finds_selector
  function params result _ := Expr.finds_function params result
  noArguments := List.forall_mem_nil _
  argument _ _ he hes := List.forall_mem_cons.mpr ⟨he, hes⟩
  define name _ span := Stmt.finds_define name span
  var name type _ span := Stmt.finds_var name type span
  assign target op _ span := Stmt.finds_assign target op span
  increment := Stmt.finds_increment
  expr _ := Stmt.finds_expr
  ret _ span := Stmt.finds_ret span
  breakLoop := Stmt.finds_breakLoop
  continueLoop := Stmt.finds_continueLoop
  cond _ _ thenSpan _ span := Stmt.finds_cond thenSpan span
  loop _ _ _ _ bodySpan span := Stmt.finds_loop bodySpan span
  block _ := Stmt.finds_block
  noStatements := Stmt.allFind_nil
  statement _ _ := Stmt.allFind_cons

end Formula
