import Formula.Proofs.Program.Induction
import Formula.Proofs.Typing.Constant
import Formula.Proofs.Typing.Effects
import Formula.Proofs.Typing.Forms
import Formula.Proofs.Typing.Proper

/-!
# The checker follows the typing rules on expressions

What the checker accepts is well typed, if in the end just those places are marked that it noted. An
untyped constant is an integer for the checker, and becomes a floating-point number where it is used
as one.

## Main definitions

* `Expr.Checked`, `Expr.Used`: what is known of an expression that was checked
* `Stmt.Checked`: what is known of a statement that was checked
* `Effect.Final`: what the checker noted is all that there is in the end
* `Expr.Follows`, `Stmt.Follows`: the checker follows the typing rules

## Main results

* `Expr.follows_binary`, `Expr.follows_call`, `Expr.follows_function`: the checker follows the typing
  rules on what is put together from parts on which it does
-/

namespace Formula

/-- **What is known of an expression that was checked** in given scopes, found to be of the type `t`,
with the effect `x`. -/
structure Expr.Checked (scopes : Scoped Ty) (e : Expr) (t : Ty) (x : Effect) : Prop where
  results : x.results = []
  proper : t.isProper = true
  typed : ∀ floats result, x.Agrees result floats e.spans → e.Typed floats scopes t
  constant : ∀ spans, e.constants? = some spans → x = {} ∧ t = .int

/-- What is known of an expression that is used as a value of the type `t`. -/
structure Expr.Used (scopes : Scoped Ty) (e : Expr) (t : Ty) (x : Effect) : Prop where
  results : x.results = []
  proper : t.isProper = true
  isValue : t.isValue = true
  typed : ∀ floats result, x.Agrees result floats e.spans → e.Typed floats scopes t

/-- What is known of arguments that were checked against parameters. -/
structure Expr.AllChecked (scopes : Scoped Ty) (variadic : Option Ty) (params : List Ty)
    (arguments : List Expr) (x : Effect) : Prop where
  results : x.results = []
  typed : params.length ≤ arguments.length → (variadic = none → arguments.length ≤ params.length) →
    ∀ floats result, x.Agrees result floats (Expr.spansOfAll arguments) →
      Expr.ArgumentsTyped floats scopes variadic params arguments

/-- The results that are noted are values, and there are none if the result type is expected. -/
def Effect.Fits (x : Effect) (expected : Option Ty) : Prop :=
  ∀ r ∈ x.results, expected = none ∧ r.type.isProper = true ∧ r.type.isValue = true

/-- **What the checker noted is all that there is in the end**: the result type of the function is
the expected one, all results suit it, and of the given spans just those are marked that were
noted. -/
structure Effect.Final (x : Effect) (expected : Option Ty) (result : Ty)
    (floats spans : List Span) : Prop where
  expects : ∀ t, expected = some t → result = t
  suits : x.Suits result
  agrees : x.Agrees result floats spans

namespace Effect

variable {x y : Effect} {expected : Option Ty} {result : Ty} {floats spans others : List Span}

theorem fits_of_results (h : x.results = []) : x.Fits expected := by
  intro r hr
  rw [h] at hr
  cases hr

theorem Fits.append (hx : x.Fits expected) (hy : y.Fits expected) :
    (x.append y).Fits expected := by
  intro r hr
  rcases List.mem_append.mp hr with hr | hr
  · exact hy r hr
  · exact hx r hr

theorem Fits.results {t : Ty} (h : x.Fits (some t)) : x.results = [] :=
  List.eq_nil_iff_forall_not_mem.mpr fun r hr => nomatch (h r hr).1

theorem Final.mono (h : x.Final expected result floats spans) (hsub : ∀ s ∈ others, s ∈ spans) :
    x.Final expected result floats others :=
  ⟨h.expects, h.suits, h.agrees.mono hsub⟩

/-- What is final is so for two parts with different spans. -/
theorem Final.split (h : (x.append y).Final expected result floats (spans ++ others))
    (hx : x.Within spans) (hy : y.Within others) (hnodup : (spans ++ others).Nodup) :
    x.Final expected result floats spans ∧ y.Final expected result floats others := by
  obtain ⟨hsx, hsy⟩ := suits_append.mp h.suits
  obtain ⟨hax, hay⟩ := h.agrees.split hx hy hnodup
  exact ⟨⟨h.expects, hsx, hax⟩, ⟨h.expects, hsy, hay⟩⟩

end Effect

/-- **What is known of a statement that was checked**, and leads from `scopes` to `scopes'` with the
effect `x`. -/
structure Stmt.Checked (f : Surroundings) (scopes : Scoped Ty) (s : Stmt) (scopes' : Scoped Ty)
    (x : Effect) : Prop where
  proper : ProperScopes scopes'
  same : s.declares = false → scopes' = scopes
  fits : x.Fits f.result
  typed : ∀ floats result, x.Final f.result result floats s.spans →
    s.Typed floats result f.inLoop scopes scopes'

/-- What is known of statements that were checked. -/
structure Stmt.AllChecked (f : Surroundings) (scopes : Scoped Ty) (statements : List Stmt)
    (x : Effect) : Prop where
  fits : x.Fits f.result
  typed : ∀ floats result, x.Final f.result result floats (Stmt.spansOfAll statements) →
    Stmt.AllTyped floats result f.inLoop scopes statements

namespace Check

open Gives

variable {scopes : Scoped Ty}

/-! ## Values -/

section Values

variable {e : Expr} {type : Check Ty} (he : Gives type e.spans (e.Checked scopes))

include he

/-- A value is of the type that was found. -/
theorem gives_valueType :
    Gives (valueType e type) e.spans fun t x => e.Checked scopes t x ∧ e.Used scopes t x := by
  refine last he (fun _ => id) fun t x ht _ => ?_
  refine .ofExcept fun u hu => ?_
  have hut : u = t ∧ t.isValue = true := by
    cases t <;> cases hu <;> exact ⟨rfl, rfl⟩
  obtain ⟨rfl, hvalue⟩ := hut
  rw [Effect.append_nil]
  exact ⟨ht, ht.results, ht.proper, hvalue, ht.typed⟩

/-- An untyped constant becomes a floating-point number where that is wanted. -/
theorem gives_valueTypeFor (hnodup : e.spans.Nodup) (wanted : Ty) :
    Gives (valueTypeFor e wanted type) e.spans fun t x =>
      e.Used scopes t x ∧ (wanted ≠ .float → e.Checked scopes t x) := by
  unfold valueTypeFor
  split
  · rename_i spans hspans
    have hconstant := Expr.constant_of_constants? hspans
    refine (bind he (l := e.spans) fun t x ht _ => ?_).weaken (by simp) fun _ _ _ => id
    obtain ⟨rfl, -⟩ := ht.constant spans hspans
    refine .mark_bind hconstant.mem_spans (.pure ⟨rfl, ?_, fun h => absurd rfl h⟩)
    rw [Effect.nil_append]
    refine ⟨rfl, rfl, rfl, fun floats result hagrees => hconstant.typed_float hnodup fun s hs => ?_⟩
    rw [hagrees s hs]
    simp [Effect.Marks]
  · exact (gives_valueType he).mono fun t x ht => ⟨ht.2, fun _ => ht.1⟩

end Values

/-- **Two operands** are typed whichever of them is looked at first. -/
theorem gives_operandTypes {left right : Expr} {leftType rightType : Check Ty}
    (hl : Gives leftType left.spans (left.Checked scopes))
    (hr : Gives rightType right.spans (right.Checked scopes))
    (hnodup : (left.spans ++ right.spans).Nodup) :
    Gives (operandTypes left right leftType rightType) (left.spans ++ right.spans) fun p x =>
      x.results = [] ∧ (left.isConstant = true → right.isConstant = true →
        x = {} ∧ p = (.int, .int)) ∧
      ∀ floats result, x.Agrees result floats (left.spans ++ right.spans) →
        left.Typed floats scopes p.1 ∧ right.Typed floats scopes p.2 := by
  obtain ⟨hnl, hnr, -⟩ := List.nodup_append.mp hnodup
  have hnodup' : (right.spans ++ left.spans).Nodup := List.perm_append_comm.nodup_iff.mp hnodup
  unfold operandTypes
  -- a constant on the left takes the type of the right operand, which is looked at first
  split
  · rename_i hconstant
    rw [Bool.and_eq_true, Bool.not_eq_true'] at hconstant
    refine (bind (gives_valueType hr) (l := left.spans) fun r x hr hx => ?_).weaken
      (fun s hs => List.mem_append.mpr (List.mem_append.mp hs).symm) fun _ _ _ => id
    refine last (gives_valueTypeFor hl hnl r) (fun _ => id) fun l y hl hy => ?_
    refine .pure ?_
    rw [Effect.append_nil]
    refine ⟨by simp [Effect.append, hr.2.results, hl.1.results], ?_, fun floats result h => ?_⟩
    · intro _ hright
      simp [hright] at hconstant
    · obtain ⟨hx, hy⟩ := Effect.Agrees.split
        (h.mono fun s hs => List.mem_append.mpr (List.mem_append.mp hs).symm) hx hy hnodup'
      exact ⟨hl.1.typed floats result hy, hr.2.typed floats result hx⟩
  · refine bind (gives_valueType hl) fun l x hl hx => ?_
    refine last (gives_valueTypeFor hr hnr l) (fun _ => id) fun r y hr hy => ?_
    refine .pure ?_
    rw [Effect.append_nil]
    refine ⟨by simp [Effect.append, hl.2.results, hr.1.results], ?_, fun floats result h => ?_⟩
    · intro hleft hright
      obtain ⟨_, hleft⟩ := Option.isSome_iff_exists.mp hleft
      obtain ⟨_, hright⟩ := Option.isSome_iff_exists.mp hright
      obtain ⟨rfl, rfl⟩ := hl.1.constant _ hleft
      obtain ⟨rfl, rfl⟩ := (hr.2 fun h => by cases h).constant _ hright
      exact ⟨Effect.append_nil, rfl⟩
    · obtain ⟨hx, hy⟩ := h.split hx hy hnodup
      exact ⟨hl.2.typed floats result hx, hr.1.typed floats result hy⟩

/-- What comes behind a value has to be looked at only if the value is accepted. -/
theorem accepts_bind {α : Type} {wanted found : Ty} {span : Span} {place : ValuePlace}
    {f : Unit → Check α} {spans : List Span} {Q : α → Effect → Prop}
    (h : wanted.accepts found = true → Gives (f ()) spans Q) :
    Gives (checkAccepts wanted found span place >>= f) spans Q := by
  unfold checkAccepts
  split
  · exact h ‹_›
  · exact .fail_bind _ _

end Check

/-! ## Expressions -/

open Check.Gives

/-- The checker follows the typing rules on an expression. -/
def Expr.Follows (e : Expr) : Prop :=
  ∀ scopes, e.spans.Nodup → e.SimplePosts → ProperScopes scopes →
    Check.Gives (checkExpr scopes e) e.spans (e.Checked scopes)

/-- The checker follows the typing rules on a statement. -/
def Stmt.Follows (s : Stmt) : Prop :=
  ∀ f scopes, s.spans.Nodup → s.SimplePosts → ProperScopes scopes →
    Check.Gives (checkStmt f scopes s) s.spans (s.Checked f scopes)

/-- The checker follows the typing rules on statements. -/
def Stmt.AllFollow (ss : List Stmt) : Prop :=
  ∀ f scopes, (Stmt.spansOfAll ss).Nodup → Stmt.AllSimplePosts ss → ProperScopes scopes →
    Check.Gives (checkStmts f scopes ss) (Stmt.spansOfAll ss) fun _ x =>
      Stmt.AllChecked f scopes ss x

namespace Expr

theorem operands_of_constants? {op : BinaryOp} {left right : Expr} {span : Span}
    {spans : List Span} (h : (binary op left right span).constants? = some spans) :
    left.isConstant = true ∧ right.isConstant = true ∧ op.isArithmetic = true := by
  cases op <;> cases hl : left.constants? <;> cases hr : right.constants? <;>
    simp [constants?, isConstant, BinaryOp.isArithmetic, hl, hr] at h ⊢

theorem follows_literal (value : Scalar) (span : Span) : (literal value span).Follows := by
  intro scopes _ _ _
  rw [checkExpr]
  refine .pure ⟨rfl, by cases value <;> rfl, fun floats result h => ?_, fun spans h => ?_⟩
  · rw [← computedAt_of_notMem (Effect.agrees_nil.mp h span List.mem_cons_self)
      (Ty.ofScalar value.type)]
    exact .literal
  · cases value <;> first | exact ⟨rfl, rfl⟩ | cases h

theorem follows_identifier (name : String) (span : Span) : (identifier name span).Follows := by
  intro scopes _ _ hscopes
  rw [checkExpr]
  split
  · rename_i t ht
    exact .pure ⟨rfl, hscopes name t ht, fun _ _ _ => .identifier ht, nofun⟩
  · exact .fail _ _

theorem follows_binary (op : BinaryOp) {left right : Expr} (span : Span) (hl : left.Follows)
    (hr : right.Follows) : (binary op left right span).Follows := by
  intro scopes hnodup ⟨hsl, hsr⟩ hscopes
  have hparts := (List.nodup_cons.mp hnodup).2
  obtain ⟨hnl, hnr, -⟩ := List.nodup_append.mp hparts
  rw [checkExpr]
  refine last (Check.gives_operandTypes (hl scopes hnl hsl hscopes) (hr scopes hnr hsr hscopes)
    hparts) (fun s hs => List.mem_cons_of_mem _ hs) fun p x hx hwithin => ?_
  obtain ⟨hresults, hconstant, htyped⟩ := hx
  refine .ofExcept fun t ht => ?_
  rw [Effect.append_nil]
  refine ⟨hresults, isProper_of_operationType ht, fun floats result h => ?_, fun spans h => ?_⟩
  · obtain ⟨hspan, h⟩ := h.parts hwithin hnodup
    rw [← computedAt_of_notMem hspan t]
    exact .binary (htyped floats result h).1 (htyped floats result h).2 ht
  · obtain ⟨hleft, hright, hop⟩ := operands_of_constants? h
    obtain ⟨rfl, rfl⟩ := hconstant hleft hright
    refine ⟨rfl, ?_⟩
    cases op <;> first | cases hop; done | (cases ht; rfl)

theorem follows_unary (op : UnaryOp) {operand : Expr} (span : Span) (ho : operand.Follows) :
    (unary op operand span).Follows := by
  intro scopes hnodup hsimple hscopes
  have hparts := (List.nodup_cons.mp hnodup).2
  rw [checkExpr]
  refine last (Check.gives_valueType (ho scopes hparts hsimple hscopes))
    (fun s hs => List.mem_cons_of_mem _ hs) fun t x ht hwithin => ?_
  refine .ofExcept fun u hu => ?_
  rw [Effect.append_nil]
  refine ⟨ht.1.results, isProper_of_unaryType hu, fun floats result h => ?_, fun spans h => ?_⟩
  · exact .unary (ht.1.typed floats result (h.parts hwithin hnodup).2) hu
  · cases op with
    | neg =>
      obtain ⟨rfl, rfl⟩ := ht.1.constant spans h
      cases hu
      exact ⟨rfl, rfl⟩
    | not => cases h

theorem follows_selector (target member : String) (span : Span) :
    (selector target member span).Follows := by
  intro scopes _ _ _
  rw [checkExpr]
  refine .ofExcept fun t ht => ?_
  unfold selectorType at ht
  split at ht
  · cases ht
  · rename_i path hpath
    split at ht
    · rename_i n hn
      cases ht
      exact ⟨rfl, n.isProper_signature, fun _ _ _ => .selector hpath hn, nofun⟩
    · cases ht
  · cases ht

/-- Arguments are typed one after the other. -/
theorem gives_checkArguments {scopes : Scoped Ty} (hscopes : ProperScopes scopes)
    (variadic : Option Ty) {arguments : List Expr} (h : ∀ e ∈ arguments, e.Follows)
    (params : List Ty) (hnodup : (spansOfAll arguments).Nodup)
    (hsimple : AllSimplePosts arguments) :
    Check.Gives (checkArguments scopes variadic params arguments) (spansOfAll arguments)
      fun _ x => AllChecked scopes variadic params arguments x := by
  induction arguments generalizing params with
  | nil =>
    rw [checkArguments]
    refine .pure ⟨rfl, fun hcount _ _ _ _ => ?_⟩
    rw [List.eq_nil_of_length_eq_zero (Nat.le_zero.mp hcount)]
    exact .nil
  | cons a arguments ih =>
    obtain ⟨ha, harguments⟩ := List.forall_mem_cons.mp h
    obtain ⟨hsa, hss⟩ := hsimple
    obtain ⟨hna, hns, -⟩ := List.nodup_append.mp hnodup
    rw [checkArguments]
    refine bind (Check.gives_valueTypeFor (ha scopes hna hsa hscopes) hna _) fun t x ht hx => ?_
    refine Check.accepts_bind fun haccepts => ?_
    refine (ih harguments params.tail hns hss).weaken (fun _ => id) fun _ y hy htail => ?_
    refine ⟨by simp [Effect.append, ht.1.results, htail.results], ?_⟩
    intro hcount hlimit floats result hagrees
    obtain ⟨hax, hay⟩ := hagrees.split hx hy hnodup
    have ha := ht.1.typed floats result hax
    cases params with
    | cons p params =>
      refine .param ha haccepts (htail.typed (Nat.le_of_succ_le_succ hcount) (fun hv => ?_)
        floats result hay)
      exact Nat.le_of_succ_le_succ (hlimit hv)
    | nil =>
      cases variadic with
      | none => cases hlimit rfl
      | some p =>
        refine .further ha haccepts (htail.typed (Nat.zero_le _) (fun hnone => ?_) floats result hay)
        cases hnone

theorem follows_call {function : Expr} {arguments : List Expr} (span : Span)
    (hf : function.Follows) (ha : ∀ e ∈ arguments, e.Follows) :
    (call function arguments span).Follows := by
  intro scopes hnodup ⟨hsf, hsa⟩ hscopes
  have hparts := (List.nodup_cons.mp hnodup).2
  obtain ⟨hnf, hna, -⟩ := List.nodup_append.mp hparts
  rw [checkExpr]
  refine (bind (hf scopes hnf hsf hscopes) (l := spansOfAll arguments)
    fun t x ht hx => ?_).weaken (fun _ => List.mem_cons_of_mem _) fun _ _ _ => id
  -- a conversion, a call of a function, or something that can not be called
  split
  · rename_i b
    split
    · rename_i a
      rw [spansOfAll, spansOfAll, List.append_nil] at hna
      refine last (Check.gives_valueType (ha a List.mem_cons_self scopes hna hsa.1 hscopes))
        (by simp [spansOfAll]) fun u y hu hy => ?_
      refine .ofExcept fun w hw => ?_
      rw [Effect.append_nil]
      refine ⟨by simp [Effect.append, ht.results, hu.1.results], isProper_of_builtinResult hw,
        fun floats result h => ?_, fun _ h => by cases h⟩
      have hy : y.Within (spansOfAll [a]) := hy.weaken (by simp [spansOfAll])
      obtain ⟨hfx, hay⟩ := (h.parts (hx.append hy) hnodup).2.split hx hy hparts
      refine .builtin (ht.typed floats result hfx) (hu.1.typed floats result ?_) hw
      exact hay.mono (by simp [spansOfAll])
    · exact .fail _ _
  · rename_i params variadic result
    unfold checkCount
    split
    · exact .fail_bind _ _
    split
    · exact .fail_bind _ _
    rename_i hfew hmany
    rw [pure_bind]
    refine last (gives_checkArguments hscopes variadic ha params hna hsa) (fun _ => id)
      fun _ y hall hy => .pure ?_
    rw [Effect.append_nil]
    refine ⟨by simp [Effect.append, ht.results, hall.results], ht.proper, ?_, fun _ h => by cases h⟩
    intro floats r h
    obtain ⟨hfx, hay⟩ := (h.parts (hx.append hy) hnodup).2.split hx hy hparts
    refine .call (ht.typed floats r hfx) (hall.typed (Nat.le_of_not_lt hfew) ?_ floats r hay)
    intro hvariadic
    exact Nat.le_of_not_lt fun hlt => hmany ⟨hlt, by rw [hvariadic]; rfl⟩
  · exact .fail _ _

/-- The body of a function fits its result type, and does not come to an end without a result. -/
theorem follows_function (params : List Parameter) (result : Option TypeExpr)
    {statements : List Stmt} (bodySpan span : Span) (hs : Stmt.AllFollow statements) :
    (function params result (.mk statements bodySpan) span).Follows := by
  intro scopes hnodup hsimple hscopes
  have hparts := (List.nodup_cons.mp hnodup).2
  obtain ⟨-, hns, -⟩ := List.nodup_append.mp hparts
  have hsub (s : Span) (h : s ∈ Stmt.spansOfAll statements) :
      s ∈ (function params result (.mk statements bodySpan) span).spans :=
    List.mem_cons_of_mem _ (List.mem_append_right _ h)
  rw [checkExpr]
  refine .resolved_bind fun t ht => .resolved_bind fun r hr => .ofExcept_bind fun inner hinner => ?_
  obtain ⟨ps, r', hps, hr', rfl⟩ := functionType_eq_ok ht
  cases hr.symm.trans hr'
  have hproper := properScopes_of_declareParams hscopes.push hinner
  refine last (hs ⟨some r, false⟩ inner hns hsimple hproper) hsub fun _ x hx hwithin => ?_
  unfold checkEnd
  split
  · exact .fail_bind _ _
  rename_i hend
  refine .pure ?_
  rw [Effect.append_nil]
  have hresults := hx.fits.results
  refine ⟨hresults, by rw [Ty.isProper]; exact isProper_of_resultType hr, fun floats result h => ?_, nofun⟩
  refine .function hps hr hinner (hx.typed floats r ⟨fun _ => by rintro ⟨⟩; rfl, ?_, ?_⟩) ?_
  · intro r hr
    rw [hresults] at hr
    cases hr
  · -- Without results, it is all the same which type the function around has in the end.
    intro s hs
    rw [h s (hsub s hs)]
    simp [Effect.Marks, hresults]
  · rcases Classical.em (r = .void) with hvoid | hvoid
    · exact .inl hvoid
    · refine .inr ?_
      simpa [hvoid, Block.terminates] using hend

end Expr

end Formula
