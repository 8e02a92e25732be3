import Formula.Proofs.Typing.Derivation

/-!
# The checker follows the typing rules on statements

A statement is taken apart into expressions, blocks and smaller statements, of which each notes
places of its own.

## Main results

* `follows`: the checker follows the typing rules on all expressions and statements
-/

namespace Formula

open Check.Gives

variable {f : Surroundings} {scopes : Scoped Ty}

/-! ## Parts of statements -/

theorem gives_checkBool (place : ConditionPlace) {e : Expr} (he : e.Follows)
    (hnodup : e.spans.Nodup) (hsimple : e.SimplePosts) (hscopes : ProperScopes scopes) :
    Check.Gives (checkBool scopes place e) e.spans fun _ x => x.Fits f.result ∧
      ∀ floats result, x.Final f.result result floats e.spans → e.Typed floats scopes .bool := by
  refine last (Check.gives_valueType (he scopes hnodup hsimple hscopes)) (fun _ => id)
    fun t x ht _ => ?_
  refine .ite (fun _ => .fail _ _) fun hbool => .pure ?_
  rw [Effect.append_nil, ← Decidable.not_not.mp hbool]
  exact ⟨Effect.fits_of_results ht.2.results, fun floats result h =>
    ht.2.typed floats result h.agrees⟩

/-- A variable gets a type by its declaration, for whatever effect is final. -/
theorem gives_declaredType (type : Option TypeExpr) {value : Option Expr} (span : Span)
    (hvalue : ∀ e ∈ value, e.Follows) (hnodup : (Expr.spansIn value).Nodup)
    (hsimple : ∀ e ∈ value, e.SimplePosts) (hscopes : ProperScopes scopes) :
    Check.Gives (declaredType scopes type value span) (Expr.spansIn value) fun t x =>
      x.results = [] ∧ t.isProper = true ∧ ∀ floats result,
        x.Agrees result floats (Expr.spansIn value) → Expr.Declared floats scopes type value t := by
  cases value with
  | none =>
    cases type with
    | none => exact .fail _ _
    | some type =>
      exact .resolved fun t ht => ⟨rfl, TypeExpr.isProper_of_resolve ht, fun _ _ _ => .type ht⟩
  | some e =>
    have he := hvalue e rfl scopes hnodup (hsimple e rfl) hscopes
    cases type with
    | none =>
      exact (Check.gives_valueType he).mono fun t x ht =>
        ⟨ht.2.results, ht.2.proper, fun floats result h =>
          .value (ht.2.typed floats result h) ht.2.isValue⟩
    | some type =>
      refine .resolved_bind fun t ht => ?_
      refine last (Check.gives_valueTypeFor he hnodup t) (by simp [Expr.spansIn]) fun u x hu _ => ?_
      refine Check.accepts_bind fun haccepts => .pure ?_
      -- a written type takes only what is of that type
      have hproper := TypeExpr.isProper_of_resolve ht
      obtain rfl := Ty.eq_of_accepts hproper haccepts
      rw [Effect.append_nil]
      exact ⟨hu.1.results, hproper, fun floats result h => .both ht (hu.1.typed floats result h)⟩

theorem gives_checkElse {elseBlock : Option Block}
    (helse : ∀ b ∈ elseBlock, Stmt.AllFollow b.statements)
    (hnodup : (Block.spansIn elseBlock).Nodup)
    (hsimple : ∀ b ∈ elseBlock, Stmt.AllSimplePosts b.statements) (hscopes : ProperScopes scopes) :
    Check.Gives (checkElse f scopes elseBlock) (Block.spansIn elseBlock) fun _ x =>
      x.Fits f.result ∧ ∀ floats result,
        x.Final f.result result floats (Block.spansIn elseBlock) → ∀ b ∈ elseBlock,
          Stmt.AllTyped floats result f.inLoop scopes.push b.statements := by
  cases elseBlock with
  | none => exact .pure ⟨Effect.fits_of_results rfl, fun _ _ _ => nofun⟩
  | some b =>
    refine (helse b rfl f scopes.push hnodup (hsimple b rfl) hscopes.push).mono fun _ x hx => ?_
    refine ⟨hx.fits, fun floats result h b' hb' => ?_⟩
    cases hb'
    exact hx.typed floats result h

/-- The type of a result was noted together with its constants, which become floating-point numbers
if the result type is that in the end. -/
theorem Expr.Checked.typed_result {e : Expr} {t result : Ty} {x : Effect} {floats : List Span}
    {span : Span} (h : e.Checked scopes t x) (hnodup : e.spans.Nodup)
    (hsuits : (x.append ⟨[], [⟨t, span, e.constants?.getD []⟩]⟩).Suits result)
    (hagrees : (x.append ⟨[], [⟨t, span, e.constants?.getD []⟩]⟩).Agrees result floats e.spans) :
    e.Typed floats scopes result ∧ result.isProper = true := by
  have hmarks (s : Span) : (x.append ⟨[], [⟨t, span, e.constants?.getD []⟩]⟩).Marks result s ↔
      s ∈ x.marks ∨ result = .float ∧ t = .int ∧ s ∈ e.constants?.getD [] := by
    simp [Effect.Marks, Effect.append, h.results]
  have hkind := hsuits ⟨t, span, e.constants?.getD []⟩ (List.mem_append_left _ List.mem_cons_self)
  -- the type is the result type already, or the constants in it become floating-point numbers
  rcases hkind with rfl | ⟨rfl, rfl, hconstants⟩
  · refine ⟨h.typed floats t fun s hs => ?_, h.proper⟩
    rw [hagrees s hs, hmarks, Effect.Marks, h.results]
    simp +contextual
  · cases hc : e.constants? with
    | none =>
      rw [hc] at hconstants
      cases hconstants rfl
    | some spans =>
      obtain ⟨rfl, -⟩ := h.constant spans hc
      refine ⟨(Expr.constant_of_constants? hc).typed_float hnodup fun s hs => ?_, rfl⟩
      rw [hagrees s hs, hmarks, hc]
      simp

/-- What is returned has the result type, or the result type is inferred from it. -/
theorem gives_checkResult {value : Option Expr} (span : Span) (hvalue : ∀ e ∈ value, e.Follows)
    (hnodup : (Expr.spansIn value).Nodup) (hsimple : ∀ e ∈ value, e.SimplePosts)
    (hscopes : ProperScopes scopes) :
    Check.Gives (checkResult f scopes value span) (Expr.spansIn value) fun _ x =>
      x.Fits f.result ∧ ∀ floats result,
        x.Final f.result result floats (Expr.spansIn value) →
          (Stmt.ret value span).Typed floats result f.inLoop scopes scopes := by
  obtain ⟨expected, inLoop⟩ := f
  cases value with
  | none =>
    -- Without a value, only a function without a result is left.
    rcases expected with _ | t
    · exact .fail _ _
    · cases t <;> first
        | exact .fail _ _
        | exact .pure ⟨Effect.fits_of_results rfl, fun _ _ h => by
            rw [h.expects _ rfl]
            exact .retVoid⟩
  | some e =>
    have he := hvalue e rfl scopes hnodup (hsimple e rfl) hscopes
    rcases expected with _ | t
    · -- the type of the result is to be inferred, so it is noted with its constants
      refine (bind (Check.gives_valueType he) (l := e.spans) fun t x ht hx => ?_).weaken
        (by simp [Expr.spansIn]) fun _ _ _ => id
      refine .addResult (fun s hs => ?_) ⟨?_, fun floats result h => ?_⟩
      · cases hc : e.constants? with
        | none =>
          rw [hc] at hs
          cases hs
        | some spans =>
          rw [hc] at hs
          exact (Expr.constant_of_constants? hc).mem_spans s hs
      · refine .append (Effect.fits_of_results ht.2.results) fun r hr => ?_
        rw [List.mem_singleton.mp hr]
        exact ⟨rfl, ht.2.proper, ht.2.isValue⟩
      · have hresult := ht.1.typed_result hnodup h.suits h.agrees
        exact .ret hresult.1 (Ty.accepts_self hresult.2)
    · -- the type of the result is known, so that it is wanted of the value at once
      have hwanted (t : Ty) : Check.Gives (do
          let found ← valueTypeFor e t (checkExpr scopes e)
          checkAccepts t found e.span .result) e.spans fun _ x => x.Fits (some t) ∧
            ∀ floats result, x.Final (some t) result floats e.spans →
              (Stmt.ret (some e) span).Typed floats result inLoop scopes scopes := by
        refine last (Check.gives_valueTypeFor he hnodup t) (fun _ => id) fun u x hu _ => ?_
        rw [← bind_pure (checkAccepts t u e.span .result)]
        refine Check.accepts_bind fun haccepts => .pure ?_
        rw [Effect.append_nil]
        refine ⟨Effect.fits_of_results hu.1.results, fun floats result h => ?_⟩
        rw [h.expects t rfl]
        exact .ret (hu.1.typed floats result h.agrees) haccepts
      cases t <;> first
        | exact hwanted _
        | exact .fail _ _

/-! ## Loops -/

theorem gives_checkInit {init : Option Stmt} (hinit : ∀ i ∈ init, i.Follows)
    (hnodup : (Stmt.spansIn init).Nodup) (hsimple : ∀ i ∈ init, i.SimplePosts)
    (hscopes : ProperScopes scopes) :
    Check.Gives (checkInit f scopes init) (Stmt.spansIn init) fun inner x =>
      ProperScopes inner ∧ (init = none → inner = scopes.push) ∧ x.Fits f.result ∧
        ∀ floats result, x.Final f.result result floats (Stmt.spansIn init) → ∀ i ∈ init,
          i.Typed floats result f.inLoop scopes.push inner := by
  cases init with
  | none => exact .pure ⟨hscopes.push, fun _ => rfl, Effect.fits_of_results rfl, fun _ _ _ => nofun⟩
  | some i =>
    refine (hinit i rfl f scopes.push hnodup (hsimple i rfl) hscopes.push).mono fun inner x hx => ?_
    refine ⟨hx.proper, nofun, hx.fits, fun floats result h i' hi' => ?_⟩
    cases hi'
    exact hx.typed floats result h

theorem gives_checkCondition {condition : Option Expr} (hcondition : ∀ c ∈ condition, c.Follows)
    (hnodup : (Expr.spansIn condition).Nodup) (hsimple : ∀ c ∈ condition, c.SimplePosts)
    (hscopes : ProperScopes scopes) :
    Check.Gives (checkCondition scopes condition) (Expr.spansIn condition) fun _ x =>
      x.Fits f.result ∧ ∀ floats result,
        x.Final f.result result floats (Expr.spansIn condition) → ∀ c ∈ condition,
          c.Typed floats scopes .bool := by
  cases condition with
  | none => exact .pure ⟨Effect.fits_of_results rfl, fun _ _ _ => nofun⟩
  | some c =>
    refine (gives_checkBool .loop (hcondition c rfl) hnodup (hsimple c rfl) hscopes).mono
      fun _ x hx => ⟨hx.1, fun floats result h c' hc' => ?_⟩
    cases hc'
    exact hx.2 floats result h

/-- What is done after the rounds of a loop leaves the scopes as they are. -/
theorem gives_checkPost {post : Option Stmt} (hpost : ∀ p ∈ post, p.Follows)
    (hnodup : (Stmt.spansIn post).Nodup)
    (hsimple : ∀ p ∈ post, p.isSimple = true ∧ p.SimplePosts) (hscopes : ProperScopes scopes) :
    Check.Gives (checkPost f scopes post) (Stmt.spansIn post) fun inner x =>
      inner = scopes ∧ (∀ p ∈ post, p.declares = false) ∧ x.Fits f.result ∧ ∀ floats result,
        x.Final f.result result floats (Stmt.spansIn post) → ∀ p ∈ post,
          p.Typed floats result f.inLoop scopes scopes := by
  cases post with
  | none => exact .pure ⟨rfl, nofun, Effect.fits_of_results rfl, fun _ _ _ => nofun⟩
  | some p =>
    obtain ⟨hp, hsimple⟩ := hsimple p rfl
    -- statements that declare are refused, and others keep the scopes
    have hcheck (h : p.declares = false) :
        Check.Gives (checkStmt f scopes p) p.spans fun inner x =>
          inner = scopes ∧ (∀ p' ∈ some p, p'.declares = false) ∧ x.Fits f.result ∧
            ∀ floats result, x.Final f.result result floats p.spans → ∀ p' ∈ some p,
              p'.Typed floats result f.inLoop scopes scopes := by
      refine (hpost p rfl f scopes hnodup hsimple hscopes).mono fun inner x hx => ?_
      obtain rfl := hx.same h
      refine ⟨rfl, fun p' hp' => ?_, hx.fits, fun floats result hfinal p' hp' => ?_⟩
      · cases hp'
        exact h
      · cases hp'
        exact hx.typed floats result hfinal
    cases p <;> first
      | exact .fail _ _
      | exact hcheck rfl
      | cases hp

/-! ## Statements -/

namespace Stmt

theorem follows_define (name : String) {value : Expr} (span : Span) (hv : value.Follows) :
    (define name value span).Follows := by
  intro f scopes hnodup hsimple hscopes
  have hparts := (List.nodup_cons.mp hnodup).2
  rw [checkStmt]
  refine .ite (fun _ => .fail_bind _ _) fun _ => ?_
  refine last (Check.gives_valueType (hv scopes hparts hsimple hscopes))
    (fun s hs => List.mem_cons_of_mem _ hs) fun t x ht hx => .pure ?_
  rw [Effect.append_nil]
  refine ⟨hscopes.declare name ht.2.proper, fun h => ?_, Effect.fits_of_results ht.2.results, ?_⟩
  · cases h
  intro floats result h
  exact .define (ht.2.typed floats result (h.agrees.parts hx hnodup).2) ht.2.isValue

theorem follows_var (name : String) (type : Option TypeExpr) {value : Option Expr} (span : Span)
    (hv : ∀ e ∈ value, e.Follows) : (var name type value span).Follows := by
  intro f scopes hnodup hsimple hscopes
  have hspans : (var name type value span).spans = span :: Expr.spansIn value := by
    cases value <;> rfl
  rw [hspans] at hnodup ⊢
  have hsimple : ∀ e ∈ value, e.SimplePosts := by
    rintro e ⟨⟩
    exact hsimple
  rw [checkStmt_var]
  refine .ite (fun _ => .fail_bind _ _) fun _ => ?_
  refine last (gives_declaredType type span hv (List.nodup_cons.mp hnodup).2 hsimple hscopes)
    (fun s hs => List.mem_cons_of_mem _ hs) fun t x ht hx => .pure ?_
  rw [Effect.append_nil]
  refine ⟨hscopes.declare name ht.2.1, nofun, Effect.fits_of_results ht.1, ?_⟩
  intro floats result h
  rw [hspans] at h
  exact .var (ht.2.2 floats result (h.agrees.parts hx hnodup).2)

/-- A variable in scope keeps its type. -/
theorem find?_of_targetType {name : String} {span : Span} {t : Ty}
    (h : targetType scopes name span = .ok t) : scopes.find? name = some t := by
  unfold targetType at h
  split at h
  · cases h
  · rename_i u hu
    split at h <;> cases h
    exact hu

theorem follows_assign (target : String) (op : Option BinaryOp) {value : Expr} (span : Span)
    (hv : value.Follows) : (assign target op value span).Follows := by
  intro f scopes hnodup hsimple hscopes
  have hparts := (List.nodup_cons.mp hnodup).2
  rw [checkStmt_assign]
  refine .ofExcept_bind fun t ht => ?_
  have hfound := find?_of_targetType ht
  rw [checkAssigned, bind_assoc]
  refine last (Check.gives_valueTypeFor (hv scopes hparts hsimple hscopes) hparts t)
    (fun s hs => List.mem_cons_of_mem _ hs) fun u x hu hx => ?_
  -- what is marked in the value is marked in the statement, which has no other parts
  have hvalue (floats : List Span) (result : Ty)
      (h : x.Final f.result result floats (assign target op value span).spans) :
      value.Typed floats scopes u :=
    hu.1.typed floats result (h.agrees.parts hx hnodup).2
  cases op with
  | none =>
    refine Check.accepts_bind fun haccepts => .pure ?_
    obtain rfl := Ty.eq_of_accepts (hscopes target t hfound) haccepts
    rw [Effect.append_nil]
    exact ⟨hscopes, fun _ => rfl, Effect.fits_of_results hu.1.results, fun floats result h =>
      .assign hfound (hvalue floats result h)⟩
  | some op =>
    rw [bind_assoc]
    refine .ofExcept_bind fun w hw => Check.accepts_bind fun haccepts => .pure ?_
    obtain rfl := Ty.eq_of_accepts (hscopes target t hfound) haccepts
    rw [Effect.append_nil]
    exact ⟨hscopes, fun _ => rfl, Effect.fits_of_results hu.1.results, fun floats result h =>
      .update hfound (hvalue floats result h) hw⟩

theorem follows_increment (target : String) (up : Bool) (span : Span) :
    (increment target up span).Follows := by
  intro f scopes _ _ hscopes
  rw [checkStmt]
  refine .ofExcept_bind fun t ht => .ite (fun _ => .fail_bind _ _) fun hnumeric => .pure ?_
  exact ⟨hscopes, fun _ => rfl, Effect.fits_of_results rfl, fun _ _ _ =>
    .increment (find?_of_targetType ht) (by simpa using hnumeric)⟩

theorem follows_expr {value : Expr} (hv : value.Follows) : (expr value).Follows := by
  intro f scopes hnodup hsimple hscopes
  rw [checkStmt]
  refine .ite (fun _ => .fail_bind _ _) fun _ => ?_
  refine last (hv scopes hnodup hsimple hscopes) (by simp [spans]) fun t x ht _ => .pure ?_
  rw [Effect.append_nil]
  exact ⟨hscopes, fun _ => rfl, Effect.fits_of_results ht.results, fun floats result h =>
    .expr (ht.typed floats result h.agrees)⟩

theorem follows_ret {value : Option Expr} (span : Span) (hv : ∀ e ∈ value, e.Follows) :
    (ret value span).Follows := by
  intro f scopes hnodup hsimple hscopes
  have hspans : (ret value span).spans = span :: Expr.spansIn value := by
    cases value <;> rfl
  rw [hspans] at hnodup ⊢
  have hsimple : ∀ e ∈ value, e.SimplePosts := by
    rintro e ⟨⟩
    exact hsimple
  rw [checkStmt_ret]
  refine last (gives_checkResult span hv (List.nodup_cons.mp hnodup).2 hsimple hscopes)
    (fun s hs => List.mem_cons_of_mem _ hs) fun _ x hx _ => .pure ?_
  rw [Effect.append_nil]
  refine ⟨hscopes, fun _ => rfl, hx.1, fun floats result h => hx.2 floats result ?_⟩
  rw [hspans] at h
  exact h.mono fun _ => List.mem_cons_of_mem _

theorem follows_breakLoop (span : Span) : (breakLoop span).Follows := by
  rintro ⟨expected, inLoop⟩ scopes _ _ hscopes
  rw [checkStmt]
  refine .ite (fun hloop => .pure ?_) fun _ => .fail _ _
  obtain rfl : inLoop = true := hloop
  exact ⟨hscopes, fun _ => rfl, Effect.fits_of_results rfl, fun _ _ _ => .breakLoop⟩

theorem follows_continueLoop (span : Span) : (continueLoop span).Follows := by
  rintro ⟨expected, inLoop⟩ scopes _ _ hscopes
  rw [checkStmt]
  refine .ite (fun hloop => .pure ?_) fun _ => .fail _ _
  obtain rfl : inLoop = true := hloop
  exact ⟨hscopes, fun _ => rfl, Effect.fits_of_results rfl, fun _ _ _ => .continueLoop⟩

theorem follows_cond {condition : Expr} {thenStatements : List Stmt} (thenSpan : Span)
    {elseBlock : Option Block} (span : Span) (hc : condition.Follows)
    (ht : AllFollow thenStatements) (he : ∀ b ∈ elseBlock, AllFollow b.statements) :
    (cond condition (.mk thenStatements thenSpan) elseBlock span).Follows := by
  intro f scopes hnodup hsimple hscopes
  rw [simplePosts_cond] at hsimple
  obtain ⟨hsc, hst, hse⟩ := hsimple
  have hspans := spans_cond condition thenStatements thenSpan elseBlock span
  rw [hspans] at hnodup ⊢
  have hparts := (List.nodup_cons.mp hnodup).2
  -- the condition and the branches have spans of their own, so their effects are told apart
  obtain ⟨hnc, hblocks, -⟩ := List.nodup_append.mp hparts
  obtain ⟨hnt, hne, -⟩ := List.nodup_append.mp hblocks
  rw [checkStmt_cond]
  refine (bind (gives_checkBool (f := f) .choice hc hnc hsc hscopes) fun _ x hx hxw => ?_).weaken
    (fun s => List.mem_cons_of_mem _) fun _ _ _ => id
  refine bind (ht f scopes.push hnt hst hscopes.push) fun _ y hy hyw => ?_
  refine last (gives_checkElse (f := f) he hne hse hscopes) (fun _ => id) fun _ z hz hzw => .pure ?_
  rw [Effect.append_nil]
  refine ⟨hscopes, fun _ => rfl, hx.1.append (hy.fits.append hz.1), fun floats result h => ?_⟩
  rw [hspans] at h
  obtain ⟨hfx, h⟩ := (h.mono fun _ => List.mem_cons_of_mem _).split hxw (hyw.append hzw) hparts
  obtain ⟨hfy, hfz⟩ := h.split hyw hzw hblocks
  exact .cond (hx.2 floats result hfx) (hy.typed floats result hfy) (hz.2 floats result hfz)

theorem follows_loop {init : Option Stmt} {condition : Option Expr} {post : Option Stmt}
    {statements : List Stmt} (bodySpan span : Span) (hi : ∀ i ∈ init, i.Follows)
    (hc : ∀ c ∈ condition, c.Follows) (hp : ∀ p ∈ post, p.Follows) (hs : AllFollow statements) :
    (loop init condition post (.mk statements bodySpan) span).Follows := by
  intro f scopes hnodup hsimple hscopes
  rw [simplePosts_loop] at hsimple
  obtain ⟨hsi, hsc, hsp, hss⟩ := hsimple
  have hspans := spans_loop init condition post statements bodySpan span
  rw [hspans] at hnodup ⊢
  have hparts := (List.nodup_cons.mp hnodup).2
  -- the same for the four parts of a loop
  obtain ⟨hni, hrest, -⟩ := List.nodup_append.mp hparts
  obtain ⟨hnc, hrest', -⟩ := List.nodup_append.mp hrest
  obtain ⟨hnp, hns, -⟩ := List.nodup_append.mp hrest'
  rw [checkStmt_loop]
  refine (bind (gives_checkInit hi hni hsi hscopes) fun inner x hx hxw => ?_).weaken
    (fun s => List.mem_cons_of_mem _) fun _ _ _ => id
  obtain ⟨hinner, hnone, hfitx, htx⟩ := hx
  refine bind (gives_checkCondition (f := f) hc hnc hsc hinner) fun _ y hy hyw => ?_
  refine bind (gives_checkPost hp hnp hsp hinner) fun inner' z hz hzw => ?_
  obtain ⟨rfl, hkeeps, hfitz, htz⟩ := hz
  refine last (hs { f with inLoop := true } inner'.push hns hss hinner.push) (fun _ => id)
    fun _ w hw hww => .pure ?_
  rw [Effect.append_nil]
  refine ⟨hscopes, fun _ => rfl, hfitx.append (hy.1.append (hfitz.append hw.fits)), ?_⟩
  intro floats result h
  rw [hspans] at h
  obtain ⟨hfx, h⟩ := (h.mono fun _ => List.mem_cons_of_mem _).split hxw
    (hyw.append (hzw.append hww)) hparts
  obtain ⟨hfy, h⟩ := h.split hyw (hzw.append hww) hrest
  obtain ⟨hfz, hfw⟩ := h.split hzw hww hrest'
  exact .loop (htx floats result hfx) hnone (hy.2 floats result hfy) (htz floats result hfz)
    hkeeps (hw.typed floats result hfw)

theorem follows_block {statements : List Stmt} (span : Span) (hs : AllFollow statements) :
    (block (.mk statements span)).Follows := by
  intro f scopes hnodup hsimple hscopes
  rw [checkStmt]
  refine last (hs f scopes.push hnodup hsimple hscopes.push) (by simp [spans])
    fun _ x hx _ => .pure ?_
  rw [Effect.append_nil]
  exact ⟨hscopes, fun _ => rfl, hx.fits, fun floats result h => .block (hx.typed floats result h)⟩

theorem allFollow_nil : AllFollow [] := by
  intro f scopes _ _ _
  rw [checkStmts]
  exact .pure ⟨Effect.fits_of_results rfl, fun _ _ _ => .nil⟩

theorem allFollow_cons {s : Stmt} {ss : List Stmt} (hs : s.Follows) (hss : AllFollow ss) :
    AllFollow (s :: ss) := by
  intro f scopes hnodup ⟨hsimple, hsimples⟩ hscopes
  obtain ⟨hns, hnss, -⟩ := List.nodup_append.mp hnodup
  rw [checkStmts]
  refine bind (hs f scopes hns hsimple hscopes) fun inner x hx hxw => ?_
  refine (hss f inner hnss hsimples hx.proper).weaken (fun _ => id) fun _ y hyw hy => ?_
  refine ⟨hx.fits.append hy.fits, fun floats result h => ?_⟩
  obtain ⟨hfx, hfy⟩ := h.split hxw hyw hnodup
  exact .cons (hx.typed floats result hfx) (hy.typed floats result hfy)

end Stmt

/-- **The checker follows the typing rules** on all expressions and statements. -/
theorem follows : SyntaxCases Expr.Follows (fun es => ∀ e ∈ es, e.Follows) Stmt.Follows
    Stmt.AllFollow where
  literal := Expr.follows_literal
  identifier := Expr.follows_identifier
  binary op _ _ span := Expr.follows_binary op span
  unary op _ span := Expr.follows_unary op span
  call _ _ span := Expr.follows_call span
  selector := Expr.follows_selector
  function params result _ := Expr.follows_function params result
  noArguments := nofun
  argument _ _ he hes := List.forall_mem_cons.mpr ⟨he, hes⟩
  define name _ span := Stmt.follows_define name span
  var name type _ span := Stmt.follows_var name type span
  assign target op _ span := Stmt.follows_assign target op span
  increment := Stmt.follows_increment
  expr _ := Stmt.follows_expr
  ret _ span := Stmt.follows_ret span
  breakLoop := Stmt.follows_breakLoop
  continueLoop := Stmt.follows_continueLoop
  cond _ _ thenSpan _ span := Stmt.follows_cond thenSpan span
  loop _ _ _ _ bodySpan span := Stmt.follows_loop bodySpan span
  block _ := Stmt.follows_block
  noStatements := Stmt.allFollow_nil
  statement _ _ := Stmt.allFollow_cons

end Formula
