import Formula.Proofs.Typing.Statements
import Formula.Typing.Program

/-!
# Variables and the entry function

The initial values of the package-level variables and the body of the entry function are well typed
with the places that are marked when all of them are checked. The result type of the entry function
may be inferred from its results.

## Main definitions

* `VarDecl.AllTyped`: package-level variables are declared one after the other
* `EntryTyped`: the body of the entry function fits its result type

## Main results

* `gives_checkVars`, `checkEntry_eq_ok`: what the checker accepts is well typed
* `checkBodies_eq_ok`: so are the variables and the entry function of a program
-/

namespace Formula

open Check.Gives

/-- **Package-level variables have types**, each in the scopes behind those before it. -/
inductive VarDecl.AllTyped (floats : List Span) : Scoped Ty → List VarDecl → Scoped Ty → Prop where
  | nil {scopes} : VarDecl.AllTyped floats scopes [] scopes
  | cons {scopes scopes' d vars t} (hd : Expr.Declared floats scopes d.type d.value t)
    (hvars : VarDecl.AllTyped floats (scopes.declare d.name t) vars scopes') :
    VarDecl.AllTyped floats scopes (d :: vars) scopes'

/-- **The entry function has a result type** that is a type of values, and its body fits it. -/
structure EntryTyped (floats : List Span) (scopes : Scoped Ty) (d : FunctionDecl) (result : Ty) :
    Prop where
  params : d.params = []
  proper : result.isProper = true
  isValue : result.isValue = true
  body : Stmt.AllTyped floats result false scopes.push d.body.statements
  terminates : d.body.terminates = true

/-! ## Parts of what is accepted -/

section Parts

variable {p : Program} {entryPoint : String} {scopes : Scoped Ty} {n n' : Notes}

/-- Results of an entry function whose result type is not written are unified behind its body. -/
theorem checkEntry_inferred_parts {name : String} {body : Block} {span : Span} {t : Ty}
    (h : checkEntry scopes ⟨name, [], none, body, span⟩ n = .ok (t, n')) :
    ∃ n₁, checkFunction none scopes [] body n = .ok ((), n₁) ∧
      unifyResults name span n₁.results.reverse n₁ = .ok (t, n') := by
  obtain ⟨⟨⟩, n₁, hbody, h⟩ := Check.bind_eq_ok h
  exact ⟨n₁, hbody, h⟩

/-- A function is checked before those behind it, as the entry function or with its result type. -/
theorem checkFunctions_cons_parts {entry result : Option Ty} {d : FunctionDecl}
    {functions : List FunctionDecl}
    (h : checkFunctions entryPoint scopes entry (d :: functions) n = .ok (result, n')) :
    (d.name = entryPoint ∧ ∃ t n₁, checkEntry scopes d n = .ok (t, n₁) ∧
        checkFunctions entryPoint scopes (some t) functions n₁ = .ok (result, n')) ∨
      (d.name ≠ entryPoint ∧ ∃ t n₁, resultType d.result = .ok t ∧
        checkFunction (some t) scopes d.params d.body n = .ok ((), n₁) ∧
          checkFunctions entryPoint scopes entry functions n₁ = .ok (result, n')) := by
  rw [checkFunctions] at h
  split at h
  case isTrue hentry =>
    obtain ⟨t, n₁, hrun, h⟩ := Check.bind_eq_ok h
    exact .inl ⟨hentry, t, n₁, hrun, h⟩
  case isFalse hother =>
    -- resolving a type notes nothing
    obtain ⟨t, _, hresolved, hrest⟩ := Check.bind_eq_ok h
    obtain ⟨ht, rfl⟩ := Check.resolved_eq_ok hresolved
    obtain ⟨⟨⟩, n₁, hrun, hrest⟩ := Check.bind_eq_ok hrest
    exact .inr ⟨hother, t, n₁, ht, hrun, hrest⟩

/-- Package-level variables are checked before the functions are. -/
theorem checkBodies_parts {t : Option Ty}
    (h : (checkBodies p entryPoint scopes).run n = .ok (t, n')) :
    ∃ scopes' n₁, checkVars scopes p.vars n = .ok (scopes', n₁) ∧
      checkFunctions entryPoint scopes' none p.functions n₁ = .ok (t, n') := by
  obtain ⟨scopes', n₁, hvars, h⟩ := Check.bind_eq_ok h
  split at h
  · cases h
  · exact ⟨scopes', n₁, hvars, h⟩

end Parts

/-! ## Variables -/

theorem checkVars_cons (scopes : Scoped Ty) (d : VarDecl) (vars : List VarDecl) :
    checkVars scopes (d :: vars) = (do
      let t ← declaredType scopes d.type d.value d.span
      checkVars (scopes.declare d.name t) vars) := by
  rw [checkVars]
  cases d.value <;> rfl

theorem gives_checkVars {scopes : Scoped Ty} {vars : List VarDecl} (hscopes : ProperScopes scopes)
    (hnodup : (vars.flatMap fun d => Expr.spansIn d.value).Nodup)
    (hsimple : ∀ d ∈ vars, ∀ e ∈ d.value, e.SimplePosts) :
    Check.Gives (checkVars scopes vars) (vars.flatMap fun d => Expr.spansIn d.value)
      fun scopes' x => x.results = [] ∧ ProperScopes scopes' ∧ ∀ floats result,
        x.Agrees result floats (vars.flatMap fun d => Expr.spansIn d.value) →
          VarDecl.AllTyped floats scopes vars scopes' := by
  induction vars generalizing scopes with
  | nil => exact .pure ⟨rfl, hscopes, fun _ _ _ => .nil⟩
  | cons d vars ih =>
    obtain ⟨hsd, hss⟩ := List.forall_mem_cons.mp hsimple
    rw [List.flatMap_cons] at hnodup ⊢
    obtain ⟨hnd, hns, -⟩ := List.nodup_append.mp hnodup
    rw [checkVars_cons]
    refine bind (gives_declaredType d.type d.span (fun e _ => follows.ofExpr e) hnd hsd hscopes)
      fun t x ht hx => ?_
    refine (ih (hscopes.declare d.name ht.2.1) hns hss).weaken (fun _ => id)
      fun scopes' y hy hvars => ?_
    refine ⟨by simp [Effect.append, ht.1, hvars.1], hvars.2.1, fun floats result h => ?_⟩
    obtain ⟨hax, hay⟩ := h.split hx hy hnodup
    exact .cons (ht.2.2 floats result hax) (hvars.2.2 floats result hay)

/-! ## The entry function -/

/-- The body of a function, for a result type that is expected or inferred. -/
theorem gives_checkFunction {scopes : Scoped Ty} (expected : Option Ty) {params : List Parameter}
    {body : Block} (hscopes : ProperScopes scopes)
    (hnodup : (Stmt.spansOfAll body.statements).Nodup)
    (hsimple : Stmt.AllSimplePosts body.statements) :
    Check.Gives (checkFunction expected scopes params body) (Stmt.spansOfAll body.statements)
      fun _ x => ∃ inner, declareParams scopes.push params = .ok inner ∧
        Stmt.AllChecked ⟨expected, false⟩ inner body.statements x ∧
          (expected = some .void ∨ body.terminates = true) := by
  refine .ofExcept_bind fun inner hinner => ?_
  have hinnerProper := properScopes_of_declareParams hscopes.push hinner
  refine last (follows.ofStmts body.statements ⟨expected, false⟩ inner hnodup hsimple hinnerProper)
    (fun _ => id) fun _ x hx _ => ?_
  refine .ite (fun _ => .fail _ _) fun hend => .pure ?_
  rw [Effect.append_nil]
  refine ⟨inner, hinner, hx, ?_⟩
  rcases Classical.em (expected = some .void) with hvoid | hvoid
  · exact .inl hvoid
  · exact .inr (by simpa [hvoid] using hend)

/-- **The one type of all results**: each has it, or is an untyped constant that becomes a
floating-point number and is marked as such. -/
theorem gives_unifyResults (name : String) (span : Span) {results : List InferredResult}
    {spans : List Span} (hspans : ∀ r ∈ results, ∀ s ∈ r.constants, s ∈ spans) :
    Check.Gives (unifyResults name span results) spans fun t x => x.results = [] ∧
      (∀ r ∈ results, r.type = t ∨ t = .float ∧ r.type = .int ∧ r.constants ≠ []) ∧
      (∃ r ∈ results, r.type = t) ∧
      ∀ s, s ∈ x.marks ↔ t = .float ∧ ∃ r ∈ results, r.type = .int ∧ s ∈ r.constants := by
  cases results with
  | nil => exact .fail _ _
  | cons first rest =>
    rw [unifyResults]
    split
    · rename_i hsame
      have hall : ∀ r ∈ first :: rest, r.type = first.type := fun r hr => by
        simpa using List.find?_eq_none.mp hsame r hr
      refine .pure ⟨rfl, fun r hr => .inl (hall r hr), ⟨first, List.mem_cons_self, rfl⟩, fun s => ?_⟩
      refine ⟨nofun, fun ⟨hfloat, r, hr, hint, _⟩ => ?_⟩
      cases (hint.symm.trans (hall r hr)).trans hfloat
    · rename_i other hother
      dsimp only
      refine .ite (fun _ => .fail_bind _ _) fun hwidens => ?_
      have hall : ∀ r ∈ first :: rest, r.type = .float ∨ r.type = .int ∧ r.constants ≠ [] :=
        fun r hr => by
          rw [Bool.not_eq_true', Bool.not_eq_false] at hwidens
          simpa using List.all_eq_true.mp hwidens r hr
      refine .mark_bind (fun s hs => ?_) (.pure ⟨rfl, rfl, fun r hr => ?_, ?_, fun s => ?_⟩)
      · obtain ⟨r, hr, hs⟩ := List.mem_flatMap.mp hs
        exact hspans r (List.mem_filter.mp hr).1 s hs
      · exact (hall r hr).imp id fun h => ⟨rfl, h⟩
      · -- Two results have different types, so one of them is a floating-point number.
        have hne : other.type ≠ first.type := by simpa using List.find?_some hother
        have hmem := List.mem_of_find?_eq_some hother
        rcases hall first List.mem_cons_self with hfloat | ⟨hint, -⟩
        · exact ⟨first, List.mem_cons_self, hfloat⟩
        · rcases hall other hmem with hfloat | ⟨hint', -⟩
          · exact ⟨other, hmem, hfloat⟩
          · exact absurd (hint'.trans hint.symm) hne
      · simp only [List.mem_flatMap, List.mem_filter, decide_eq_true_eq, true_and, and_assoc]

/-- **What is inferred of the results that a body notes**, if none were noted before: they suit the type
that is found for them, which is that of one of them. -/
theorem Notes.Takes.unifyResults {n n₁ n' : Notes} {x : Effect} {spans : List Span} {name : String}
    {span : Span} {t : Ty} (htakes : n.Takes x n₁) (hwithin : x.Within spans) (hn : n.results = [])
    (h : unifyResults name span n₁.results.reverse n₁ = .ok (t, n')) :
    x.Suits t ∧ (∃ r ∈ x.results, r.type = t) ∧
      ∀ s, s ∈ n'.floats ↔ s ∈ n.floats ∨ x.Marks t s := by
  have hresults : n₁.results = x.results := by rw [htakes.results, hn, List.append_nil]
  have hconstants : ∀ r ∈ n₁.results.reverse, ∀ s ∈ r.constants, s ∈ spans := fun r hr => by
    rw [List.mem_reverse, hresults] at hr
    exact hwithin.constants r hr
  obtain ⟨y, htakes', -, -, hsuits, hone, hmarks⟩ :=
    gives_unifyResults name span hconstants n₁ t n' h
  simp only [List.mem_reverse, hresults] at hsuits hone hmarks
  refine ⟨hsuits, hone, fun s => ?_⟩
  rw [htakes'.floats, htakes.floats, hmarks, Effect.Marks, or_assoc]

section Entry

variable {scopes : Scoped Ty} {name : String} {body : Block} {span : Span} {n n' : Notes} {t : Ty}
  (hscopes : ProperScopes scopes) (hnodup : (Stmt.spansOfAll body.statements).Nodup)
  (hsimple : Stmt.AllSimplePosts body.statements)

include hscopes hnodup hsimple

/-- An entry function with a written result type notes no results. -/
theorem checkEntry_written {e : TypeExpr}
    (h : checkEntry scopes ⟨name, [], some e, body, span⟩ n = .ok (t, n')) :
    ∃ x : Effect, x.Within (Stmt.spansOfAll body.statements) ∧
      (∀ s, s ∈ n'.floats ↔ s ∈ n.floats ∨ x.Marks t s) ∧
        ∀ floats, x.Agrees t floats (Stmt.spansOfAll body.statements) →
          EntryTyped floats scopes ⟨name, [], some e, body, span⟩ t := by
  -- the body is checked for the written type, so that none of its results has to be inferred
  have hentry : Check.Gives (do
      let t ← Check.resolved e.resolve
      checkFunction (some t) scopes [] body
      return t) (Stmt.spansOfAll body.statements) fun t x => e.resolve = .ok t ∧
        Stmt.AllChecked ⟨some t, false⟩ scopes.push body.statements x ∧
          (some t = some .void ∨ body.terminates = true) := by
    refine .resolved_bind fun t ht => ?_
    refine last (gives_checkFunction (some t) hscopes hnodup hsimple) (fun _ => id)
      fun _ x hx _ => .pure ?_
    obtain ⟨inner, hinner, hx⟩ := hx
    cases hinner
    rw [Effect.append_nil]
    exact ⟨ht, hx⟩
  obtain ⟨x, htakes, hwithin, ht, hx, hend⟩ := hentry n t n' h
  have hvalue := TypeExpr.isValue_of_resolve ht
  refine ⟨x, hwithin, fun s => ?_, fun floats hagrees => ?_⟩
  · rw [htakes.floats, Effect.marks_of_results hx.fits.results]
  · refine ⟨rfl, TypeExpr.isProper_of_resolve ht, hvalue, hx.typed floats t
      ⟨fun _ => by rintro ⟨⟩; rfl, ?_, hagrees⟩, hend.resolve_left fun hvoid => ?_⟩
    · intro r hr
      rw [hx.fits.results] at hr
      cases hr
    · cases hvoid
      cases hvalue

/-- What is inferred for an entry function depends on all the results that were noted. -/
theorem checkEntry_inferred (h : checkEntry scopes ⟨name, [], none, body, span⟩ n = .ok (t, n'))
    (hn : n.results = []) :
    ∃ x : Effect, x.Within (Stmt.spansOfAll body.statements) ∧
      (∀ s, s ∈ n'.floats ↔ s ∈ n.floats ∨ x.Marks t s) ∧
        ∀ floats, x.Agrees t floats (Stmt.spansOfAll body.statements) →
          EntryTyped floats scopes ⟨name, [], none, body, span⟩ t := by
  obtain ⟨n₁, hrun, h⟩ := checkEntry_inferred_parts h
  obtain ⟨x, htakes, hwithin, inner, hinner, hx, hend⟩ :=
    gives_checkFunction none hscopes hnodup hsimple n () n₁ hrun
  cases hinner
  obtain ⟨hsuits, ⟨r, hr, rfl⟩, hmarks⟩ := htakes.unifyResults hwithin hn h
  obtain ⟨-, hproper, hvalue⟩ := hx.fits r hr
  refine ⟨x, hwithin, hmarks, fun floats hagrees => ?_⟩
  refine ⟨rfl, hproper, hvalue, hx.typed floats _ ⟨fun _ hnone => ?_, hsuits, hagrees⟩,
    hend.resolve_left fun hvoid => ?_⟩
  · cases hnone
  · cases hvoid

end Entry

/-- **The entry function is well typed**, if in the end just those of its places are marked that are
noted with its body, for the result type that is found. -/
theorem checkEntry_eq_ok {scopes : Scoped Ty} {d : FunctionDecl} {n n' : Notes} {t : Ty}
    (h : checkEntry scopes d n = .ok (t, n')) (hn : n.results = []) (hscopes : ProperScopes scopes)
    (hnodup : (Stmt.spansOfAll d.body.statements).Nodup)
    (hsimple : Stmt.AllSimplePosts d.body.statements) :
    ∃ x : Effect, x.Within (Stmt.spansOfAll d.body.statements) ∧
      (∀ s, s ∈ n'.floats ↔ s ∈ n.floats ∨ x.Marks t s) ∧
        ∀ floats, x.Agrees t floats (Stmt.spansOfAll d.body.statements) →
          EntryTyped floats scopes d t := by
  obtain ⟨name, params, result, body, span⟩ := d
  cases params with
  | cons p params => cases h
  | nil =>
    cases result with
    | some e => exact checkEntry_written hscopes hnodup hsimple h
    | none => exact checkEntry_inferred hscopes hnodup hsimple h hn

/-! ## Variables and the entry function together -/

/-- What is collected from all declarations is what is collected from variables and functions. -/
theorem Program.flatMap_perm {α : Type} (p : Program) {g : Item → List α} {gv : VarDecl → List α}
    {gf : FunctionDecl → List α} (hv : ∀ d, g (.var d) = gv d) (hf : ∀ d, g (.function d) = gf d) :
    (p.items.flatMap g).Perm (p.vars.flatMap gv ++ p.functions.flatMap gf) := by
  unfold Program.vars Program.functions
  induction p.items with
  | nil => exact .refl _
  | cons i items ih =>
    cases i with
    | var d =>
      simp only [List.flatMap_cons, List.filterMap_cons, Item.var?, Item.function?, hv,
        List.append_assoc]
      exact ih.append_left _
    | function d =>
      simp only [List.flatMap_cons, List.filterMap_cons, Item.var?, Item.function?, hf]
      exact (ih.append_left _).trans (List.perm_append_comm_assoc ..)

theorem Program.spans_perm (p : Program) : p.spans.Perm
    ((p.vars.flatMap fun d => Expr.spansIn d.value) ++ p.functions.flatMap fun d =>
      d.params.map (·.span) ++ Stmt.spansOfAll d.body.statements) := by
  refine p.flatMap_perm (fun d => ?_) fun d => rfl
  show (d.value.map Expr.spans).getD [] = _
  cases d.value <;> rfl

theorem Program.names_perm (p : Program) :
    (p.items.map Item.name).Perm (p.vars.map (·.name) ++ p.functions.map (·.name)) := by
  rw [List.map_eq_flatMap, List.map_eq_flatMap, List.map_eq_flatMap]
  exact p.flatMap_perm (fun _ => rfl) fun _ => rfl

/-- The spans in a function of a program with different spans are different. -/
theorem Program.nodup_body {p : Program} (hspans : p.spans.Nodup) {d : FunctionDecl}
    (hd : d ∈ p.functions) : (Stmt.spansOfAll d.body.statements).Nodup := by
  obtain ⟨-, hbodies, -⟩ := List.nodup_append.mp (p.spans_perm.nodup_iff.mp hspans)
  rw [List.flatMap_def] at hbodies
  have hbody := hbodies.sublist (List.sublist_flatten_of_mem (List.mem_map_of_mem hd))
  exact (List.nodup_append.mp hbody).2.1

/-- The functions of a program with different names have different names. -/
theorem Program.nodup_functions {p : Program} (hnames : (p.items.map Item.name).Nodup) :
    (p.functions.map (·.name)).Nodup :=
  (List.nodup_append.mp (p.names_perm.nodup_iff.mp hnames)).2.1

/-- **What is noted of the variables and the entry function of a program**: an effect within their
spans, which makes them well typed wherever just its places are marked. -/
theorem checkBodies_effect {p : Program} {entryPoint : String} {scopes : Scoped Ty} {notes : Notes}
    {t : Ty} {d : FunctionDecl}
    (h : (checkBodies p entryPoint scopes).run {} = .ok (some t, notes))
    (hfunctions : p.functions = [d]) (hentry : d.name = entryPoint) (hscopes : ProperScopes scopes)
    (hnodup : p.spans.Nodup) (hsimple : ∀ i ∈ p.items, i.SimplePosts) :
    ∃ scopes' n, (checkVars scopes p.vars).run {} = .ok (scopes', n) ∧ ∃ x : Effect,
      x.Within ((p.vars.flatMap fun d => Expr.spansIn d.value) ++ Stmt.spansOfAll d.body.statements) ∧
        (∀ s, s ∈ notes.floats ↔ x.Marks t s) ∧ ∀ floats, x.Agrees t floats
          ((p.vars.flatMap fun d => Expr.spansIn d.value) ++ Stmt.spansOfAll d.body.statements) →
            VarDecl.AllTyped floats scopes p.vars scopes' ∧ EntryTyped floats scopes' d t := by
  -- the spans of the variables and of the body are different, being spans of one program
  have hnodup' : ((p.vars.flatMap fun d => Expr.spansIn d.value) ++
      Stmt.spansOfAll d.body.statements).Nodup := by
    have := p.spans_perm.nodup_iff.mp hnodup
    rw [hfunctions, List.flatMap_singleton] at this
    exact this.sublist (.append_left (List.sublist_append_right ..) _)
  obtain ⟨hnv, hnb, -⟩ := List.nodup_append.mp hnodup'
  have hsv : ∀ d ∈ p.vars, ∀ e ∈ d.value, e.SimplePosts := fun d hd => hsimple _ (Program.mem_vars.mp hd)
  have hsb : Stmt.AllSimplePosts d.body.statements :=
    hsimple _ (Program.mem_functions.mp (hfunctions ▸ List.mem_cons_self))
  obtain ⟨scopes', n, hvars, hchecked⟩ := checkBodies_parts h
  rw [hfunctions] at hchecked
  obtain ⟨-, t', n₁, hbody, hrest⟩ | ⟨hother, -⟩ := checkFunctions_cons_parts hchecked
  · cases hrest
    obtain ⟨x, hx, hwithin, hresults, hscopes', htyped⟩ :=
      gives_checkVars hscopes hnv hsv {} scopes' n hvars
    have hn : n.results = [] := by rw [hx.results, hresults]; rfl
    obtain ⟨y, hwithin', hfloats, hentry⟩ := checkEntry_eq_ok hbody hn hscopes' hnb hsb
    refine ⟨scopes', n, hvars, x.append y, hwithin.append hwithin', fun s => ?_,
      fun floats hagrees => ?_⟩
    · rw [hfloats, hx.floats, Effect.marks_append, Effect.marks_of_results hresults]
      simp
    · obtain ⟨hax, hay⟩ := hagrees.split hwithin hwithin' hnodup'
      exact ⟨htyped _ _ hax, hentry _ hay⟩
  · exact absurd hentry hother

/-- **The variables and the entry function of a program are well typed** with the places that are
marked in the end. -/
theorem checkBodies_eq_ok {p : Program} {entryPoint : String} {scopes : Scoped Ty} {notes : Notes}
    {t : Ty} {d : FunctionDecl}
    (h : (checkBodies p entryPoint scopes).run {} = .ok (some t, notes))
    (hfunctions : p.functions = [d]) (hentry : d.name = entryPoint) (hscopes : ProperScopes scopes)
    (hnodup : p.spans.Nodup) (hsimple : ∀ i ∈ p.items, i.SimplePosts) :
    ∃ scopes' n, (checkVars scopes p.vars).run {} = .ok (scopes', n) ∧
      VarDecl.AllTyped notes.floats scopes p.vars scopes' ∧
        EntryTyped notes.floats scopes' d t := by
  obtain ⟨scopes', n, hvars, x, -, hfloats, htyped⟩ :=
    checkBodies_effect h hfunctions hentry hscopes hnodup hsimple
  exact ⟨scopes', n, hvars, htyped _ fun s _ => hfloats s⟩

/-- Nothing outside of a program is marked when it is checked. -/
theorem mem_spans_of_checkBodies {p : Program} {entryPoint : String} {scopes : Scoped Ty}
    {notes : Notes} {t : Ty} {d : FunctionDecl}
    (h : (checkBodies p entryPoint scopes).run {} = .ok (some t, notes))
    (hfunctions : p.functions = [d]) (hentry : d.name = entryPoint) (hscopes : ProperScopes scopes)
    (hnodup : p.spans.Nodup) (hsimple : ∀ i ∈ p.items, i.SimplePosts) :
    ∀ s ∈ notes.floats, s ∈ p.spans := by
  intro s hs
  obtain ⟨-, -, -, x, hwithin, hfloats, -⟩ :=
    checkBodies_effect h hfunctions hentry hscopes hnodup hsimple
  have hmem := hwithin.mem ((hfloats s).mp hs)
  rw [p.spans_perm.mem_iff, hfunctions, List.flatMap_singleton]
  exact (List.mem_append.mp hmem).elim (List.mem_append_left _)
    fun hbody => List.mem_append_right _ (List.mem_append_right _ hbody)

/-- A program without functions is not accepted. -/
theorem functions_ne_nil {p : Program} {entryPoint : String} {scopes : Scoped Ty} {notes : Notes}
    {t : Ty} (h : (checkBodies p entryPoint scopes).run {} = .ok (some t, notes)) :
    p.functions ≠ [] := by
  intro hnil
  obtain ⟨scopes', n, -, h⟩ := checkBodies_parts h
  rw [hnil] at h
  cases h

/-- The stages of checking a program. -/
theorem Program.check_eq_ok {p : Program} {entryPoint : String} {types : TypeInfo}
    (h : p.check entryPoint = .ok types) :
    ∃ taken scopes scopes' notes, checkImports [] universeScopes p.imports = .ok (taken, scopes) ∧
      checkNames entryPoint taken scopes p.items = .ok scopes' ∧
        (checkBodies p entryPoint scopes').run {} = .ok (some types.result, notes) ∧
          types.floats = notes.floats := by
  obtain ⟨⟨taken, scopes⟩, himports, h⟩ := Except.bind_eq_ok h
  obtain ⟨scopes', hnames, h⟩ := Except.bind_eq_ok h
  obtain ⟨⟨t, notes⟩, hbodies, h⟩ := Except.bind_eq_ok h
  cases t <;> cases h
  exact ⟨taken, scopes, scopes', notes, himports, hnames, hbodies, rfl⟩

/-- A program that passes the stages is accepted. -/
theorem Program.check_of_stages {p : Program} {entryPoint : String} {taken : List String}
    {scopes scopes' : Scoped Ty} {t : Ty} {notes : Notes}
    (himports : checkImports [] universeScopes p.imports = .ok (taken, scopes))
    (hnames : checkNames entryPoint taken scopes p.items = .ok scopes')
    (hbodies : (checkBodies p entryPoint scopes').run {} = .ok (some t, notes)) :
    p.check entryPoint = .ok ⟨t, notes.floats⟩ := by
  unfold Program.check
  simp only [himports, Bind.bind, Except.bind, hnames, hbodies]
  rfl

end Formula
