import Mathlib.Data.List.Nodup
import Mathlib.Data.List.Pairwise
import Formula.Proofs.Resolution.Outcome
import Formula.Proofs.Typing.Outcome
import Formula.Proofs.Variation.Functions

/-!
# Programs with several functions are well typed

What the checker marks in a function lies within it, and is told without the other functions. So all
functions of an accepted program are well typed with the places that are marked in the end, and not only
an entry function that stands alone.

## Main definitions

* `FunctionDecl.Fits`: what is known of a function that was checked
* `Program.Typed`: all declarations of a program are well typed

## Main results

* `FunctionDecl.fits_of_found`: a function that is accepted is well typed where its own places are marked
* `checkBodies_typed`: all declarations are well typed with the places that are marked in the end
* `Program.typed_of_check`: a program that is accepted, and hides no predeclared name, is well typed
-/

namespace Formula

open Check.Gives

/-! ## One function -/

/-- **What is known of a function that was checked**, with what was marked in it: it is well typed
wherever just these places of it are marked. -/
structure FunctionDecl.Fits (entryPoint : String) (scopes : Scoped Ty) (d : FunctionDecl)
    (result : Option Ty) (marks : List Span) : Prop where
  within : ∀ s ∈ marks, s ∈ Stmt.spansOfAll d.body.statements
  entry : d.name = entryPoint → ∀ floats, (∀ s ∈ Stmt.spansOfAll d.body.statements,
    s ∈ floats ↔ s ∈ marks) → ∃ t, result = some t ∧ EntryTyped floats scopes d t
  other : d.name ≠ entryPoint → ∀ t, functionType d.params d.result = .ok t → ∀ floats,
    (∀ s ∈ Stmt.spansOfAll d.body.statements, s ∈ floats ↔ s ∈ marks) → d.Typed floats scopes t

section Functions

variable {entryPoint : String} {scopes : Scoped Ty} {d : FunctionDecl} {result : Option Ty}
  {m : Notes} (h : d.found entryPoint scopes = .ok (result, m)) (hscopes : ProperScopes scopes)
  (hne : scopes ≠ []) (hnodup : (Stmt.spansOfAll d.body.statements).Nodup)
  (hsimple : Stmt.AllSimplePosts d.body.statements)

include h hscopes hnodup hsimple

/-- The entry function fits the type that is found for its result. -/
theorem FunctionDecl.fits_entry (hentry : d.name = entryPoint) :
    d.Fits entryPoint scopes result m.floats := by
  rw [found, checkDeclared, if_pos hentry] at h
  obtain ⟨t, _, hbody, hresult⟩ := Check.bind_eq_ok h
  cases hresult
  obtain ⟨x, hwithin, hmarks, htyped⟩ := checkEntry_eq_ok hbody rfl hscopes hnodup hsimple
  have hmarks (s : Span) : s ∈ m.floats ↔ x.Marks t s := by simpa using hmarks s
  refine ⟨fun s hs => hwithin.mem ((hmarks s).mp hs), fun _ floats hfloats => ⟨_, rfl, ?_⟩,
    fun hother => absurd hentry hother⟩
  exact htyped floats fun s hs => (hfloats s hs).trans (hmarks s)

include hne

/-- Another function fits the type that it is declared with. -/
theorem FunctionDecl.fits_other (hother : d.name ≠ entryPoint) :
    d.Fits entryPoint scopes result m.floats := by
  rw [found, checkDeclared, if_neg hother] at h
  cases hresult : resultType d.result with
  | error u =>
    rw [hresult] at h
    cases h
  | ok r =>
    have hgives : Check.Gives (do
        checkFunction (some r) scopes d.params d.body
        return (none : Option Ty)) (Stmt.spansOfAll d.body.statements) fun _ x =>
          ∃ inner, declareParams scopes.push d.params = .ok inner ∧
            Stmt.AllChecked ⟨some r, false⟩ inner d.body.statements x ∧
              (some r = some .void ∨ d.body.terminates = true) :=
      last (gives_checkFunction (some r) hscopes hnodup hsimple) (fun _ => id)
        fun _ x hx _ => .pure (by rwa [Effect.append_nil])
    rw [hresult] at h
    obtain ⟨x, htakes, hwithin, inner, hinner, hx, hend⟩ := hgives {} result m h
    have hmarks (s : Span) : s ∈ m.floats ↔ s ∈ x.marks := by simpa using htakes.floats s
    refine ⟨fun s hs => hwithin.marks s ((hmarks s).mp hs), fun hentry => absurd hentry hother,
      fun _ t ht floats hfloats H hH hglobals => ?_⟩
    obtain ⟨ps, _, hparams, hr, rfl⟩ := functionType_eq_ok ht
    cases hresult.symm.trans hr
    have hend' : r = .void ∨ lastTerminates d.body.statements = true := by
      obtain ⟨name, params, type, ⟨statements, bodySpan⟩, span⟩ := d
      exact hend.imp_left Option.some.inj
    refine .closure (c := d.closure) (env_typed_empty hglobals hne) hparams
      (isProper_of_resultType hresult) hinner (hx.typed H.floats r ⟨?_, ?_, ?_⟩) hend'
    · rintro _ ⟨⟩
      rfl
    · intro r' hr'
      rw [hx.fits.results] at hr'
      cases hr'
    · intro s hs
      rw [Effect.marks_of_results hx.fits.results, ← hmarks s, hH]
      exact hfloats s hs

/-- **A function that is accepted is well typed** where its own places are marked. -/
theorem FunctionDecl.fits_of_found : d.Fits entryPoint scopes result m.floats := by
  by_cases hentry : d.name = entryPoint
  · exact fits_entry h hscopes hnodup hsimple hentry
  · exact fits_other h hscopes hne hnodup hsimple hentry

end Functions

/-! ## All declarations -/

section Declarations

variable {p : Program} {entryPoint : String} {scopes : Scoped Ty} {notes : Notes} {t : Ty}

/-- A span of a program with different spans is in one function only. -/
theorem Program.eq_of_mem_spans (hspans : p.spans.Nodup) {d d' : FunctionDecl} (hd : d ∈ p.functions)
    (hd' : d' ∈ p.functions) {s : Span} (hs : s ∈ Stmt.spansOfAll d.body.statements)
    (hs' : s ∈ Stmt.spansOfAll d'.body.statements) : d = d' := by
  obtain ⟨-, hbodies, -⟩ := List.nodup_append.mp (p.spans_perm.nodup_iff.mp hspans)
  obtain ⟨-, hpairs⟩ := List.nodup_flatMap.mp hbodies
  have hsymm : Std.Symm (Function.onFun List.Disjoint fun d : FunctionDecl =>
      d.params.map (·.span) ++ Stmt.spansOfAll d.body.statements) := ⟨fun _ _ h _ ha hb => h hb ha⟩
  by_contra hne
  exact hpairs.forall hd hd' hne (List.mem_append_right _ hs) (List.mem_append_right _ hs')

section Marks

variable {n n' : Notes} {entry : Option Ty} (hspans : p.spans.Nodup)
  (hall : FunctionDecl.AllFound entryPoint scopes p.functions n entry n')
  (hfits : ∀ d ∈ p.functions, ∀ r m, d.found entryPoint scopes = .ok (r, m) →
    d.Fits entryPoint scopes r m.floats)

include hspans hall hfits

/-- **In the end just those places of a function are marked that are marked in it alone.** -/
theorem mem_floats_of_function (hn : ∀ s ∈ n.floats, s ∈ p.vars.flatMap fun d => Expr.spansIn d.value)
    {d : FunctionDecl} (hd : d ∈ p.functions) {r : Option Ty} {m : Notes}
    (hfound : d.found entryPoint scopes = .ok (r, m)) (s : Span)
    (hs : s ∈ Stmt.spansOfAll d.body.statements) : s ∈ n'.floats ↔ s ∈ m.floats := by
  obtain ⟨-, -, hdisjoint⟩ := List.nodup_append.mp (p.spans_perm.nodup_iff.mp hspans)
  rw [hall.floats]
  refine ⟨fun hmem => ?_, fun hmem => .inr ⟨d, hd, r, m, hfound, hmem⟩⟩
  rcases hmem with hmem | ⟨d', hd', r', m', hfound', hmem⟩
  · refine absurd rfl (hdisjoint s (hn s hmem) s ?_)
    exact List.mem_flatMap.mpr ⟨d, hd, List.mem_append_right _ hs⟩
  · obtain rfl :=
      Program.eq_of_mem_spans hspans hd hd' hs ((hfits d' hd' r' m' hfound').within s hmem)
    cases hfound.symm.trans hfound'
    exact hmem

/-- Functions mark no place of a variable. -/
theorem mem_floats_of_var {s : Span} (hs : s ∈ p.vars.flatMap fun d => Expr.spansIn d.value) :
    s ∈ n'.floats ↔ s ∈ n.floats := by
  obtain ⟨-, -, hdisjoint⟩ := List.nodup_append.mp (p.spans_perm.nodup_iff.mp hspans)
  rw [hall.floats, or_iff_left]
  rintro ⟨d, hd, r, m, hfound, hmem⟩
  refine hdisjoint s hs s ?_ rfl
  exact List.mem_flatMap.mpr
    ⟨d, hd, List.mem_append_right _ ((hfits d hd r m hfound).within s hmem)⟩

end Marks

/-- **All declarations of a program are well typed** with the places that are marked in the end. -/
theorem checkBodies_typed (h : (checkBodies p entryPoint scopes).run {} = .ok (some t, notes))
    (hscopes : ProperScopes scopes) (hne : scopes ≠ []) (hspans : p.spans.Nodup)
    (hsimple : ∀ i ∈ p.items, i.SimplePosts) (hnames : (p.functions.map (·.name)).Nodup) :
    ∃ scopes' n, (checkVars scopes p.vars).run {} = .ok (scopes', n) ∧ ProperScopes scopes' ∧
      VarDecl.AllTyped notes.floats scopes p.vars scopes' ∧
        (∃ d ∈ p.functions, d.name = entryPoint ∧ EntryTyped notes.floats scopes' d t) ∧
          ∀ d ∈ p.functions, d.name ≠ entryPoint → ∀ u, functionType d.params d.result = .ok u →
            d.Typed notes.floats scopes' u := by
  obtain ⟨hvarSpans, -, -⟩ := List.nodup_append.mp (p.spans_perm.nodup_iff.mp hspans)
  obtain ⟨scopes', n, hvars, hfunctions⟩ := checkBodies_parts h
  obtain ⟨x, hx, hwithin, hresults, hscopes', htyped⟩ :=
    gives_checkVars hscopes hvarSpans (fun d hd => hsimple _ (Program.mem_vars.mp hd)) {} scopes' n hvars
  have hn : n.results = [] := by rw [hx.results, hresults]; rfl
  have hmarks (s : Span) : s ∈ n.floats ↔ s ∈ x.marks := by simpa using hx.floats s
  rcases checkFunctions_from (.refl scopes') hnames (fun _ => hn) none with
    ⟨_, _, hok, hall, hlast⟩ | ⟨-, e, hbad⟩
  rotate_left
  · cases hbad.symm.trans hfunctions
  cases hok.symm.trans hfunctions
  -- Whatever is marked in the end, variables leave scopes behind.
  have hne' : scopes' ≠ [] := by
    obtain ⟨floats, hfloats⟩ := x.exists_agrees t
    exact ((htyped floats t (hfloats _)).find?_eq hne).1
  have hfits (d : FunctionDecl) (hd : d ∈ p.functions) (r : Option Ty) (m : Notes)
      (hfound : d.found entryPoint scopes' = .ok (r, m)) : d.Fits entryPoint scopes' r m.floats :=
    FunctionDecl.fits_of_found hfound hscopes' hne' (Program.nodup_body hspans hd)
      (hsimple _ (Program.mem_functions.mp hd))
  have hagrees {d : FunctionDecl} (hd : d ∈ p.functions) {r : Option Ty} {m : Notes}
      (hfound : d.found entryPoint scopes' = .ok (r, m)) :=
    mem_floats_of_function hspans hall hfits (fun s hs => hwithin.marks s ((hmarks s).mp hs)) hd hfound
  refine ⟨scopes', n, hvars, hscopes', htyped _ t fun s hs => ?_, ?_, fun d hd hother u hu => ?_⟩
  · rw [mem_floats_of_var hspans hall hfits hs, Effect.marks_of_results hresults, hmarks s]
  · have hmem : entryPoint ∈ p.functions.map (·.name) := by
      by_contra hmem
      cases hlast hmem
    obtain ⟨d, hd, hname⟩ := List.mem_map.mp hmem
    obtain ⟨m, hfound⟩ := hall.entry d hd hname
    obtain ⟨_, heq, hentry⟩ := (hfits d hd _ _ hfound).entry hname notes.floats (hagrees hd hfound)
    cases heq
    exact ⟨d, hd, hname, hentry⟩
  · obtain ⟨⟨r, m⟩, hfound⟩ := hall.found d hd
    exact (hfits d hd r m hfound).other hother u hu notes.floats (hagrees hd hfound)

end Declarations

/-! ## Programs -/

/-- **All declarations of a program are well typed**: its variables in order, from the scopes with
predeclared functions, packages and functions to those of the package, and its functions in these. No
variable has the name of something else. -/
structure Program.Typed (p : Program) (entryPoint : String) (types : TypeInfo)
    (scopes scopes' : Scoped Ty) : Prop where
  packageScopes : p.packageScopes entryPoint = .ok scopes'
  scopes_ne : scopes ≠ []
  proper : ProperScopes scopes'
  values : ∀ name t, scopes.find? name = some t → ∃ v, p.initialGlobals.get? name = some v ∧
    ∀ H : StoreTy, H.floats = types.floats → H.globals = scopes'.find? → v.HasType H t
  vars : VarDecl.AllTyped types.floats scopes p.vars scopes'
  nodup : (p.vars.map (·.name)).Nodup
  fresh : ∀ d ∈ p.vars, scopes.find? d.name = none ∧ p.initialGlobals.get? d.name = none
  entry : ∃ d : FunctionDecl, p.initialGlobals.get? entryPoint = some (.closure d.closure) ∧
    EntryTyped types.floats scopes' d types.result
  entry_notMem : entryPoint ∉ p.vars.map (·.name)
  entry_fresh : scopes'.find? entryPoint = none

/-- What is in scope behind the functions of a program. -/
theorem find?_of_checkNames {entryPoint : String} {taken : List String} {scopes scopes' : Scoped Ty}
    {items : List Item} (hne : scopes ≠ [])
    (h : checkNames entryPoint taken scopes items = .ok scopes') :
    scopes' ≠ [] ∧ ∀ name t, scopes'.find? name = some t →
      (∃ d ∈ items.filterMap Item.function?, d.name = name ∧ d.name ≠ entryPoint ∧
        functionType d.params d.result = .ok t) ∨ scopes.find? name = some t := by
  induction items generalizing taken scopes with
  | nil =>
    cases h
    exact ⟨hne, fun _ _ => .inr⟩
  | cons i items ih =>
    obtain ⟨-, inner, hinner, hrest⟩ := checkNames_cons_ok_iff.mp h
    have hmore {d : FunctionDecl} {Q : FunctionDecl → Prop}
        (hd : ∃ d ∈ items.filterMap Item.function?, Q d) :
        ∃ d' ∈ d :: items.filterMap Item.function?, Q d' :=
      hd.imp fun _ hd => ⟨List.mem_cons_of_mem _ hd.1, hd.2⟩
    cases hinner with
    | var => exact ih hne hrest
    | entry =>
      obtain ⟨hne', hfind⟩ := ih hne hrest
      exact ⟨hne', fun name t ht => (hfind name t ht).imp_left hmore⟩
    | @function d u hother hu =>
      obtain ⟨hne', hfind⟩ := ih (Scoped.declare_ne_nil hne _ _) hrest
      refine ⟨hne', fun name t ht => ?_⟩
      rcases hfind name t ht with hd | hd
      · exact .inl (hmore hd)
      rw [Scoped.find?_declare hne] at hd
      split at hd
      · rename_i hname
        cases hd
        exact .inl ⟨d, List.mem_cons_self, hname, hother, hu⟩
      · exact .inr hd

section Start

variable {p : Program} {name : String}

/-- Functions enter the table of names last. -/
theorem Program.initialGlobals_eq_setAll (p : Program) : p.initialGlobals =
    Bindings.setAll (p.imports.foldl (fun b i => b.set i.binding (.package i.path)) predeclaredGlobals)
      (p.functions.map fun d => (d.name, .closure d.closure)) := by
  rw [Bindings.setAll, List.foldl_map]
  rfl

theorem Program.map_fst_functions (p : Program) :
    (p.functions.map fun d => (d.name, Value.closure d.closure)).map Prod.fst =
      p.functions.map (·.name) := by
  rw [List.map_map]
  rfl

/-- The name of a function stands for it at the start. -/
theorem Program.get?_function (hnodup : (p.functions.map (·.name)).Nodup) {d : FunctionDecl}
    (hd : d ∈ p.functions) : p.initialGlobals.get? d.name = some (.closure d.closure) := by
  rw [initialGlobals_eq_setAll, Bindings.get?_setAll_of_mem (p.map_fst_functions ▸ hnodup)]
  exact List.mem_map_of_mem (f := fun d : FunctionDecl => (d.name, Value.closure d.closure)) hd

/-- Another name stands for a predeclared function or a package at the start. -/
theorem Program.get?_outer (h : name ∉ p.functions.map (·.name)) : p.initialGlobals.get? name =
    (p.imports.foldl (fun b i => b.set i.binding (.package i.path)) predeclaredGlobals).get? name := by
  rw [initialGlobals_eq_setAll, Bindings.get?_setAll_of_notMem (p.map_fst_functions ▸ h)]

/-- A name that is not there stands for nothing at the start. -/
theorem Program.get?_none (hbuiltin : ∀ b : Builtin, b.name ≠ name)
    (himport : ∀ i ∈ p.imports, i.binding ≠ name) (h : name ∉ p.functions.map (·.name)) :
    p.initialGlobals.get? name = none := by
  rw [initialGlobals_eq, Bindings.get?_setAll_of_notMem, Bindings.get?_nil]
  simp only [List.map_append, List.map_map, List.mem_append, List.mem_map, Function.comp_apply,
    not_or, not_exists, not_and]
  exact ⟨fun b _ => hbuiltin b, himport, fun d hd hname => h (hname ▸ List.mem_map_of_mem hd)⟩

end Start

/-- **A program that is accepted is well typed**, if it hides no predeclared name. -/
theorem Program.typed_of_check {p : Program} {entryPoint : String} {types : TypeInfo}
    (hcheck : p.check entryPoint = .ok types) (hspans : p.spans.Nodup)
    (hsimple : ∀ i ∈ p.items, i.SimplePosts) (hnames : ∀ i ∈ p.items, ∀ b : Builtin, i.name ≠ b.name) :
    ∃ scopes scopes', p.Typed entryPoint types scopes scopes' := by
  obtain ⟨taken, outer, scopes, notes, himports, hnamed, hbodies, hfloats⟩ :=
    Program.check_eq_ok hcheck
  obtain ⟨hnodup, htaken⟩ := nodup_of_checkNames hnamed
  obtain ⟨hvarNames, hfunctionNames, hdisjoint⟩ :=
    List.nodup_append.mp (p.names_perm.nodup_iff.mp hnodup)
  have hpre := predeclared_of_checkImports predeclared_universe himports
  obtain ⟨hne, hfind⟩ := find?_of_checkNames hpre.ne hnamed
  obtain ⟨scopes', n, hvars, hproper, htyped, ⟨d, hd, hname, hentry⟩, hfunctions⟩ :=
    checkBodies_typed hbodies (properScopes_of_checkNames hpre.proper hnamed) hne hspans hsimple
      hfunctionNames
  rw [← hfloats] at htyped hentry hfunctions
  -- No declaration has the name of a predeclared function or a package.
  have houter (name : String) (hname : name ∈ p.items.map Item.name) : outer.find? name = none := by
    obtain ⟨i, hi, rfl⟩ := List.mem_map.mp hname
    exact hpre.find?_eq_none (htaken i hi) (hnames i hi)
  have hitem (name : String) (h : name ∈ p.vars.map (·.name) ∨ name ∈ p.functions.map (·.name)) :
      name ∈ p.items.map Item.name := p.names_perm.mem_iff.mpr (List.mem_append.mpr h)
  have hscopes (name : String) (hmem : name ∈ p.items.map Item.name)
      (hno : ∀ d ∈ p.functions, d.name = name → d.name = entryPoint) : scopes.find? name = none := by
    refine Option.eq_none_iff_forall_ne_some.mpr fun t ht => ?_
    rcases hfind name t ht with ⟨d, hd, hname, hother, -⟩ | houtside
    · exact hother (hno d hd hname)
    · cases (houter name hmem).symm.trans houtside
  have hentryMem : entryPoint ∈ p.functions.map (·.name) := hname ▸ List.mem_map_of_mem hd
  have hentryVar : entryPoint ∉ p.vars.map (·.name) := fun hmem =>
    hdisjoint _ hmem _ hentryMem rfl
  refine ⟨scopes, scopes', ?_, hne, hproper, fun name t ht => ?_, htyped, hvarNames,
    fun d' hd' => ?_, ⟨d, hname ▸ get?_function hfunctionNames hd, hentry⟩, hentryVar, ?_⟩
  · simp only [Program.packageScopes, himports, hnamed, Bind.bind, Except.bind]
    rw [hvars]
    rfl
  · -- A name in scope is that of a function, a package or a predeclared function.
    rcases hfind name t ht with ⟨d', hd', rfl, hother, hu⟩ | houtside
    · exact ⟨_, get?_function hfunctionNames hd', hfunctions d' hd' hother t hu⟩
    · obtain ⟨v, hv, hvt⟩ := hpre.values name t houtside
      refine ⟨v, (get?_outer fun hmem => ?_).trans hv, fun H _ _ => hvt H⟩
      cases (houter name (hitem name (.inr hmem))).symm.trans houtside
  · have hmem : d'.name ∈ p.vars.map (·.name) := List.mem_map_of_mem hd'
    have hnotFunction : d'.name ∉ p.functions.map (·.name) := fun h => hdisjoint _ hmem _ h rfl
    obtain ⟨i, hi, hi'⟩ := List.mem_map.mp (hitem _ (.inl hmem))
    obtain ⟨-, -, -, hused⟩ := nodup_of_checkImports himports
    refine ⟨hscopes d'.name (hitem _ (.inl hmem)) fun f hf hfname => ?_,
      get?_none (fun b hb => hnames i hi b (hi'.trans hb.symm)) (fun j hj hbinding => ?_) hnotFunction⟩
    · exact absurd (hfname ▸ List.mem_map_of_mem hf) hnotFunction
    · exact htaken i hi (hi'.trans hbinding.symm ▸ hused j hj)
  · rw [(htyped.find?_eq hne).2 _ hentryVar]
    exact hscopes entryPoint (hitem _ (.inr hentryMem)) fun _ _ => id

end Formula
