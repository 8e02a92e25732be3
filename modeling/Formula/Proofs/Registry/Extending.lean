import Formula.Proofs.Program.Layout
import Formula.Proofs.Registry.Running
import Formula.Proofs.Resolution.Checked
import Formula.Proofs.Shift.Checking
import Formula.Proofs.Shift.Running

/-!
# Programs below declared inputs

What a program declares may stand below the lines of declared inputs. The values of these inputs play
no part in its types. Once values from outside are put into all of them, they play no part in a run
either: two such programs, with other values and so with other places, end alike.

## Main definitions

* `Program.Extends`: a program declares inputs, and below them what another program declares
* `VarDecl.IsFunction`: a package-level variable that is declared with a function
* `Bindings.BelowBut`: names stand for the same values further down, with exceptions

## Main results

* `Program.Extends.check`: one program is accepted as the other one is, with the same types
* `Program.Extends.execute`: a run with values for all inputs
-/

namespace Formula

/-- **A program declares inputs, and below them what another program declares**, of which it also
has the imports. -/
structure Program.Extends (k : Shift) (vars : List Variable) (p base : Program) : Prop where
  paths : p.imports.map ImportDecl.path = base.imports.map ImportDecl.path
  items : ∃ vs, List.Forall₂ (fun v d => VarDecl.Declares d v) vars vs ∧
    p.items = vs.map Item.var ++ base.items.map (Item.shift k)

/-- A variable is declared as another one is, if its value is not looked at. -/
structure Variable.Redeclares (w v : Variable) : Prop where
  name_eq : w.name = v.name
  type_eq : w.type = v.type

variable {k k' : Shift} {vars vars' : List Variable} {base p p' : Program}

namespace Program.Extends

theorem vars_eq {vs : List VarDecl}
    (hitems : p.items = vs.map Item.var ++ base.items.map (Item.shift k)) :
    p.vars = vs ++ base.vars.map (VarDecl.shift k) := by
  rw [Program.vars, hitems, List.filterMap_append, Item.filterMap_var?_shift, List.filterMap_map]
  simp [Function.comp_def, Item.var?, Program.vars]

theorem functions_eq (h : p.Extends k vars base) :
    p.functions = base.functions.map (FunctionDecl.shift k) := by
  obtain ⟨vs, -, hitems⟩ := h.items
  rw [Program.functions, hitems, List.filterMap_append, Item.filterMap_function?_shift,
    List.filterMap_map]
  simp [Function.comp_def, Item.function?, Program.functions]

end Program.Extends

/-! ## Names

Which names are in use, and what they stand for, is said by the paths of imports, by the names of
declarations and by the types of functions. -/

theorem checkImports_congr {is js : List ImportDecl} (hpaths : js.map ImportDecl.path =
    is.map ImportDecl.path) {taken : List String} {scopes : Scoped Ty} {r : List String × Scoped Ty}
    (h : checkImports taken scopes is = .ok r) : checkImports taken scopes js = .ok r := by
  induction is generalizing js taken scopes with
  | nil =>
    obtain rfl := List.map_eq_nil_iff.mp hpaths
    exact h
  | cons i is ih =>
    obtain ⟨j, js, rfl, hpath, hrest⟩ := List.map_eq_cons_iff.mp hpaths
    have hbinding : j.binding = i.binding := by rw [ImportDecl.binding, hpath]; rfl
    rw [checkImports] at h ⊢
    rw [hpath, hbinding]
    by_cases hknown : i.path ∈ Package.paths
    · rw [if_neg (not_not.mpr hknown)] at h ⊢
      by_cases htaken : i.binding ∈ taken
      · rw [if_pos htaken] at h
        cases h
      · rw [if_neg htaken] at h ⊢
        exact ih hrest h
    · rw [if_pos hknown] at h
      cases h

/-- A declaration of the same name, and of the same type where it is a function. -/
inductive Item.Alike : Item → Item → Prop where
  | var {d d' : VarDecl} (h : d'.name = d.name) : Alike (.var d) (.var d')
  | function {d d' : FunctionDecl} (h : d'.name = d.name)
      (htype : ∀ t, functionType d.params d.result = .ok t →
        functionType d'.params d'.result = .ok t) : Alike (.function d) (.function d')

theorem checkNames_congr {items items' : List Item} (hitems : List.Forall₂ Item.Alike items items')
    {entryPoint : String} {taken : List String} {scopes scopes' : Scoped Ty}
    (h : checkNames entryPoint taken scopes items = .ok scopes') :
    checkNames entryPoint taken scopes items' = .ok scopes' := by
  induction hitems generalizing taken scopes with
  | nil => exact h
  | @cons i i' items items' hi _ ih =>
    have hname : i'.name = i.name := by
      cases hi <;> assumption
    obtain ⟨hfresh, inner, hinner, hrest⟩ := checkNames_cons_ok_iff.mp h
    refine checkNames_cons_ok_iff.mpr ⟨hname ▸ hfresh, inner, ?_, hname ▸ ih hrest⟩
    -- a variable declares nothing yet, and a function the same type
    cases hi with
    | var =>
      cases hinner
      exact .var
    | function hfunction htype =>
      cases hinner with
      | entry hentry => exact .entry (hfunction.trans hentry)
      | function hother ht =>
        rw [← hfunction] at hother ⊢
        exact .function hother (htype _ ht)

/-- Declarations are alike wherever they stand. -/
theorem Item.alike_shift (k k' : Shift) (i : Item) : (i.shift k).Alike (i.shift k') := by
  cases i with
  | var d => exact .var rfl
  | function d =>
    refine .function rfl fun t ht => ?_
    have hshift := functionType_shift k d.params d.result
    have hshift' := functionType_shift k' d.params d.result
    change functionType (d.params.map (Parameter.shift k)) (d.result.map (TypeExpr.shift k)) = _ at ht
    change functionType (d.params.map (Parameter.shift k')) (d.result.map (TypeExpr.shift k')) = _
    cases htype : functionType d.params d.result with
    | error u =>
      rw [hshift, htype] at ht
      cases ht
    | ok t' =>
      rw [hshift, htype] at ht
      rw [hshift', htype]
      exact ht

/-- Inputs are declared alike, whichever their values are. -/
theorem Item.alike_of_declares {vs vs' : List VarDecl}
    (hvars : List.Forall₂ Variable.Redeclares vars' vars)
    (hvs : List.Forall₂ (fun v d => VarDecl.Declares d v) vars vs)
    (hvs' : List.Forall₂ (fun v d => VarDecl.Declares d v) vars' vs') :
    List.Forall₂ Item.Alike (vs.map Item.var) (vs'.map Item.var) := by
  induction hvars generalizing vs vs' with
  | nil =>
    cases hvs
    cases hvs'
    exact .nil
  | cons hw _ ih =>
    cases hvs with
    | cons hd hvs =>
      cases hvs' with
      | cons hd' hvs' =>
        exact .cons (.var (hd'.name.trans (hw.name_eq.trans hd.name.symm))) (ih hvs hvs')

theorem Program.Extends.alike (h : p.Extends k vars base) (h' : p'.Extends k' vars' base)
    (hvars : List.Forall₂ Variable.Redeclares vars' vars) :
    List.Forall₂ Item.Alike p.items p'.items := by
  obtain ⟨vs, hvs, hitems⟩ := h.items
  obtain ⟨vs', hvs', hitems'⟩ := h'.items
  rw [hitems, hitems']
  refine List.rel_append (Item.alike_of_declares hvars hvs hvs') ?_
  rw [List.forall₂_map_left_iff, List.forall₂_map_right_iff, List.forall₂_same]
  exact fun i _ => i.alike_shift k k'

/-! ## Types -/

theorem declareVars_congr (hvars : List.Forall₂ Variable.Redeclares vars' vars)
    (scopes : Scoped Ty) : declareVars vars' scopes = declareVars vars scopes := by
  induction hvars generalizing scopes with
  | nil => rfl
  | @cons w v vars' vars hw _ ih =>
    have hstep : declareVars (w :: vars') scopes =
        declareVars vars' (scopes.declare w.name (.ofScalar w.type)) := rfl
    rw [hstep, ih, hw.name_eq, hw.type_eq]
    rfl

theorem ProperScopes.declareVars {scopes : Scoped Ty} (h : ProperScopes scopes)
    (vars : List Variable) : ProperScopes (declareVars vars scopes) := by
  induction vars generalizing scopes with
  | nil => exact h
  | cons v vars ih => exact ih (h.declare v.name (by cases v.type <;> rfl))

/-- What a program declares below its inputs, at the places where it stands. -/
def Program.below (k : Shift) (p base : Program) : Program :=
  ⟨p.imports, base.items.map (Item.shift k)⟩

theorem Program.Extends.functions_below (h : p.Extends k vars base) :
    p.functions = (p.below k base).functions :=
  h.functions_eq.trans (Item.filterMap_function?_shift k base.items).symm

/-- The checker declares the inputs and goes on with what stands below them. -/
theorem Program.Extends.checkBodies_below (h : p.Extends k vars base)
    (htypes : ∀ v ∈ vars, v.initialValue.type = v.type) (entryPoint : String) (scopes : Scoped Ty) :
    checkBodies p entryPoint scopes {} =
      checkBodies (p.below k base) entryPoint (declareVars vars scopes) {} := by
  obtain ⟨vs, hvs, hitems⟩ := h.items
  have hvars' : p.vars = vs ++ (p.below k base).vars :=
    (vars_eq hitems).trans (congrArg (vs ++ ·) (Item.filterMap_var?_shift k base.items).symm)
  rw [checkBodies, checkBodies, h.functions_below, hvars']
  change (checkVars scopes (vs ++ _) {} >>= _) = (checkVars (declareVars vars scopes) _ {} >>= _)
  rw [checkVars_of_declares hvs htypes]

/-- **One program is accepted as the other one is.** It has the same result type, and the same
integers become floating-point numbers, each where it stands. -/
theorem Program.Extends.check {k k' : Descent} (h : p.Extends k vars base) (h' : p'.Extends k' vars' base)
    (hvars : List.Forall₂ Variable.Redeclares vars' vars)
    (htypes : ∀ v ∈ vars, v.initialValue.type = v.type)
    (htypes' : ∀ v ∈ vars', v.initialValue.type = v.type) {entryPoint : String} {types : TypeInfo}
    (hcheck : p.check entryPoint = .ok types) :
    ∃ floats : List Span, types.floats = floats.map (Span.shift k) ∧
      p'.check entryPoint = .ok ⟨types.result, floats.map (Span.shift k')⟩ := by
  obtain ⟨taken, scopes, scopes', notes, himports, hnames, hbodies, hfloats⟩ :=
    Program.check_eq_ok hcheck
  have himports' := checkImports_congr (h'.paths.trans h.paths.symm) himports
  have hnames' := checkNames_congr (h.alike h' hvars) hnames
  -- both are checked as what they declare below their inputs is checked alone
  have hmarked : ∀ i ∈ base.items, i.Marked fun _ => True := fun i _ => i.marked_true
  have hbase := shifts_checkBodies (k := k) base.imports p.imports hmarked entryPoint
    (declareVars vars scopes') {} {} .empty
  have hbase' := shifts_checkBodies (k := k') base.imports p'.imports hmarked entryPoint
    (declareVars vars scopes') {} {} .empty
  have heq := h.checkBodies_below htypes entryPoint scopes'
  have heq' := h'.checkBodies_below htypes' entryPoint scopes'
  rw [declareVars_congr hvars] at heq'
  change checkBodies p entryPoint scopes' {} = _ at hbodies
  rw [heq, Program.below] at hbodies
  rw [hbodies] at hbase
  rw [Program.below] at heq'
  rw [← heq'] at hbase'
  generalize checkBodies ⟨base.imports, base.items⟩ entryPoint (declareVars vars scopes') {} = r
    at hbase hbase'
  generalize hp' : checkBodies p' entryPoint scopes' {} = r' at hbase'
  cases hbase with
  | @ok result _ _ _ hresult hn =>
    obtain rfl : result = some types.result := hresult
    cases hbase' with
    | ok hresult' hn' =>
      cases hresult'
      refine ⟨_, hfloats.trans (hn.floats.eq k.separates), ?_⟩
      exact hn'.floats.eq k'.separates ▸ Program.check_of_stages himports' hnames' hp'

/-- What an expression made of constants computes, it computes at nodes of its own. -/
theorem Expr.computedSpans_subset : (e : Expr) → ∀ s ∈ e.computedSpans, s ∈ e.spans
  | .literal _ _ => fun _ => id
  | .unary _ e span => fun s hs => List.mem_cons_of_mem _ (e.computedSpans_subset s hs)
  | .binary _ left right span => by
    intro s hs
    simp only [computedSpans, List.mem_append, List.mem_singleton] at hs
    rw [spans, List.mem_cons, List.mem_append]
    rcases hs with (hs | hs) | hs
    · exact .inr (.inl (left.computedSpans_subset s hs))
    · exact .inr (.inr (right.computedSpans_subset s hs))
    · exact .inl hs
  | .identifier _ _ | .call _ _ _ | .selector _ _ _ | .function _ _ _ _ => nofun

/-- **No integer of an input becomes a floating-point number**: what stands below the inputs has
other places. -/
theorem Program.Extends.not_isFloat (h : p.Extends k vars base)
    (htypes : ∀ v ∈ vars, v.initialValue.type = v.type) {d : FunctionDecl} {entryPoint : String}
    (hfunctions : p.functions = [d]) (hentry : d.name = entryPoint) {types : TypeInfo}
    (hcheck : p.check entryPoint = .ok types) (hspans : p.spans.Nodup)
    (hsimple : ∀ i ∈ p.items, i.SimplePosts) {vs : List VarDecl}
    (hitems : p.items = vs.map Item.var ++ base.items.map (Item.shift k)) :
    ∀ d ∈ vs, ∀ e, d.value = some e → ∀ span ∈ e.computedSpans, types.isFloat span = false := by
  obtain ⟨taken, scopes, scopes', notes, himports, hnames, hbodies, hfloats⟩ :=
    Program.check_eq_ok hcheck
  have hproper := properScopes_of_checkNames
    (predeclared_of_checkImports predeclared_universe himports).proper hnames
  have hparts : p.spans = (vs.map Item.var).flatMap Item.spans ++ (p.below k base).spans := by
    rw [Program.spans, hitems, List.flatMap_append]
    rfl
  rw [hparts] at hspans
  obtain ⟨-, hbelow, hdisjoint⟩ := List.nodup_append.mp hspans
  have hmem := mem_spans_of_checkBodies
    ((h.checkBodies_below htypes entryPoint scopes').symm.trans hbodies)
    (h.functions_below.symm.trans hfunctions) hentry (hproper.declareVars vars) hbelow
    fun i hi => hsimple i (hitems ▸ List.mem_append_right _ hi)
  intro w hw e he span hspan
  have hwhere : span ∈ (vs.map Item.var).flatMap Item.spans := by
    refine List.mem_flatMap.mpr ⟨.var w, List.mem_map_of_mem hw, ?_⟩
    rw [Item.spans, he]
    exact e.computedSpans_subset span hspan
  rw [TypeInfo.isFloat, hfloats, List.contains_eq_mem, decide_eq_false_iff_not]
  exact fun hfloat => hdisjoint span hwhere span (hmem span hfloat) rfl

/-! ## Runs

The initial values of the inputs are the one thing that may be different when the entry function is
called. Values from outside take the place of all of them. -/

/-- **Names stand for the same values further down**, with the exception of those that `but` holds
of. -/
def Bindings.BelowBut (k : Shift) (but : String → Prop) (g g' : Bindings Value) : Prop :=
  ∀ name, ¬but name → g'.get? name = (g.get? name).map (Value.shift k)

namespace Bindings.BelowBut

variable {but but' : String → Prop} {g g' : Bindings Value}

theorem mono (h : BelowBut k but g g') (hbut : ∀ name, but name → but' name) :
    BelowBut k but' g g' :=
  fun name hname => h name fun hb => hname (hbut name hb)

/-- A name that is given the same value is no exception any more. -/
theorem set (h : BelowBut k but g g') (name : String) (v : Value) :
    BelowBut k (fun other => but other ∧ name ≠ other) (g.set name v)
      (g'.set name (v.shift k)) := by
  intro other hother
  rw [Bindings.get?_set, Bindings.get?_set]
  by_cases heq : name = other
  · rw [if_pos heq, if_pos heq]
    rfl
  · rw [if_neg heq, if_neg heq]
    exact h other fun hb => hother ⟨hb, heq⟩

theorem foldl {α : Type} {name : α → String} {v v' : α → Value}
    (hv : ∀ a, v' a = (v a).shift k) (l : List α) (h : BelowBut k but g g') :
    BelowBut k but (l.foldl (fun g a => g.set (name a) (v a)) g)
      (l.foldl (fun g a => g.set (name a) (v' a)) g') := by
  induction l generalizing g g' with
  | nil => exact h
  | cons a l ih =>
    rw [List.foldl_cons, List.foldl_cons, hv]
    exact ih ((h.set (name a) (v a)).mono fun _ hb => hb.1)

end Bindings.BelowBut

open Bindings

/-- Before variables have their values, all names stand for what they stand for. -/
theorem Program.Extends.initialGlobals (h : p.Extends k vars base) (but : String → Prop) :
    BelowBut k but base.initialGlobals p.initialGlobals := by
  have himports (is : List ImportDecl) (g : Bindings Value) :
      is.foldl (fun g i => g.set i.binding (.package i.path)) g =
        (is.map ImportDecl.path).foldl (fun g path =>
          g.set (ImportDecl.binding ⟨path, .nowhere⟩) (.package path)) g := by
    rw [List.foldl_map]
    rfl
  have hfunctions (g : Bindings Value) :
      (base.functions.map (FunctionDecl.shift k)).foldl (fun g d => g.set d.name (.closure d.closure)) g =
        base.functions.foldl (fun g d => g.set d.name (.closure (d.shift k).closure)) g :=
    List.foldl_map
  rw [Program.initialGlobals, Program.initialGlobals, himports, himports, h.paths, h.functions_eq,
    hfunctions]
  refine .foldl (fun d => rfl) base.functions ?_
  refine .foldl (fun path => rfl) _ ?_
  exact .foldl (fun b => rfl) Builtin.all fun _ _ => rfl

/-- A package-level variable that is declared with a function. -/
def VarDecl.IsFunction (d : VarDecl) : Prop :=
  ∃ params result body span, d.value = some (.function params result body span)

instance (d : VarDecl) : Decidable d.IsFunction :=
  match h : d.value with
  | some (.function params result body span) => .isTrue ⟨params, result, body, span, h⟩
  | none | some (.literal ..) | some (.identifier ..) | some (.binary ..) | some (.unary ..)
  | some (.call ..) | some (.selector ..) => .isFalse fun ⟨_, _, _, _, h'⟩ => nomatch h.symm.trans h'

section Start

variable {but : String → Prop}

/-- **Functions that variables are declared with** are values without a step, wherever they stand. -/
theorem Setting.initVars_of_isFunction (s s' : Setting) {ds : List VarDecl}
    (hds : ∀ d ∈ ds, d.IsFunction) (m m' : Machine) (h : BelowBut k but m.globals m'.globals) :
    ∃ g g', s.initVars ds m = .ok () { m with globals := g } ∧
      s'.initVars (ds.map (VarDecl.shift k)) m' = .ok () { m' with globals := g' } ∧
        BelowBut k but g g' := by
  induction ds generalizing m m' with
  | nil => exact ⟨_, _, rfl, rfl, h⟩
  | cons d ds ih =>
    obtain ⟨hd, hrest⟩ := List.forall_mem_cons.mp hds
    obtain ⟨name, type, value, span⟩ := d
    obtain ⟨params, result, body, span', rfl⟩ := hd
    have hset := (h.set name (.closure ⟨"func literal", params, body, .empty⟩)).mono fun _ hb => hb.1
    obtain ⟨g, g', hinit, hinit', hg⟩ := ih hrest { m with globals := _ }
      { m' with globals := _ } hset
    refine ⟨g, g', ?_, ?_, hg⟩
    · rw [initVars_cons, ← hinit]
      rfl
    · rw [List.map_cons, initVars_cons, ← hinit']
      rfl

/-- **Values from outside take the place of what was there**, so that there are no exceptions any
more. -/
theorem Run.forM_setGlobal {values : List (String × Scalar)} (m m' : Machine)
    (h : BelowBut k but m.globals m'.globals)
    (hall : ∀ name, but name → name ∈ values.map Prod.fst) :
    ∃ g g', (values.forM fun (name, v) => Run.setGlobal name (.scalar v)) m =
        .ok () { m with globals := g } ∧
      (values.forM fun (name, v) => Run.setGlobal name (.scalar v)) m' =
        .ok () { m' with globals := g' } ∧ BelowBut k (fun _ => False) g g' := by
  induction values generalizing but m m' with
  | nil => exact ⟨_, _, rfl, rfl, h.mono fun name hb => nomatch hall name hb⟩
  | cons value values ih =>
    obtain ⟨name, v⟩ := value
    obtain ⟨g, g', hrun, hrun', hg⟩ := ih { m with globals := _ }
      { m' with globals := _ } (h.set name (.scalar v)) fun other hother =>
        (List.mem_cons.mp (hall other hother.1)).resolve_left fun heq => hother.2 heq.symm
    exact ⟨g, g', hrun, hrun', hg⟩

end Start

/-- The inputs have their values, and other names stand for what they stood for. -/
theorem setVars_eq (vars : List Variable) (m : Machine) :
    ∃ g, setVars vars m = { m with globals := g } ∧
      ∀ name, name ∉ vars.map Variable.name → g.get? name = m.globals.get? name := by
  have hset : setVars vars m = { m with globals := (setVars vars m).globals } := by
    induction vars generalizing m with
    | nil => rfl
    | cons v vars ih => exact ih _
  refine ⟨_, hset, fun name hname => get?_setVars_of_notMem (fun v hv heq => hname ?_) m⟩
  exact heq ▸ List.mem_map_of_mem hv

/-- **A run with values for all inputs** does what a run of the declarations below them does with the
same values, as far as these are functions. -/
theorem Program.Extends.execute (h : p.Extends k vars base) {s s' : Setting} (hs : s.Below k s')
    (hfloats : ∀ vs : List VarDecl, p.items = vs.map Item.var ++ base.items.map (Item.shift k) →
      ∀ d ∈ vs, ∀ e, d.value = some e → ∀ span ∈ e.computedSpans, s'.types.isFloat span = false)
    (hfunctions : ∀ d ∈ base.vars, d.IsFunction) {values : List (String × Scalar)}
    (hvalues : ∀ name ∈ vars.map Variable.name, name ∈ values.map Prod.fst) :
    Run.EndsBelow k (Value.shift k) (s.execute base values {}) (s'.execute p values {}) := by
  obtain ⟨vs, hvs, hitems⟩ := h.items
  obtain ⟨g₀, hset, hg₀⟩ := setVars_eq vars ⟨#[], p.initialGlobals, 0, 0⟩
  have hdeclared := s'.initVars_of_declares hvs (hfloats vs hitems) (base.vars.map (VarDecl.shift k))
    ⟨#[], p.initialGlobals, 0, 0⟩
  rw [← vars_eq hitems, hset] at hdeclared
  have hstart : BelowBut k (fun name => name ∈ vars.map Variable.name) base.initialGlobals g₀ :=
    fun name hname => (hg₀ name hname).trans (h.initialGlobals _ name hname)
  obtain ⟨g, g', hinit, hinit', hg⟩ := s.initVars_of_isFunction s' hfunctions
    ⟨#[], base.initialGlobals, 0, 0⟩ ⟨#[], g₀, 0, 0⟩ hstart
  obtain ⟨f, f', hrun, hrun', hf⟩ := Run.forM_setGlobal ⟨#[], g, 0, 0⟩ ⟨#[], g', 0, 0⟩ hg
    hvalues
  have hm : Machine.Below k ⟨#[], f, 0, 0⟩ ⟨#[], f', 0, 0⟩ :=
    ⟨by simp, fun name => hf name id, rfl, rfl⟩
  rw [s.execute_of_ready hinit hrun, s'.execute_of_ready (hdeclared.trans hinit') hrun']
  dsimp only [Setting.callEntry]
  rw [hs.config, hm.globals]
  cases Bindings.get? f s.config.entryPoint with
  | none => rfl
  | some callee => exact hs.apply hs.enterTop callee [] _ _ hm

/-- How a run of a program further down ends. -/
def Outcome.shift (k : Shift) : Outcome → Outcome
  | .value v => .value (v.shift k)
  | outcome => outcome

/-- Where the same integers become floating-point numbers, each where it stands, the settings of two
runs differ in that alone. -/
theorem Setting.below_of_floats {k : Descent} {types : TypeInfo} {floats : List Span}
    (hfloats : types.floats = floats.map (Span.shift k)) (config : Config) (world : World)
    (fuel : Nat) :
    Setting.Below k ⟨⟨types.result, floats⟩, config, world, fuel⟩ ⟨types, config, world, fuel⟩ := by
  refine ⟨fun span => ?_, rfl, rfl, rfl⟩
  have hmem : span.shift k ∈ floats.map (Span.shift k) ↔ span ∈ floats := by
    refine ⟨fun hspan => ?_, List.mem_map_of_mem⟩
    obtain ⟨t, ht, heq⟩ := List.mem_map.mp hspan
    rwa [← Span.shift_injective k _ _ heq]
  simp only [TypeInfo.isFloat, hfloats, List.contains_eq_mem, hmem]

/-- Runs of two programs end alike if what they execute does. -/
theorem Compilation.run_of_endsBelow {types types' : TypeInfo} {config : Config} {world : World}
    {fuel : Nat} {values : List (String × Scalar)}
    (hend : Run.EndsBelow k (Value.shift k)
      (Setting.execute ⟨types, config, world, fuel⟩ base values {})
      (Setting.execute ⟨types', config, world, fuel⟩ p values {})) :
    Compilation.run ⟨p, types'⟩ config world values fuel =
      (Compilation.run ⟨base, types⟩ config world values fuel).shift k := by
  unfold Compilation.run
  simp only [EStateM.run]
  cases hrun : Setting.execute ⟨types, config, world, fuel⟩ base values {} with
  | ok v m =>
    cases hrun' : Setting.execute ⟨types', config, world, fuel⟩ p values {} with
    | ok v' m' =>
      rw [hrun, hrun'] at hend
      obtain ⟨rfl, -⟩ := hend
      rfl
    | error e m' =>
      rw [hrun, hrun'] at hend
      exact hend.elim
  | error e m =>
    cases hrun' : Setting.execute ⟨types', config, world, fuel⟩ p values {} with
    | ok v' m' =>
      rw [hrun, hrun'] at hend
      exact hend.elim
    | error e' m' =>
      rw [hrun, hrun'] at hend
      obtain rfl : e' = e := hend
      cases e' <;> rfl

/-- **A run of an accepted program with values for all inputs** ends as a run of the declarations
below them does, where the integers that become floating-point numbers are those that do. -/
theorem Program.Extends.run {k : Descent} (h : p.Extends k vars base) {f : SourceFile} (hp : f.program = .ok p)
    (htypes : ∀ v ∈ vars, v.initialValue.type = v.type) {d : FunctionDecl} {entryPoint : String}
    (hbase : base.functions = [d]) (hentry : d.name = entryPoint)
    (hfunctions : ∀ d ∈ base.vars, d.IsFunction) {types : TypeInfo}
    (hcheck : p.check entryPoint = .ok types) {floats : List Span}
    (hfloats : types.floats = floats.map (Span.shift k)) {values : List (String × Scalar)}
    (hvalues : ∀ name ∈ vars.map Variable.name, name ∈ values.map Prod.fst) (config : Config)
    (world : World) (fuel : Nat) :
    Compilation.run ⟨p, types⟩ config world values fuel =
      (Compilation.run ⟨base, ⟨types.result, floats⟩⟩ config world values fuel).shift k := by
  obtain ⟨hspans, hsimple⟩ := SourceFile.nodup_spans hp
  have hsingle : p.functions = [d.shift k] := by
    rw [h.functions_eq, hbase, List.map_singleton]
  exact Compilation.run_of_endsBelow (h.execute (Setting.below_of_floats hfloats config world fuel)
    (fun vs hitems => h.not_isFloat htypes hsingle hentry hcheck hspans hsimple hitems) hfunctions
    hvalues)

end Formula
