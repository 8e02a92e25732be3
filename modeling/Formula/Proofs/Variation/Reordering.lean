import Formula.Proofs.Constants.Floats
import Formula.Proofs.Variation.Functions
import Formula.Proofs.Variation.Running

/-!
# Functions in any order

The declarations of functions may come in any order, and anywhere between those of variables. What the
checker finds of them is told without an order; and as the names of functions are different, it does not
matter in which order they are declared.

## Main definitions

* `Program.Reorders p q`: `q` has the declarations of `p`, the variables in the same order
* `Program.SameRuns p q`: two programs have the same types and the same runs

## Main results

* `foldl_perm_of_comm`: what is put into tables under different names may come in any order
* `Program.Reorders.checkNames`, `Program.Reorders.checkBodies`, `Program.Reorders.run`: names, declarations
  and runs
* `Program.checksAs_of_reorders`: a program and its runs do not depend on the order of functions
-/

namespace Formula

/-! ## Tables -/

/-- **What is put into tables under different names may come in any order**, if tables in which names
stand for the same are taken for the same. -/
theorem foldl_perm_of_comm {σ κ : Type} {R : σ → σ → Prop} (hrefl : ∀ s, R s s)
    (htrans : ∀ s t u, R s t → R t u → R s u) {step : σ → κ → σ} {key : κ → String}
    (hcongr : ∀ s t a, R s t → R (step s a) (step t a))
    (hcomm : ∀ s a b, key a ≠ key b → R (step (step s a) b) (step (step s b) a)) {as bs : List κ}
    (hperm : as.Perm bs) (hnodup : (as.map key).Nodup) {s t : σ} (h : R s t) :
    R (as.foldl step s) (bs.foldl step t) := by
  -- tables that are taken for the same stay so, whatever else is put into them
  have hfoldl (as : List κ) {s t : σ} (h : R s t) : R (as.foldl step s) (as.foldl step t) := by
    induction as generalizing s t with
    | nil => exact h
    | cons a as ih => exact ih (hcongr s t a h)
  induction hperm generalizing s t with
  | nil => exact h
  | cons a _ ih => exact ih (List.nodup_cons.mp hnodup).2 (hcongr s t a h)
  | swap a b as =>
    have hne : key b ≠ key a := fun heq =>
      (List.nodup_cons.mp hnodup).1 (heq ▸ List.mem_cons_self)
    exact hfoldl as (htrans _ _ _ (hcomm s b a hne) (hcongr _ _ b (hcongr s t a h)))
  | trans hperm _ ih ih' =>
    exact htrans _ _ _ (ih hnodup (hrefl s)) (ih' ((hperm.map key).nodup_iff.mp hnodup) h)

theorem Bindings.Same.trans {α : Type} {b b' b'' : Bindings α} (h : Same b b') (h' : Same b' b'') :
    Same b b'' :=
  fun name => (h' name).trans (h name)

theorem Bindings.same_set_comm {α : Type} (b : Bindings α) {name other : String} (hne : name ≠ other)
    (a a' : α) : Same ((b.set name a).set other a') ((b.set other a').set name a) := by
  intro key
  simp only [get?_set]
  by_cases hname : name = key
  · rw [if_pos hname, if_neg (fun h => hne (hname.trans h.symm)), if_pos hname]
  · rw [if_neg hname, if_neg hname]

namespace Scoped.Same

variable {s s' s'' : Scoped Ty}

theorem trans (h : Same s s') (h' : Same s' s'') : Same s s'' := by
  induction h generalizing s'' with
  | nil => exact h'
  | cons hb _ ih =>
    cases h' with
    | cons hb' h' => exact .cons (hb.trans hb') (ih h')

theorem declareAs (h : Same s s') (name : String) (type : Option Ty) :
    Same (s.declareAs name type) (s'.declareAs name type) := by
  cases type with
  | none => exact h
  | some t => exact h.declare name t

theorem declareAs_comm (s : Scoped Ty) {name other : String} (hne : name ≠ other)
    (type type' : Option Ty) : Same ((s.declareAs name type).declareAs other type')
      ((s.declareAs other type').declareAs name type) := by
  cases type with
  | none => exact refl _
  | some t =>
    cases type' with
    | none => exact refl _
    | some t' =>
      cases s with
      | nil => exact .nil
      | cons b s => exact .cons (b.same_set_comm hne t t') (refl s)

end Scoped.Same

/-! ## Programs with the same declarations -/

/-- **A program has the declarations of another one**, the variables in the same order, and the functions
in any order and anywhere between them. -/
structure Program.Reorders (p q : Program) : Prop where
  imports : q.imports = p.imports
  items : q.items.Perm p.items
  vars : q.vars = p.vars

namespace Program.Reorders

variable {p q : Program}

theorem functions (h : p.Reorders q) : q.functions.Perm p.functions :=
  h.items.filterMap Item.function?

theorem symm (h : p.Reorders q) : q.Reorders p :=
  ⟨h.imports.symm, h.items.symm, h.vars.symm⟩

/-- A function may be moved to the front. -/
theorem front (imports : List ImportDecl) (items items' : List Item) (d : FunctionDecl) :
    Reorders ⟨imports, items ++ .function d :: items'⟩ ⟨imports, .function d :: (items ++ items')⟩ where
  imports := rfl
  items := List.perm_middle.symm
  vars := by
    have hnone : Item.var? (.function d) = none := rfl
    simp only [Program.vars, List.filterMap_append, List.filterMap_cons, hnone]

end Program.Reorders

/-! ## Names -/

/-- **Names are accepted** if they are different from each other and from those in use, and the types in
the heads of functions are known. -/
theorem checkNames_ok_iff {entryPoint : String} {taken : List String} {scopes : Scoped Ty}
    {items : List Item} : (∃ scopes', checkNames entryPoint taken scopes items = .ok scopes') ↔
      (items.map Item.name).Nodup ∧ (∀ i ∈ items, i.name ∉ taken) ∧
        ∀ d ∈ items.filterMap Item.function?, d.name ≠ entryPoint →
          ∃ t, functionType d.params d.result = .ok t := by
  induction items generalizing taken scopes with
  | nil => exact iff_of_true ⟨scopes, rfl⟩ ⟨.nil, by simp, by simp⟩
  | cons i items ih =>
    -- What is asked of the other names is asked with the first one among those in use.
    have hnames : ((i :: items).map Item.name).Nodup ∧ (∀ j ∈ i :: items, j.name ∉ taken) ↔
        i.name ∉ taken ∧ (items.map Item.name).Nodup ∧ ∀ j ∈ items, j.name ∉ i.name :: taken := by
      rw [List.map_cons, List.nodup_cons, List.forall_mem_cons]
      simp only [List.mem_cons, not_or, List.mem_map, not_exists, not_and, imp_and, forall_and]
      tauto
    rw [← and_assoc, hnames, and_assoc, and_assoc]
    unfold checkNames
    by_cases htaken : i.name ∈ taken
    · rw [if_pos htaken]
      exact iff_of_false (by simp) fun h => h.1 htaken
    rw [if_neg htaken, and_iff_right htaken]
    cases i with
    | var d => exact ih
    | function d =>
      have hfunctions : (Item.function d :: items).filterMap Item.function? =
          d :: items.filterMap Item.function? := rfl
      simp only [hfunctions, List.forall_mem_cons]
      by_cases hentry : d.name = entryPoint
      · rw [if_pos hentry, and_iff_right fun h => absurd hentry h]
        exact ih
      rw [if_neg hentry]
      cases htype : functionType d.params d.result with
      | error u => exact iff_of_false (by simp) fun h => by simpa using h.2.2.1 hentry
      | ok t =>
        have hknown : d.name ≠ entryPoint → ∃ t', (Except.ok t : Except UnknownType Ty) = .ok t' :=
          fun _ => ⟨t, rfl⟩
        rw [and_iff_right hknown]
        exact ih

/-- **The order of functions does not matter for the names of a program.** -/
theorem Program.Reorders.checkNames {p q : Program} (h : p.Reorders q) {entryPoint : String}
    {taken : List String} {scopes scopes' : Scoped Ty}
    (hp : checkNames entryPoint taken scopes p.items = .ok scopes') :
    ∃ scopes'', checkNames entryPoint taken scopes q.items = .ok scopes'' ∧ scopes'.Same scopes'' := by
  obtain ⟨hnodup, htaken, htypes⟩ := checkNames_ok_iff.mp ⟨scopes', hp⟩
  have hfunctions := h.items.filterMap Item.function?
  obtain ⟨scopes'', hq⟩ := checkNames_ok_iff.mpr ⟨(h.items.map Item.name).nodup_iff.mpr hnodup,
    fun i hi => htaken i (h.items.mem_iff.mp hi), fun d hd => htypes d (hfunctions.mem_iff.mp hd)⟩
  refine ⟨scopes'', hq, ?_⟩
  have hdeclare (scopes : Scoped Ty) (d : FunctionDecl) :
      (if d.name = entryPoint then scopes
        else scopes.declareAs d.name (functionType d.params d.result).toOption) =
      scopes.declareAs d.name (if d.name = entryPoint then none
        else (functionType d.params d.result).toOption) := by
    split <;> rfl
  -- the entry function is not declared, which leaves the scopes as they were
  rw [eq_of_checkNames hp, eq_of_checkNames hq]
  simp only [hdeclare]
  have hnames : ((p.items.filterMap Item.function?).map FunctionDecl.name).Nodup :=
    Program.nodup_functions hnodup
  refine foldl_perm_of_comm Scoped.Same.refl (fun _ _ _ => .trans) (fun _ _ d hs => ?_)
    (fun s d d' hne => ?_) hfunctions.symm hnames (.refl scopes)
  · exact hs.declareAs d.name _
  · exact Scoped.Same.declareAs_comm s hne _ _

/-! ## Programs -/

/-- The order of functions does not matter for what is found of them, if the entry function is one of
them. -/
theorem checkFunctions_perm {functions functions' : List FunctionDecl}
    (h : functions.Perm functions') (hnodup : (functions.map FunctionDecl.name).Nodup)
    {entryPoint : String} (hentry : entryPoint ∈ functions.map FunctionDecl.name)
    {scopes scopes' : Scoped Ty} (hscopes : scopes.Same scopes') {n n' : Notes} (hn : n.results = [])
    (hn' : n'.results = []) (hfloats : ∀ s, s ∈ n'.floats ↔ s ∈ n.floats) :
    Related (fun m m' => ∀ s, s ∈ m'.floats ↔ s ∈ m.floats) (fun _ _ => True) Eq
      (checkFunctions entryPoint scopes none functions n)
      (checkFunctions entryPoint scopes' none functions' n') := by
  obtain ⟨d, hd, hname⟩ := List.mem_map.mp hentry
  have hnodup' := (h.map FunctionDecl.name).nodup_iff.mp hnodup
  -- either all functions pass or one is bad, in whatever order they are checked
  rcases checkFunctions_from (.refl scopes) hnodup (fun _ => hn) none with
    ⟨t, m, hp, hall, -⟩ | ⟨⟨d₁, hd₁, e, hbad⟩, _, hp⟩ <;>
  rcases checkFunctions_from hscopes hnodup' (fun _ => hn') none with
    ⟨t', m', hq, hall', -⟩ | ⟨⟨d₂, hd₂, e', hbad'⟩, _, hq⟩ <;> rw [hp, hq]
  · obtain ⟨k, hfound⟩ := hall.entry d hd hname
    obtain ⟨k', hfound'⟩ := hall'.entry d (h.mem_iff.mp hd) hname
    cases hfound.symm.trans hfound'
    refine .ok rfl fun s => ?_
    rw [hall.floats, hall'.floats, hfloats]
    simp [h.mem_iff]
  · obtain ⟨r, hr⟩ := hall.found d₂ (h.mem_iff.mpr hd₂)
    cases hr.symm.trans hbad'
  · obtain ⟨r, hr⟩ := hall'.found d₁ (h.mem_iff.mp hd₁)
    cases hr.symm.trans hbad
  · exact .error trivial

/-- **The order of functions does not matter for what is checked of the declarations of a program**, if
their names are different. -/
theorem Program.Reorders.checkBodies {p q : Program} (h : p.Reorders q)
    (hnodup : (p.items.map Item.name).Nodup) (entryPoint : String) {scopes scopes' : Scoped Ty}
    (hscopes : scopes.Same scopes') :
    Related (fun n n' => ∀ s, s ∈ n'.floats ↔ s ∈ n.floats) (fun _ _ => True) Eq
      (checkBodies p entryPoint scopes {}) (checkBodies q entryPoint scopes' {}) := by
  have hvars : Check.Varies (Notes.Variant .same [] fun rs rs' => rs = [] ∧ rs' = []) Scoped.Same
      (checkVars scopes p.vars) (checkVars scopes' q.vars) :=
    varies_checkVars hscopes Notes.Variant.kept (h.vars ▸ p.variant_same.vars)
  have hfirst := hvars _ _ (.empty ⟨rfl, rfl⟩)
  -- the variables are checked first, and they are the same
  change Related _ _ _ (checkVars scopes p.vars {} >>= fun r => (do
      if !(p.functions.any (·.name == entryPoint)) then
        throw ⟨.noEntryPoint entryPoint, none⟩
      checkFunctions entryPoint r.1 none p.functions : Check (Option Ty)) r.2)
    (checkVars scopes' q.vars {} >>= fun r => (do
      if !(q.functions.any (·.name == entryPoint)) then
        throw ⟨.noEntryPoint entryPoint, none⟩
      checkFunctions entryPoint r.1 none q.functions : Check (Option Ty)) r.2)
  rw [h.functions.any_eq]
  generalize checkVars scopes p.vars {} = r at hfirst ⊢
  generalize checkVars scopes' q.vars {} = r' at hfirst ⊢
  cases hfirst with
  | error => exact .error trivial
  | @ok inner inner' n n' hinner hn =>
    cases hany : p.functions.any (·.name == entryPoint) with
    | false => exact .error trivial
    | true =>
      change Related _ _ _ (checkFunctions entryPoint inner none p.functions n)
        (checkFunctions entryPoint inner' none q.functions n')
      obtain ⟨d, hd, hname⟩ := List.any_eq_true.mp hany
      have hentry := List.mem_map.mpr ⟨d, hd, beq_iff_eq.mp hname⟩
      exact checkFunctions_perm h.functions.symm (Program.nodup_functions hnodup) hentry hinner
        hn.results.1 hn.results.2 fun s => by simpa using hn.floats s (Variation.old_same s)

/-- Names stand for the same at the start, in whatever order functions are declared. -/
theorem Program.Reorders.initialGlobals {p q : Program} (h : p.Reorders q)
    (hnodup : (p.items.map Item.name).Nodup) : p.initialGlobals.Same q.initialGlobals := by
  have hnames := Program.nodup_functions hnodup
  rw [Program.initialGlobals, Program.initialGlobals, h.imports]
  refine foldl_perm_of_comm (fun _ _ => rfl) (fun _ _ _ => .trans) (fun b b' d hb name => ?_)
    (fun b d d' hne => ?_) h.functions.symm hnames fun _ => rfl
  · rw [Bindings.get?_set, Bindings.get?_set, hb name]
  · exact b.same_set_comm hne _ _

/-- What is found of a program and of one with the same declarations, and how their runs end. -/
structure Program.SameRuns (p q : Program) (t t' : TypeInfo) : Prop where
  result : t'.result = t.result
  floats : ∀ s, s ∈ t'.floats ↔ s ∈ t.floats
  run : ∀ config world bindings fuel,
    Compilation.run ⟨q, t'⟩ config world bindings fuel =
      Compilation.run ⟨p, t⟩ config world bindings fuel

/-- The runs of a program and of one with the same declarations end in the same way, if the same integers
become floating-point numbers. -/
theorem Program.Reorders.run {p q : Program} (h : p.Reorders q) (hnodup : (p.items.map Item.name).Nodup)
    {t t' : TypeInfo} (hfloats : ∀ s, s ∈ t'.floats ↔ s ∈ t.floats) (config : Config) (world : World)
    (bindings : List (String × Scalar)) (fuel : Nat) :
    Compilation.run ⟨q, t'⟩ config world bindings fuel =
      Compilation.run ⟨p, t⟩ config world bindings fuel := by
  have hsetting : Setting.Variant .same (Compilation.setting ⟨p, t⟩ config world fuel)
      (Compilation.setting ⟨q, t'⟩ config world fuel) := by
    refine ⟨fun span _ => ?_, fun _ _ h => h.elim, rfl, rfl, rfl⟩
    simp only [TypeInfo.isFloat, List.contains_eq_mem, Compilation.setting, hfloats span]
  have hstart (name : String) : Variation.same.Stands name (p.initialGlobals.get? name)
      (q.initialGlobals.get? name) := by
    rw [h.initialGlobals hnodup name]
    exact p.variant_same.stands name
  have hends := hsetting.execute (h.vars ▸ p.variant_same.vars) (fun name _ => hstart name)
    (.bindings bindings) trivial not_false
  rw [Compilation.run_eq, Compilation.run_eq]
  exact hends.outcome_eq Variation.old_same fun _ => not_false

/-- **Functions may come in any order.** A program and one with the same declarations, the variables in
the same order, are both accepted or both rejected. If they are accepted, they have the same result type,
the same integers become floating-point numbers, and for all values from outside, budgets, clocks and draws
their runs end in the same way. -/
theorem Program.checksAs_of_reorders {p q : Program} (h : p.Reorders q) (entryPoint : String) :
    Program.ChecksAs (p.SameRuns q) (p.check entryPoint) (q.check entryPoint) := by
  unfold Program.check
  rw [h.imports]
  cases checkImports [] universeScopes p.imports with
  | error e => exact .error e e
  | ok r =>
    obtain ⟨taken, scopes⟩ := r
    simp only [Bind.bind, Except.bind]
    cases hp : checkNames entryPoint taken scopes p.items with
    | error e =>
      cases hq : checkNames entryPoint taken scopes q.items with
      | error e' => exact .error e e'
      | ok scopes' =>
        -- reordering back, the names of the first program would pass as well
        obtain ⟨_, hok, -⟩ := h.symm.checkNames hq
        cases hp.symm.trans hok
    | ok scopes' =>
      obtain ⟨scopes'', hq, hscopes⟩ := h.checkNames hp
      have hnodup := (nodup_of_checkNames hp).1
      have hbodies := h.checkBodies hnodup entryPoint hscopes
      rw [hq]
      simp only [StateT.run]
      generalize checkBodies p entryPoint scopes' {} = r at hbodies ⊢
      generalize checkBodies q entryPoint scopes'' {} = r' at hbodies ⊢
      cases hbodies with
      | error => exact .error _ _
      | @ok entry _ n n' hentry hfloats =>
        subst hentry
        cases entry with
        | none => exact .error _ _
        | some result => exact .ok ⟨rfl, hfloats, h.run hnodup hfloats⟩

/-- A function that stands behind the entry function, which calls it, or in front of all. -/
theorem Program.checksAs_of_reorders_twice : ∃ p q : Program,
    p.check "evaluate" = .ok ⟨.float, []⟩ ∧ p.Reorders q ∧
      p.items.map Item.name = ["rate", "evaluate", "twice"] ∧
      q.items.map Item.name = ["twice", "rate", "evaluate"] ∧
      Program.ChecksAs (p.SameRuns q) (p.check "evaluate") (q.check "evaluate") := by
  have hcheck : Program.check ⟨[],
      [.var ⟨"rate", none, some (.literal (.int 2) default), default⟩,
        .function ⟨"evaluate", [], none, .mk [.ret (some (.call (.identifier "twice" default)
          [.identifier "rate" default] default)) default] default, default⟩,
        .function ⟨"twice", [⟨"n", .named "int" default, default⟩], some (.named "float64" default),
          .mk [.ret (some (.call (.identifier "float64" default)
            [.binary .mul (.identifier "n" default) (.literal (.int 2) default) default] default))
              default] default, default⟩]⟩ "evaluate" = .ok ⟨.float, []⟩ := by
    decide +kernel
  exact ⟨_, _, hcheck, .front [] [_, _] [] _, rfl, rfl,
    Program.checksAs_of_reorders (.front [] [_, _] [] _) "evaluate"⟩

end Formula
