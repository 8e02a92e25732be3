import Formula.Proofs.Program.Layout
import Formula.Proofs.Typing.Names
import Formula.Proofs.Typing.Soundness

/-!
# Well-typed programs do not go wrong

A program whose only function is the entry function gives a value of the type that the checker finds
for its result, or stops because a budget is used up or for a reason that is in its values.

## Main definitions

* `Value.Inhabits`: the values that a result type allows for
* `Outcome.IsSound`: how a well-typed program may end
* `FunctionDecl.Typed`: a function is a value of a type wherever its package is

## Main results

* `Setting.initVars_safe`: package-level variables get values of their types
* `SourceFile.run_sound`: how the runs of a compiled program end
-/

namespace Formula

/-- The values that a result type allows for: scalars of just that type, and for a function type
functions of the program or of a package, or no function at all. -/
def Value.Inhabits : Value → Ty → Prop
  | .int _, .int | .float _, .float | .bool _, .bool | .string _, .string => True
  | .closure _, .function .. | .native _, .function .. | .nil, .function .. => True
  | _, _ => False

/-- **How a well-typed program may end**, if it does: with a value of its result type, because a
budget is used up, or with a fault that is in its values. -/
def Outcome.IsSound (t : Ty) : Outcome → Prop
  | value v => v.Inhabits t
  | error e => e.isSafe = true
  | outOfFuel => True

theorem Value.HasType.inhabits {H : StoreTy} {v : Value} {t : Ty} (h : v.HasType H t)
    (hproper : t.isProper = true) (hvalue : t.isValue = true) : v.Inhabits t := by
  cases t with
  | int =>
    obtain ⟨n, rfl⟩ := h.int
    exact trivial
  | float =>
    obtain ⟨x, rfl⟩ := h.float
    exact trivial
  | bool =>
    obtain ⟨b, rfl⟩ := h.bool
    exact trivial
  | string =>
    obtain ⟨a, rfl⟩ := h.string
    exact trivial
  | function params variadic result =>
    -- a function that is unset is one of its type, too
    generalize ht : Ty.function params variadic result = t at h
    cases h with
    | scalar s => cases s <;> cases ht
    | unset | closure =>
      cases ht
      exact trivial
    | native n =>
      rw [← ht]
      exact trivial
    | void | builtin | package => cases ht
  | void | package | builtin => cases hvalue
  | any => cases hproper

variable {initial : Bindings Value}

/-! ## Package-level variables -/

/-- A package-level variable gets its first value. -/
theorem Machine.Typed.declareGlobal {H : StoreTy} {m : Machine} {scopes : Scoped Ty}
    (h : m.Typed initial H) (hglobals : H.globals = scopes.find?) (hne : scopes ≠ [])
    {name : String} {v : Value} {t : Ty} (hname : scopes.find? name = none) (hv : v.HasType H t) :
    Machine.Typed initial { H with globals := (scopes.declare name t).find? }
      { m with globals := m.globals.set name v } := by
  -- names that are new are no names of before, so all values keep their types
  have hle : H.Le { H with globals := (scopes.declare name t).find? } := by
    refine ⟨rfl, fun other u hu => ?_, List.prefix_refl _⟩
    rw [hglobals] at hu
    have : name ≠ other := fun heq => nomatch (heq ▸ hname).symm.trans hu
    simp only [Scoped.find?_declare hne, if_neg this, hu]
  refine ⟨h.size, fun a u ha => (h.cells a u ha).mono hle, fun other u hu => ?_, fun other hu => ?_⟩
  · change (scopes.declare name t).find? other = some u at hu
    rw [Scoped.find?_declare hne] at hu
    rw [Bindings.get?_set]
    split at hu
    · rename_i heq
      cases hu
      exact ⟨v, if_pos heq, hv.mono hle⟩
    · rename_i hne'
      rw [if_neg hne']
      obtain ⟨w, hw, hwt⟩ := h.globals other u (hglobals ▸ hu)
      exact ⟨w, hw, hwt.mono hle⟩
  · change (scopes.declare name t).find? other = none at hu
    rw [Scoped.find?_declare hne] at hu
    rw [Bindings.get?_set]
    split at hu
    · cases hu
    · rename_i hne'
      rw [if_neg hne']
      exact h.others other (hglobals ▸ hu)

theorem env_typed_empty {H : StoreTy} {scopes : Scoped Ty} (hglobals : H.globals = scopes.find?)
    (hne : scopes ≠ []) : Env.Typed H .empty scopes where
  env_ne := List.cons_ne_nil _ _
  scopes_ne := hne
  local_of _ _ _ ha := nomatch ha
  global_of name t _ ht := by rw [hglobals, ht]

/-- **Package-level variables get values of their types**, one after the other. -/
theorem Setting.initVars_safe (s : Setting) {vars : List VarDecl} {scopes scopes' : Scoped Ty}
    (hvars : VarDecl.AllTyped s.types.floats scopes vars scopes') (hne : scopes ≠ [])
    (hfresh : ∀ d ∈ vars, scopes.find? d.name = none) (hnodup : (vars.map (·.name)).Nodup)
    {H : StoreTy} {m : Machine} (hfloats : H.floats = s.types.floats)
    (hglobals : H.globals = scopes.find?) (hm : m.Typed initial H) :
    match s.initVars vars m with
    | .ok _ m' => ∃ H', H'.floats = s.types.floats ∧ H'.globals = scopes'.find? ∧
        m'.Typed initial H'
    | .error e _ => e.isSafe = true := by
  induction vars generalizing scopes H m with
  | nil =>
    cases hvars
    exact ⟨H, hfloats, hglobals, hm⟩
  | cons d vars ih =>
    cases hvars with
    | @cons _ _ _ _ t hd hvars =>
      rw [initVars_cons]
      have hready : s.Ready s.enterTop initial H := ⟨hfloats, s.enter_safe _ hfloats⟩
      have hvalue := evalOr_safe hready (env_typed_empty hglobals hne)
        (fun e _ => (s.sound s.enterTop initial).ofExpr e) hd m hm
      cases heval : s.evalOr s.enterTop .empty (Run.ofExcept (zeroOf d.type)) d.value m with
      | error e m₁ =>
        rw [heval] at hvalue
        rw [Run.bind_of_error heval]
        exact hvalue
      | ok v m₁ =>
        rw [heval] at hvalue
        rw [Run.bind_of_ok heval]
        obtain ⟨H₁, hgrows, hm₁, hv⟩ := hvalue
        have hglobals₁ := hgrows.globals.symm.trans hglobals
        have hname := hfresh d List.mem_cons_self
        rw [List.map_cons, List.nodup_cons] at hnodup
        -- behind the variable its name is in scope, and those that follow are still not
        refine ih hvars (Scoped.declare_ne_nil hne _ _) (fun d' hd' => ?_) hnodup.2
          (H := { H₁ with globals := (scopes.declare d.name t).find? })
          (hgrows.floats.symm.trans hfloats) rfl (hm₁.declareGlobal hglobals₁ hne hname hv)
        rw [Scoped.find?_declare hne, if_neg, hfresh d' (List.mem_cons_of_mem _ hd')]
        exact fun heq => hnodup.1 (heq ▸ List.mem_map_of_mem hd')

/-- Other names stay what they are. -/
theorem VarDecl.AllTyped.find?_eq {floats : List Span} {scopes scopes' : Scoped Ty}
    {vars : List VarDecl} (h : VarDecl.AllTyped floats scopes vars scopes') (hne : scopes ≠ []) :
    scopes' ≠ [] ∧ ∀ name, name ∉ vars.map (·.name) → scopes'.find? name = scopes.find? name := by
  induction h with
  | nil => exact ⟨hne, fun _ _ => rfl⟩
  | cons _ _ ih =>
    obtain ⟨hne', hfind⟩ := ih (Scoped.declare_ne_nil hne _ _)
    refine ⟨hne', fun name hname => ?_⟩
    rw [List.map_cons, List.mem_cons, not_or] at hname
    rw [hfind name hname.2, Scoped.find?_declare hne, if_neg (Ne.symm hname.1)]

/-! ## Functions -/

/-- **A function is a value of the type `t`** on a store that knows the names of its package. -/
def FunctionDecl.Typed (floats : List Span) (scopes : Scoped Ty) (d : FunctionDecl) (t : Ty) : Prop :=
  ∀ H : StoreTy, H.floats = floats → H.globals = scopes.find? →
    (Value.closure d.closure).HasType H t

/-- The entry function has a type without parameters. -/
theorem EntryTyped.typed {floats : List Span} {scopes : Scoped Ty} {d : FunctionDecl} {t : Ty}
    (h : EntryTyped floats scopes d t) (hne : scopes ≠ []) :
    d.Typed floats scopes (.function [] none t) := by
  intro H hfloats hglobals
  obtain ⟨name, params, result, ⟨statements, bodySpan⟩, span⟩ := d
  obtain rfl : params = [] := h.params
  refine .closure (c := FunctionDecl.closure _) (env_typed_empty hglobals hne) rfl h.proper rfl ?_
    (.inr h.terminates)
  rw [hfloats]
  exact h.body

/-! ## Programs -/

/-- **A compilation is well typed**: its variables in order, from the scopes with predeclared
functions and packages to those of the package, and its only function. All names are different. -/
structure Compilation.WellTyped (c : Compilation) (entryPoint : String) (d : FunctionDecl)
    (scopes scopes' : Scoped Ty) : Prop where
  packageScopes : c.program.packageScopes entryPoint = .ok scopes'
  functions : c.program.functions = [d]
  name : d.name = entryPoint
  scopes_ne : scopes ≠ []
  predeclared : ∀ name t, scopes.find? name = some t →
    ∃ v, c.program.initialGlobals.get? name = some v ∧ ∀ H, v.HasType H t
  vars : VarDecl.AllTyped c.types.floats scopes c.program.vars scopes'
  nodup : (c.program.vars.map (·.name)).Nodup
  fresh : ∀ d ∈ c.program.vars, scopes.find? d.name = none
  entry : EntryTyped c.types.floats scopes' d c.types.result
  entry_fresh : scopes'.find? entryPoint = none

/-- A program whose only function is the entry function, and which hides no predeclared name, is
well typed if it is accepted. -/
theorem Program.wellTyped_of_check {p : Program} {entryPoint : String} {types : TypeInfo}
    (hcheck : p.check entryPoint = .ok types) (hspans : p.spans.Nodup)
    (hsimple : ∀ i ∈ p.items, i.SimplePosts) (honly : ∀ d ∈ p.functions, d.name = entryPoint)
    (hnames : ∀ i ∈ p.items, ∀ b : Builtin, i.name ≠ b.name) :
    ∃ d scopes scopes', Compilation.WellTyped ⟨p, types⟩ entryPoint d scopes scopes' := by
  obtain ⟨taken, scopes, scopes₁, notes, himports, hnamed, hbodies, hfloats⟩ :=
    Program.check_eq_ok hcheck
  obtain ⟨hnodup, htaken⟩ := nodup_of_checkNames hnamed
  obtain rfl := checkNames_eq_ok honly hnamed
  have hpre := predeclared_of_checkImports predeclared_universe himports
  -- names that are in scope outside are predeclared or in use, so that a declared one is neither
  have hfresh (i : Item) (hi : i ∈ p.items) : scopes₁.find? i.name = none :=
    hpre.find?_eq_none (htaken i hi) (hnames i hi)
  have hnames' := p.names_perm.nodup_iff.mp hnodup
  obtain ⟨hvarNames, hfunctionNames, hdisjoint⟩ := List.nodup_append.mp hnames'
  obtain ⟨d, hd⟩ : ∃ d, p.functions = [d] := by
    rcases hf : p.functions with _ | ⟨d, _ | ⟨d', functions⟩⟩
    · exact absurd hf (functions_ne_nil hbodies)
    · exact ⟨d, rfl⟩
    · rw [hf] at honly hfunctionNames
      simp [honly d, honly d'] at hfunctionNames
  have hname : d.name = entryPoint := honly d (hd ▸ List.mem_cons_self)
  obtain ⟨scopes', n, hvars, htyped, hentry⟩ :=
    checkBodies_eq_ok hbodies hd hname hpre.proper hspans hsimple
  rw [← hfloats] at htyped hentry
  have hitem {i : Item} {name : String} (hi : i ∈ p.items) (h : i.name = name) :
      scopes₁.find? name = none := h ▸ hfresh i hi
  have hentryFresh : scopes₁.find? entryPoint = none := by
    exact hitem (mem_functions.mp (hd ▸ List.mem_cons_self)) hname
  refine ⟨d, scopes₁, scopes', ?_, hd, hname, hpre.ne, fun name t ht => ?_, htyped, hvarNames,
    fun d' hd' => ?_, hentry, ?_⟩
  · simp only [Program.packageScopes, himports, hnamed, bind, Except.bind]
    rw [hvars]
    rfl
  · -- the entry function hides none of the values that are in scope
    obtain ⟨v, hv, hvt⟩ := hpre.values name t ht
    have hne : entryPoint ≠ name := by
      rintro rfl
      cases hentryFresh.symm.trans ht
    refine ⟨v, ?_, hvt⟩
    rw [Program.initialGlobals, hd]
    dsimp only [List.foldl_cons, List.foldl_nil]
    rw [Bindings.get?_set, if_neg (hname ▸ hne)]
    exact hv
  · exact hitem (mem_vars.mp hd') rfl
  · rw [(htyped.find?_eq hpre.ne).2, hentryFresh]
    intro hmem
    refine hdisjoint _ hmem d.name ?_ hname.symm
    rw [hd]
    exact List.mem_cons_self

namespace Compilation.WellTyped

variable {c : Compilation} {entryPoint : String} {d : FunctionDecl} {scopes scopes' : Scoped Ty}
  {s : Setting} {bindings : List (String × Scalar)}

/-- Values from outside replace those of variables of the same types. -/
theorem bindings_safe {H : StoreTy}
    (hbindings : ∀ b ∈ bindings, H.globals b.1 = some (.ofScalar b.2.type)) :
    Run.Safe initial H (bindings.forM fun (name, value) => Run.setGlobal name (.scalar value))
      fun _ _ => True := by
  induction bindings generalizing H with
  | nil => exact .pure trivial
  | cons b bindings ih =>
    obtain ⟨hb, hrest⟩ := List.forall_mem_cons.mp hbindings
    have hset : Run.Safe initial H (Run.setGlobal b.1 (.scalar b.2)) fun _ _ => True :=
      fun m hm => ⟨H, .refl H, hm.setGlobal hb (.scalar b.2), trivial⟩
    exact hset.bind fun H' _ hgrows _ => ih (hgrows.globals ▸ hrest)

/-- What comes behind the package-level variables is safe. -/
theorem call_safe (h : c.WellTyped entryPoint d scopes scopes') (htypes : s.types = c.types)
    (hentry : s.config.entryPoint = entryPoint)
    (hbindings : ∀ b ∈ bindings, scopes'.find? b.1 = some (.ofScalar b.2.type)) {H : StoreTy}
    (hfloats : H.floats = s.types.floats) (hglobals : H.globals = scopes'.find?) :
    Run.Safe c.program.initialGlobals H (do
      bindings.forM fun (name, value) => Run.setGlobal name (.scalar value)
      match (← get).globals.get? s.config.entryPoint with
      | some f => s.apply s.enterTop f []
      | none => Run.fail (.noEntryPoint s.config.entryPoint))
      fun _ v => v.Inhabits c.types.result := by
  refine (bindings_safe (hglobals ▸ hbindings)).bind fun H₁ _ h₁ _ => ?_
  have hget : Run.Safe c.program.initialGlobals H₁ (get : Run Machine)
      fun H' m => H' = H₁ ∧ m.Typed c.program.initialGlobals H' :=
    fun m hm => ⟨H₁, .refl H₁, hm, rfl, hm⟩
  refine hget.bind fun H₂ m _ hm => ?_
  obtain ⟨rfl, hm⟩ := hm
  have hglobals₁ := h₁.globals.symm.trans hglobals
  have hfloats₁ := h₁.floats.symm.trans hfloats
  -- The entry function is still what it was at the start, as no variable has its name.
  have hfunction : m.globals.get? s.config.entryPoint = some (.closure d.closure) := by
    rw [hentry, hm.others entryPoint (by rw [hglobals₁, h.entry_fresh]), Program.initialGlobals,
      h.functions, ← h.name]
    exact Bindings.get?_set_self ..
  rw [hfunction]
  refine (Setting.apply_safe s (s.enter_safe _ hfloats₁)
    (h.entry.typed (h.vars.find?_eq h.scopes_ne).1 H₂ (hfloats₁.trans (congrArg _ htypes)) hglobals₁)
    .nil).weaken
    fun H₃ v _ hv => ?_
  exact hv.inhabits h.entry.proper h.entry.isValue

/-- **The runs of a well-typed program** give values of its result type, or stop as they may. -/
theorem execute_safe (h : c.WellTyped entryPoint d scopes scopes') (htypes : s.types = c.types)
    (hentry : s.config.entryPoint = entryPoint)
    (hbindings : ∀ b ∈ bindings, scopes'.find? b.1 = some (.ofScalar b.2.type)) :
    match s.execute c.program bindings {} with
    | .ok v _ => Value.Inhabits v c.types.result
    | .error e _ => Stop.isSafe e = true := by
  -- at the start the globals are those outside of the program, and no cell is used
  have hm : Machine.Typed c.program.initialGlobals ⟨s.types.floats, scopes.find?, []⟩
      { globals := c.program.initialGlobals } := by
    refine ⟨rfl, nofun, fun name t ht => ?_, fun _ _ => rfl⟩
    obtain ⟨v, hv, hvt⟩ := h.predeclared name t ht
    exact ⟨v, hv, hvt _⟩
  have hvars := s.initVars_safe (htypes ▸ h.vars) h.scopes_ne h.fresh h.nodup rfl rfl hm
  have hrun : s.execute c.program bindings {} = (s.initVars c.program.vars >>= fun _ => do
      bindings.forM fun (name, value) => Run.setGlobal name (.scalar value)
      match (← get).globals.get? s.config.entryPoint with
      | some f => s.apply s.enterTop f []
      | none => Run.fail (.noEntryPoint s.config.entryPoint))
      { globals := c.program.initialGlobals } := rfl
  rw [hrun]
  cases hinit : s.initVars c.program.vars { globals := c.program.initialGlobals } with
  | error e m =>
    rw [hinit] at hvars
    rw [Run.bind_of_error hinit]
    exact hvars
  | ok r m =>
    rw [hinit] at hvars
    rw [Run.bind_of_ok hinit]
    obtain ⟨H, hfloats, hglobals, hm⟩ := hvars
    have hcall := h.call_safe htypes hentry hbindings hfloats hglobals m hm
    split at hcall
    · rename_i heq
      rw [heq]
      obtain ⟨_, _, _, hv⟩ := hcall
      exact hv
    · rename_i heq
      rw [heq]
      exact hcall

end Compilation.WellTyped

/-- **A well-typed program does not go wrong.** However a program is compiled whose only function is
the entry function and which hides no predeclared name: if a run of it ends, it gives a value of the
result type, or a budget is used up, or the fault is in the values of the program. -/
theorem SourceFile.run_sound {f : SourceFile} {entryPoint : String} {c : Compilation}
    (hc : f.compile entryPoint = .ok c) (honly : ∀ d ∈ c.program.functions, d.name = entryPoint)
    (hnames : ∀ i ∈ c.program.items, ∀ b : Builtin, i.name ≠ b.name)
    {bindings : List (String × Scalar)}
    (hbindings : ∀ b ∈ bindings, c.program.HasVar entryPoint b.1 (.ofScalar b.2.type))
    {config : Config} (hconfig : config.entryPoint = entryPoint) (world : World) (fuel : Nat) :
    (c.run config world bindings fuel).IsSound c.types.result := by
  have hparts := SourceFile.compile_eq_ok hc
  obtain ⟨hspans, hsimple⟩ := SourceFile.nodup_spans hparts.1
  obtain ⟨d, scopes, scopes', h⟩ :=
    Program.wellTyped_of_check hparts.2 hspans hsimple honly hnames
  have hbindings' : ∀ b ∈ bindings, scopes'.find? b.1 = some (.ofScalar b.2.type) := by
    intro b hb
    obtain ⟨-, scopes'', hscopes, hfound⟩ := hbindings b hb
    cases h.packageScopes.symm.trans hscopes
    exact hfound
  have hsafe := h.execute_safe (s := ⟨c.types, config, world, fuel⟩) rfl hconfig hbindings'
  unfold Compilation.run
  rw [EStateM.run]
  split at hsafe
  · rename_i heq
    rw [heq]
    exact hsafe
  · rename_i e _ heq
    rw [heq]
    -- running out of fuel is no end of a run
    cases e with
    | error e => exact hsafe
    | outOfFuel => exact trivial

/-- A program that divides by a variable that is given from outside as zero. -/
theorem SourceFile.run_sound_quotient : ∃ c, (SourceFile.ofText 0 "quotient"
      "var n int = 2\nfunc evaluate() int \x7b return 10 / n \x7d").compile "evaluate" = .ok c ∧
    ∀ world fuel, (c.run {} world [("n", .int 0)] fuel).IsSound c.types.result := by
  have hchecks : (match (SourceFile.ofText 0 "quotient"
        "var n int = 2\nfunc evaluate() int \x7b return 10 / n \x7d").compile "evaluate" with
      | .ok c => c.program.functions.all (·.name == "evaluate") &&
          c.program.items.all (fun i => Builtin.all.all (i.name != ·.name)) &&
          c.program.vars.any (·.name == "n") &&
          (match c.program.packageScopes "evaluate" with
          | .ok scopes => scopes.find? "n" == some .int
          | .error _ => false)
      | .error _ => false) = true := by
    decide +kernel
  split at hchecks
  · rename_i c hc
    simp only [Bool.and_eq_true, List.all_eq_true, List.any_eq_true, beq_iff_eq, bne_iff_ne]
      at hchecks
    obtain ⟨⟨⟨honly, hnames⟩, hvar⟩, hscopes⟩ := hchecks
    split at hscopes
    · rename_i scopes hpackage
      refine ⟨c, hc, fun world fuel => SourceFile.run_sound hc honly
        (fun i hi b => hnames i hi b b.mem_all) (fun b hb => ?_) rfl world fuel⟩
      cases List.mem_singleton.mp hb
      exact ⟨hvar, scopes, hpackage, beq_iff_eq.mp hscopes⟩
    · cases hscopes
  · cases hchecks

end Formula
