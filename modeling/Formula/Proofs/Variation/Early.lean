import Formula.Proofs.Variation.Running
import Formula.Proofs.Variation.Typed

/-!
# Variables that are read early

A function that is called before all package-level variables have got their initial values may come to a
variable that stands for nothing. That is the only way in which a well-typed program goes wrong: if all
variables stood for some value of their types from the start, a run would do the same, and it would be
sound.

## Main definitions

* `Ty.filler`: some value of a type
* `Program.filledGlobals`: the names at the start of a run, with all variables among them
* `Variation.early`: two runs of which the second one may not find variables

## Main results

* `Program.Typed.start_safe`: with all variables among the names, a run is safe
* `Compilation.run_sound_or_undefined`: how the runs of an accepted program end
-/

namespace Formula

/-! ## Values to begin with -/

/-- Some value of a type. -/
def Ty.filler : Ty → Value
  | .int => .int 0
  | .float => .float 0
  | .bool => .bool false
  | .string => .string ""
  | .package path => .package path
  | .builtin b => .builtin b
  | .function .. | .void | .any => .nil

theorem Ty.hasType_filler {H : StoreTy} {t : Ty} (h : t.isProper = true) : t.filler.HasType H t := by
  cases t with
  | int => exact .scalar (.int 0)
  | float => exact .scalar (.float 0)
  | bool => exact .scalar (.bool false)
  | string => exact .scalar (.string "")
  | package path => exact .package path
  | builtin b => exact .builtin b
  | function => exact .unset
  | void => exact .void
  | any => cases h

/-- **The names at the start of a run, with all variables among them.** -/
def Program.filledGlobals (p : Program) (scopes : Scoped Ty) : Bindings Value :=
  p.initialGlobals.setAll (p.vars.map fun d => (d.name, ((scopes.find? d.name).getD .void).filler))

section Filled

variable {p : Program} {scopes : Scoped Ty} {name : String}

theorem Program.map_fst_vars (p : Program) (scopes : Scoped Ty) :
    (p.vars.map fun d => (d.name, ((scopes.find? d.name).getD .void).filler)).map Prod.fst =
      p.vars.map (·.name) := by
  rw [List.map_map]
  rfl

theorem Program.get?_filledGlobals_of_notMem (h : name ∉ p.vars.map (·.name)) :
    (p.filledGlobals scopes).get? name = p.initialGlobals.get? name :=
  Bindings.get?_setAll_of_notMem (p.map_fst_vars scopes ▸ h)

theorem Program.get?_filledGlobals_of_mem (hnodup : (p.vars.map (·.name)).Nodup) {t : Ty}
    (h : name ∈ p.vars.map (·.name)) (ht : scopes.find? name = some t) :
    (p.filledGlobals scopes).get? name = some t.filler := by
  refine Bindings.get?_setAll_of_mem (p.map_fst_vars scopes ▸ hnodup) ?_
  obtain ⟨d, hd, rfl⟩ := List.mem_map.mp h
  exact List.mem_map.mpr ⟨d, hd, by rw [ht, Option.getD_some]⟩

end Filled

/-! ## Runs from filled tables -/

variable {initial : Bindings Value} {H : StoreTy}

/-- Outside of all functions, names are those of the package. -/
theorem env_typed_of_le {scopes : Scoped Ty} (hne : scopes ≠ [])
    (hle : ∀ name t, scopes.find? name = some t → H.globals name = some t) :
    Env.Typed H .empty scopes where
  env_ne := List.cons_ne_nil _ _
  scopes_ne := hne
  local_of _ _ _ ha := by cases ha
  global_of name t _ ht := hle name t ht

/-- **Variables that stand for values of their types get others.** -/
theorem Setting.initVars_safe_of_le (s : Setting) {vars : List VarDecl} {scopes scopes' : Scoped Ty}
    (hvars : VarDecl.AllTyped s.types.floats scopes vars scopes') (hne : scopes ≠ [])
    (hnodup : (vars.map (·.name)).Nodup) (hfloats : H.floats = s.types.floats)
    (hglobals : H.globals = scopes'.find?)
    (hle : ∀ name t, scopes.find? name = some t → scopes'.find? name = some t) :
    Run.Safe initial H (s.initVars vars) fun _ _ => True := by
  induction vars generalizing scopes H with
  | nil => exact .pure trivial
  | cons d vars ih =>
    rw [List.map_cons, List.nodup_cons] at hnodup
    cases hvars with
    | @cons _ _ _ _ t hd hvars =>
      have hne' := Scoped.declare_ne_nil hne d.name t
      have hname : scopes'.find? d.name = some t := by
        rw [(hvars.find?_eq hne').2 _ hnodup.1, Scoped.find?_declare hne, if_pos rfl]
      rw [initVars_cons]
      have hready : s.Ready s.enterTop initial H := ⟨hfloats, s.enter_safe _ hfloats⟩
      refine (evalOr_safe hready (env_typed_of_le hne (hglobals ▸ hle))
        (fun e _ => (s.sound s.enterTop initial).ofExpr e) hd).bind fun H₁ v h₁ hv => ?_
      have hglobals₁ := h₁.globals.symm.trans hglobals
      have hset : Run.Safe initial H₁ (Run.setGlobal d.name v) fun _ _ => True := fun m hm =>
        ⟨H₁, .refl H₁, hm.setGlobal (by rw [hglobals₁, hname]) hv, trivial⟩
      refine hset.bind fun H₂ _ h₂ _ => ih hvars hne' hnodup.2
        ((h₁.trans h₂).floats.symm.trans hfloats) ((h₁.trans h₂).globals.symm.trans hglobals) ?_
      intro name u hu
      rw [Scoped.find?_declare hne] at hu
      split at hu
      · rename_i heq
        exact heq ▸ hu ▸ hname
      · exact hle name u hu

namespace Program.Typed

variable {p : Program} {entryPoint : String} {types : TypeInfo} {scopes scopes' : Scoped Ty}
  (h : p.Typed entryPoint types scopes scopes')

include h

theorem find?_of_find? (name : String) (t : Ty) (ht : scopes.find? name = some t) :
    scopes'.find? name = some t := by
  rw [(h.vars.find?_eq h.scopes_ne).2, ht]
  intro hmem
  obtain ⟨d, hd, rfl⟩ := List.mem_map.mp hmem
  cases (h.fresh d hd).1.symm.trans ht

/-- At the start, filled tables hold values of the right types. -/
theorem machine_typed : Machine.Typed (p.filledGlobals scopes') ⟨types.floats, scopes'.find?, []⟩
    { globals := p.filledGlobals scopes' } := by
  refine ⟨rfl, by simp, fun name t ht => ?_, fun _ _ => rfl⟩
  by_cases hmem : name ∈ p.vars.map (·.name)
  · exact ⟨_, get?_filledGlobals_of_mem h.nodup hmem ht, Ty.hasType_filler (h.proper name t ht)⟩
  · have ht' : scopes.find? name = some t := (h.vars.find?_eq h.scopes_ne).2 name hmem ▸ ht
    obtain ⟨v, hv, hvt⟩ := h.values name t ht'
    exact ⟨v, (get?_filledGlobals_of_notMem hmem).trans hv, hvt _ rfl rfl⟩

/-- **With all variables among the names, a run is safe**, and gives a value of the result type. -/
theorem start_safe {s : Setting} (htypes : s.types = types) (hentry : s.config.entryPoint = entryPoint)
    {bindings : List (String × Scalar)}
    (hbindings : ∀ b ∈ bindings, scopes'.find? b.1 = some (.ofScalar b.2.type)) :
    Run.Safe (p.filledGlobals scopes') ⟨types.floats, scopes'.find?, []⟩ (s.start p.vars bindings)
      fun _ v => v.Inhabits types.result := by
  subst htypes
  refine (s.initVars_safe_of_le h.vars h.scopes_ne h.nodup rfl rfl h.find?_of_find?).bind
    fun H₁ _ h₁ _ => ?_
  refine (Compilation.WellTyped.bindings_safe (h₁.globals ▸ hbindings)).bind fun H₂ _ h₂ _ m hm => ?_
  obtain ⟨d, hd, htyped⟩ := h.entry
  have hglobals : scopes'.find? = H₂.globals := (h₁.trans h₂).globals
  have hfloats : s.types.floats = H₂.floats := (h₁.trans h₂).floats
  -- The entry function is still what it was at the start, as no variable has its name.
  have hfunction : m.globals.get? s.config.entryPoint = some (.closure d.closure) := by
    rw [hentry, hm.others entryPoint (by rw [← hglobals, h.entry_fresh]),
      get?_filledGlobals_of_notMem h.entry_notMem, hd]
  have hclosure := htyped.typed (h.vars.find?_eq h.scopes_ne).1 H₂ hfloats.symm hglobals.symm
  have hcall : Run.Safe (p.filledGlobals scopes') H₂ (s.apply s.enterTop (.closure d.closure) [])
      fun _ v => v.Inhabits s.types.result :=
    (Setting.apply_safe s (s.enter_safe _ hfloats.symm) hclosure .nil).weaken
      fun _ v _ hv => hv.inhabits htyped.proper htyped.isValue
  have heq : s.callEntry m = s.apply s.enterTop (.closure d.closure) [] m := by
    rw [Setting.callEntry, hfunction]
  rw [heq]
  exact hcall m hm

end Program.Typed

/-! ## Runs -/

/-- Two runs of which the second one may not find variables. -/
def Variation.early (p : Program) : Variation :=
  { Variation.same with gaps name := name ∈ p.vars.map (·.name) }

theorem Variation.old_early (p : Program) (span : Span) : (early p).Old span :=
  ⟨fun _ => not_false, not_false⟩

/-- A run does what it would do with all variables among the names, or it does not find one. -/
theorem Program.Typed.start_varies {p : Program} {entryPoint : String} {types : TypeInfo}
    {scopes scopes' : Scoped Ty} (h : p.Typed entryPoint types scopes scopes') {s : Setting}
    (hentry : s.config.entryPoint = entryPoint) (bindings : List (String × Scalar)) :
    Run.Ends (.early p) (Value.Variant (.early p))
      (s.start p.vars bindings { globals := p.filledGlobals scopes' })
      (s.start p.vars bindings { globals := p.initialGlobals }) := by
  have hold := Variation.old_early p
  have hp : p.Variant (.early p) p := .refl hold fun _ _ _ _ _ => trivial
  have hsetting : Setting.Variant (.early p) s s := ⟨fun _ _ => rfl, fun _ _ h => h.elim, rfl, rfl, rfl⟩
  have hstands (name : String) : (Variation.early p).Stands name
      ((p.filledGlobals scopes').get? name) (p.initialGlobals.get? name) := by
    by_cases hmem : name ∈ p.vars.map (·.name)
    · obtain ⟨d, hd, rfl⟩ := List.mem_map.mp hmem
      rw [(h.fresh d hd).2]
      exact .gap hmem
    · rw [get?_filledGlobals_of_notMem hmem]
      exact hp.stands name
  exact hsetting.start hp.vars (.bindings bindings) trivial (hentry ▸ h.entry_notMem) _ _
    ⟨rfl, fun _ => .nil, fun name _ => hstands name, rfl, rfl⟩

/-- **How the runs of an accepted program end** that hides no predeclared name, whatever functions it has:
as a well-typed program may, or because a package-level variable is read before it has got its initial
value. -/
theorem Compilation.run_sound_or_undefined {c : Compilation} {entryPoint : String}
    (hcheck : c.program.check entryPoint = .ok c.types) (hspans : c.program.spans.Nodup)
    (hsimple : ∀ i ∈ c.program.items, i.SimplePosts)
    (hnames : ∀ i ∈ c.program.items, ∀ b : Builtin, i.name ≠ b.name)
    {bindings : List (String × Scalar)}
    (hbindings : ∀ b ∈ bindings, c.program.HasVar entryPoint b.1 (.ofScalar b.2.type))
    {config : Config} (hconfig : config.entryPoint = entryPoint) (world : World) (fuel : Nat) :
    (c.run config world bindings fuel).IsSound c.types.result ∨ ∃ d ∈ c.program.vars,
      c.run config world bindings fuel = .error (.fault (.undefinedName d.name)) := by
  obtain ⟨scopes, scopes', h⟩ := Program.typed_of_check hcheck hspans hsimple hnames
  have hbindings' : ∀ b ∈ bindings, scopes'.find? b.1 = some (.ofScalar b.2.type) := by
    intro b hb
    obtain ⟨-, scopes'', hscopes, hfound⟩ := hbindings b hb
    cases h.packageScopes.symm.trans hscopes
    exact hfound
  have hsafe := h.start_safe (s := c.setting config world fuel) rfl hconfig hbindings' _ h.machine_typed
  have hends := h.start_varies (s := c.setting config world fuel) hconfig bindings
  rw [run_eq, result, Setting.execute_eq]
  rcases hends.outcome_eq_or (Variation.old_early c.program) with heq | ⟨name, hname, heq⟩
  · left
    rw [heq]
    generalize Setting.start _ _ _ _ = r at hsafe
    cases r with
    | ok v m =>
      obtain ⟨_, _, _, hv⟩ := hsafe
      exact hv
    | error e m =>
      cases e with
      | error e => exact hsafe
      | outOfFuel => exact trivial
  · obtain ⟨d, hd, rfl⟩ := List.mem_map.mp hname
    exact .inr ⟨d, hd, heq⟩

end Formula
