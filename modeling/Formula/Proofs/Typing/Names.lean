import Formula.Machine.Execution
import Formula.Proofs.Typing.Bodies
import Formula.Proofs.Typing.Values

/-!
# Package-level names

The checker declares predeclared functions and imported packages first, and so does a run. A name that
the program declares itself is not one of theirs.

## Main definitions

* `Predeclared taken scopes globals`: what is in scope stands for what the checker says
* `Item.Declares`: what a declaration adds to the scopes before the bodies are checked
* `Program.packageScopes`: the scopes in which the bodies of functions are checked

## Main results

* `predeclared_of_checkImports`: predeclared functions and packages
* `checkNames_cons_ok_iff`: names are accepted one after the other
* `nodup_of_checkNames`: no name is declared twice
-/

namespace Formula

/-- **Names that are in scope stand for what the checker says**, and are in use unless they are
predeclared. -/
structure Predeclared (taken : List String) (scopes : Scoped Ty) (globals : Bindings Value) :
    Prop where
  ne : scopes ≠ []
  proper : ProperScopes scopes
  values : ∀ name t, scopes.find? name = some t →
    ∃ v, globals.get? name = some v ∧ ∀ H, v.HasType H t
  names : ∀ name t, scopes.find? name = some t → name ∈ taken ∨ ∃ b : Builtin, b.name = name

/-- The predeclared functions as a run knows them. -/
def predeclaredGlobals : Bindings Value :=
  Builtin.all.foldl (fun b f => b.set f.name (.builtin f)) []

theorem predeclared_universe : Predeclared [] universeScopes predeclaredGlobals := by
  -- both tables are filled with the same names, in the same order
  have htables (bs : List Builtin) (types : Bindings Ty) (values : Bindings Value)
      (h : ∀ name t, types.get? name = some t → ∃ b : Builtin, b.name = name ∧ t = .builtin b ∧
        values.get? name = some (.builtin b)) :
      ∀ name t, (bs.foldl (fun b f => b.set f.name (.builtin f)) types).get? name = some t →
        ∃ b : Builtin, b.name = name ∧ t = .builtin b ∧
          (bs.foldl (fun b f => b.set f.name (.builtin f)) values).get? name =
            some (Value.builtin b) := by
    induction bs generalizing types values with
    | nil => exact h
    | cons f bs ih =>
      refine ih _ _ fun name t ht => ?_
      rw [Bindings.get?_set] at ht ⊢
      split at ht
      · rename_i heq
        cases ht
        exact ⟨f, heq, rfl, by rw [if_pos heq]⟩
      · rename_i hne
        rw [if_neg hne]
        exact h name t ht
  have hfind (name : String) (t : Ty) (ht : universeScopes.find? name = some t) :
      ∃ b : Builtin, b.name = name ∧ t = .builtin b ∧
        predeclaredGlobals.get? name = some (.builtin b) := by
    refine htables Builtin.all [] [] nofun name t ?_
    rw [universeScopes, Scoped.find?_push, Scoped.find?, List.findSome?_singleton] at ht
    exact ht
  refine ⟨List.cons_ne_nil _ _, fun name t ht => ?_, fun name t ht => ?_, fun name t ht => ?_⟩
  · obtain ⟨b, -, rfl, -⟩ := hfind name t ht
    rfl
  · obtain ⟨b, -, rfl, hb⟩ := hfind name t ht
    exact ⟨_, hb, fun _ => .builtin b⟩
  · obtain ⟨b, hb, -⟩ := hfind name t ht
    exact .inr ⟨b, hb⟩

/-- A name that is not in use and not predeclared is not in scope. -/
theorem Predeclared.find?_eq_none {taken : List String} {scopes : Scoped Ty} {globals : Bindings Value}
    (h : Predeclared taken scopes globals) {name : String} (htaken : name ∉ taken)
    (hbuiltin : ∀ b : Builtin, name ≠ b.name) : scopes.find? name = none := by
  refine Option.eq_none_iff_forall_ne_some.mpr fun t ht => ?_
  rcases h.names name t ht with hmem | ⟨b, hb⟩
  · exact htaken hmem
  · exact hbuiltin b hb.symm

theorem predeclared_of_checkImports {taken taken' : List String} {scopes scopes' : Scoped Ty}
    {globals : Bindings Value} {imports : List ImportDecl} (h : Predeclared taken scopes globals)
    (hcheck : checkImports taken scopes imports = .ok (taken', scopes')) :
    Predeclared taken' scopes'
      (imports.foldl (fun b i => b.set i.binding (.package i.path)) globals) := by
  induction imports generalizing taken scopes globals with
  | nil =>
    cases hcheck
    exact h
  | cons i imports ih =>
    rw [checkImports] at hcheck
    split at hcheck
    · cases hcheck
    split at hcheck
    · cases hcheck
    -- the import stands for its package in both, and all other names for what they did
    refine ih ⟨?_, h.proper.declare _ rfl, fun name t ht => ?_, fun name t ht => ?_⟩ hcheck
    · intro hnil
      exact h.ne (List.eq_nil_of_length_eq_zero (by
        rw [← Scoped.length_declare, hnil, List.length_nil]))
    all_goals
      rw [Scoped.find?_declare h.ne] at ht
      split at ht
    · rename_i heq
      cases ht
      refine ⟨.package i.path, ?_, fun _ => .package i.path⟩
      dsimp only
      rw [heq, Bindings.get?_set_self]
    · rename_i hne
      dsimp only
      rw [Bindings.get?_set, if_neg hne]
      exact h.values name t ht
    · rename_i heq
      exact .inl (heq ▸ List.mem_cons_self)
    · exact (h.names name t ht).imp (List.mem_cons_of_mem _) id

/-! ## Names that a program declares -/

/-- What a declaration adds to the scopes in which the bodies of functions are checked: a function that
is not the entry function is in scope, with its type. -/
inductive Item.Declares (entryPoint : String) (scopes : Scoped Ty) : Item → Scoped Ty → Prop where
  | var {d} : Declares entryPoint scopes (.var d) scopes
  | entry {d} (h : d.name = entryPoint) : Declares entryPoint scopes (.function d) scopes
  | function {d t} (h : d.name ≠ entryPoint) (ht : functionType d.params d.result = .ok t) :
      Declares entryPoint scopes (.function d) (scopes.declare d.name t)

section Names

variable {entryPoint : String} {taken : List String} {scopes scopes' : Scoped Ty}

/-- Names are accepted one after the other; each is in use for those behind it. -/
theorem checkNames_cons_ok_iff {i : Item} {items : List Item} :
    checkNames entryPoint taken scopes (i :: items) = .ok scopes' ↔
      i.name ∉ taken ∧ ∃ inner, i.Declares entryPoint scopes inner ∧
        checkNames entryPoint (i.name :: taken) inner items = .ok scopes' := by
  constructor
  · intro h
    unfold checkNames at h
    split at h
    · cases h
    rename_i hfresh
    refine ⟨hfresh, ?_⟩
    cases i with
    | var d => exact ⟨scopes, .var, h⟩
    | function d =>
      dsimp only at h
      split at h
      · exact ⟨scopes, .entry ‹_›, h⟩
      · rename_i hother
        split at h
        · cases h
        · exact ⟨_, .function hother ‹_›, h⟩
  · rintro ⟨hfresh, inner, hinner, h⟩
    unfold checkNames
    rw [if_neg hfresh]
    cases hinner with
    | var => exact h
    | entry hentry =>
      dsimp only
      rwa [if_pos hentry]
    | function hother ht =>
      dsimp only
      rwa [if_neg hother, ht]

/-- The names of a program are all different, and none of them is in use. -/
theorem nodup_of_checkNames {items : List Item}
    (h : checkNames entryPoint taken scopes items = .ok scopes') :
    (items.map Item.name).Nodup ∧ ∀ i ∈ items, i.name ∉ taken := by
  induction items generalizing taken scopes with
  | nil => exact ⟨.nil, nofun⟩
  | cons i items ih =>
    obtain ⟨hfresh, inner, -, hrest⟩ := checkNames_cons_ok_iff.mp h
    obtain ⟨hnodup, htaken⟩ := ih hrest
    refine ⟨?_, List.forall_mem_cons.mpr ⟨hfresh, fun j hj hmem => ?_⟩⟩
    · rw [List.map_cons, List.nodup_cons]
      refine ⟨fun hmem => ?_, hnodup⟩
      obtain ⟨j, hj, hname⟩ := List.mem_map.mp hmem
      exact htaken j hj (hname ▸ List.mem_cons_self)
    · exact htaken j hj (List.mem_cons_of_mem _ hmem)

/-- If only the entry function is a function, no function is in scope. -/
theorem checkNames_eq_ok {items : List Item}
    (honly : ∀ d ∈ items.filterMap Item.function?, d.name = entryPoint)
    (h : checkNames entryPoint taken scopes items = .ok scopes') : scopes' = scopes := by
  induction items generalizing taken scopes with
  | nil =>
    cases h
    rfl
  | cons i items ih =>
    obtain ⟨-, inner, hinner, hrest⟩ := checkNames_cons_ok_iff.mp h
    have honly' : ∀ d ∈ items.filterMap Item.function?, d.name = entryPoint := by
      intro d hd
      refine honly d ?_
      obtain ⟨j, hj, hjd⟩ := List.mem_filterMap.mp hd
      exact List.mem_filterMap.mpr ⟨j, List.mem_cons_of_mem _ hj, hjd⟩
    obtain rfl := ih honly' hrest
    cases hinner with
    | var => rfl
    | entry => rfl
    | @function d _ hother => exact absurd (honly d List.mem_cons_self) hother

end Names

/-- The scopes in which the bodies of the functions of a program are checked. -/
def Program.packageScopes (p : Program) (entryPoint : String) : Except TypeError (Scoped Ty) := do
  let (taken, scopes) ← checkImports [] universeScopes p.imports
  let scopes ← checkNames entryPoint taken scopes p.items
  let (scopes, _) ← (checkVars scopes p.vars).run {}
  return scopes

/-- A program declares a package-level variable of the given type. -/
def Program.HasVar (p : Program) (entryPoint name : String) (t : Ty) : Prop :=
  (∃ d ∈ p.vars, d.name = name) ∧
    ∃ scopes, p.packageScopes entryPoint = .ok scopes ∧ scopes.find? name = some t

end Formula
