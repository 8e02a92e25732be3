import Formula.Proofs.Resolution.Follow
import Formula.Proofs.Typing.Names

/-!
# Package-level names

Imports, functions and variables of a program have different names. The checker declares them in the
same scopes in which they are here; a run keeps all of them in one table, which the variables enter
only when they get their initial values.

## Main results

* `Program.reached`: what is reached by a name that the checker finds outside of all functions
* `Alike.checkImports`, `Alike.checkNames`, `Alike.vars`: the scopes of the checker
* `Program.nodup_declarations`: no package-level name is declared twice
-/

namespace Formula

/-! ## Names that are declared one after the other -/

section Tables

variable {α : Type} {entries : List (String × α)} {name : String} {a : α}

namespace Bindings

variable {b : Bindings α}

/-- Other names stand for what they did before. -/
theorem get?_setAll_of_notMem (h : name ∉ entries.map Prod.fst) :
    (b.setAll entries).get? name = b.get? name := by
  induction entries generalizing b with
  | nil => rfl
  | cons e entries ih =>
    rw [List.map_cons, List.mem_cons, not_or] at h
    rw [setAll, List.foldl_cons]
    exact (ih h.2).trans ((get?_set ..).trans (if_neg (Ne.symm h.1)))

/-- A name that is there once stands for what it is given. -/
theorem get?_setAll_of_mem (hnodup : (entries.map Prod.fst).Nodup) (h : (name, a) ∈ entries) :
    (b.setAll entries).get? name = some a := by
  induction entries generalizing b with
  | nil => cases h
  | cons e entries ih =>
    rw [List.map_cons, List.nodup_cons] at hnodup
    rw [setAll, List.foldl_cons]
    rcases List.mem_cons.mp h with rfl | h
    · exact (get?_setAll_of_notMem hnodup.1).trans (get?_set_self ..)
    · exact ih hnodup.2 h

theorem setAll_append (more : List (String × α)) :
    b.setAll (entries ++ more) = (b.setAll entries).setAll more :=
  List.foldl_append

end Bindings

namespace Scoped

variable {scopes : Scoped α}

theorem declareAll_cons (b : Bindings α) (scopes : Scoped α) (entries : List (String × α)) :
    declareAll (b :: scopes) entries = b.setAll entries :: scopes := by
  induction entries generalizing b with
  | nil => rfl
  | cons e entries ih => exact ih _

end Scoped

end Tables

/-! ## Declarations of a program -/

theorem mem_take_zipIdx {α : Type} {l : List α} {a : α} {i n : Nat} :
    (a, i) ∈ l.zipIdx.take n ↔ i < n ∧ l[i]? = some a := by
  rw [List.mem_iff_getElem?]
  constructor
  · rintro ⟨j, hj⟩
    rw [List.getElem?_take] at hj
    split at hj
    · rw [List.getElem?_zipIdx, Option.map_eq_some_iff] at hj
      obtain ⟨b, hb, heq⟩ := hj
      cases heq
      exact ⟨by omega, by simpa using hb⟩
    · cases hj
  · rintro ⟨hlt, ha⟩
    exact ⟨i, by simp [hlt, List.getElem?_zipIdx, ha]⟩

namespace Program

variable {p : Program} {entryPoint name : String} {d : Declaration} {count : Nat}

/-- The entry function apart, all package-level declarations are among those of a run that has gone
far enough. -/
theorem declarations_sublist (known : String → Bool) (count : Nat) :
    (p.declarations known count).Sublist (p.declarations (fun _ => true) p.vars.length) := by
  refine .append (.refl _) (.append (.map _ ?_) (.map _ ?_))
  · have hall : p.functions.filter (fun _ => true) = p.functions :=
      List.filter_eq_self.mpr fun _ _ => rfl
    rw [hall]
    exact List.filter_sublist
  · rw [← List.length_zipIdx (l := p.vars) (i := 0), List.take_length]
    exact List.take_sublist ..

/-- A declaration is there as soon as it is in place. -/
theorem mem_declarations_of_inPlace {known : String → Bool} {j : Nat}
    (h : (name, d) ∈ p.declarations known j) (hplace : d.inPlace count = true) :
    (name, d) ∈ p.declarations (fun _ => true) count := by
  simp only [declarations, List.mem_append, List.mem_map, List.mem_filter] at h ⊢
  rcases h with himport | ⟨f, hf, heq⟩ | ⟨⟨v, i⟩, hv, heq⟩
  · exact .inl himport
  · exact .inr (.inl ⟨f, ⟨hf.1, trivial⟩, heq⟩)
  · cases heq
    exact .inr (.inr ⟨(v, i), mem_take_zipIdx.mpr ⟨of_decide_eq_true hplace,
      (mem_take_zipIdx.mp hv).2⟩, rfl⟩)

/-- Before a declaration is in place, no other one has its name. -/
theorem notMem_declarations_of_not_inPlace {known : String → Bool} {j : Nat}
    (hnames : ((p.declarations (fun _ => true) p.vars.length).map Prod.fst).Nodup)
    (h : (name, d) ∈ p.declarations known j) (hplace : d.inPlace count = false) :
    name ∉ (p.declarations (fun _ => true) count).map Prod.fst := by
  have hmem := (declarations_sublist known j).mem h
  -- All declarations are those that are in place and the variables behind them.
  have hsplit : p.declarations (fun _ => true) p.vars.length =
      p.declarations (fun _ => true) count ++
        (p.vars.zipIdx.drop count).map fun d => (d.1.name, .global d.2) := by
    rw [declarations, declarations, ← List.length_zipIdx (l := p.vars) (i := 0), List.take_length,
      List.append_assoc, List.append_assoc, ← List.map_append, List.take_append_drop]
  rw [hsplit] at hnames hmem
  rw [List.map_append] at hnames
  obtain ⟨-, -, hdisjoint⟩ := List.nodup_append.mp hnames
  rcases List.mem_append.mp hmem with hmem | hmem
  · exfalso
    simp only [declarations, List.mem_append, List.mem_map] at hmem
    rcases hmem with ⟨i, -, heq⟩ | ⟨f, -, heq⟩ | ⟨⟨v, i⟩, hv, heq⟩
    · cases heq
      cases hplace
    · cases heq
      cases hplace
    · cases heq
      exact of_decide_eq_false hplace (mem_take_zipIdx.mp hv).1
  · exact fun hname => hdisjoint name hname name (List.mem_map_of_mem (f := Prod.fst) hmem) rfl

theorem mem_predeclared : (name, d) ∈ predeclared ↔ ∃ b : Builtin, b.name = name ∧
    d = .predeclared b := by
  constructor
  · intro h
    obtain ⟨b, -, heq⟩ := List.mem_map.mp h
    cases heq
    exact ⟨b, rfl, rfl⟩
  · rintro ⟨b, rfl, rfl⟩
    exact List.mem_map_of_mem (f := fun b => (b.name, Declaration.predeclared b)) b.mem_all

theorem nodup_predeclared : (predeclared.map Prod.fst).Nodup := by
  decide

/-- A name that is in scope outside of all functions is declared there, or it is that of a predeclared
function. -/
theorem of_find?_scope
    (hnames : ((p.declarations (fun _ => true) p.vars.length).map Prod.fst).Nodup)
    (h : (p.scope entryPoint count).find? name = some d) :
    (name, d) ∈ p.declarations (· ≠ entryPoint) count ∨
      ∃ b : Builtin, b.name = name ∧ d = .predeclared b := by
  have hnodup := hnames.sublist ((declarations_sublist (· ≠ entryPoint) count).map Prod.fst)
  rw [scope, Scoped.declareAll_cons, Scoped.find?, List.findSome?_cons,
    List.findSome?_singleton] at h
  -- the names of the program are looked at before those that are predeclared
  by_cases hmem : name ∈ (p.declarations (· ≠ entryPoint) count).map Prod.fst
  · obtain ⟨⟨_, d'⟩, hd', rfl⟩ := List.mem_map.mp hmem
    rw [Bindings.get?_setAll_of_mem hnodup hd'] at h
    cases h
    exact .inl hd'
  · rw [Bindings.get?_setAll_of_notMem hmem] at h
    by_cases hpre : name ∈ predeclared.map Prod.fst
    · obtain ⟨⟨_, d'⟩, hd', rfl⟩ := List.mem_map.mp hpre
      simp only [Bindings.get?_nil, Bindings.get?_setAll_of_mem nodup_predeclared hd'] at h
      cases h
      exact .inr (mem_predeclared.mp hd')
    · simp only [Bindings.get?_nil, Bindings.get?_setAll_of_notMem hpre] at h
      cases h

/-- **What is reached by a name that the checker finds** outside of all functions. -/
theorem reached (hnames : ((p.declarations (fun _ => true) p.vars.length).map Prod.fst).Nodup)
    {j : Nat} (h : (p.scope entryPoint j).find? name = some d) (count : Nat) :
    d.Reached p name count ((p.globalsAt count).get? name) := by
  have hnodup := hnames.sublist ((declarations_sublist (fun _ => true) count).map Prod.fst)
  -- either the program declares the name by now, or it is looked up among the predeclared ones
  have hmem {d : Declaration} (hd : (name, d) ∈ p.declarations (fun _ => true) count) :
      (p.globalsAt count).get? name = some d := by
    rw [globalsAt, Bindings.setAll_append, Bindings.get?_setAll_of_mem hnodup hd]
  have hnotMem (hname : name ∉ (p.declarations (fun _ => true) count).map Prod.fst) :
      (p.globalsAt count).get? name = Bindings.get? (Bindings.setAll [] predeclared) name := by
    rw [globalsAt, Bindings.setAll_append, Bindings.get?_setAll_of_notMem hname]
  rcases of_find?_scope hnames h with hd | ⟨b, rfl, rfl⟩
  · refine ⟨fun hplace _ => hmem (mem_declarations_of_inPlace hd hplace), fun hplace => ?_,
      fun hplace hfree => ?_⟩
    · rw [hmem (mem_declarations_of_inPlace hd hplace)]
      rfl
    · rw [hnotMem (notMem_declarations_of_not_inPlace hnames hd hplace),
        Bindings.get?_setAll_of_notMem fun hpre => ?_, Bindings.get?_nil]
      obtain ⟨⟨_, d'⟩, hd', rfl⟩ := List.mem_map.mp hpre
      obtain ⟨b, hb, -⟩ := mem_predeclared.mp hd'
      exact hfree b hb
  · have hpre (hname : b.name ∉ (p.declarations (fun _ => true) count).map Prod.fst) :
        (p.globalsAt count).get? b.name = some (.predeclared b) :=
      (hnotMem hname).trans
        (Bindings.get?_setAll_of_mem nodup_predeclared (mem_predeclared.mpr ⟨b, rfl, rfl⟩))
    refine ⟨fun _ hname => hpre (hname rfl), fun _ => ?_, nofun⟩
    by_cases hname : b.name ∈ (p.declarations (fun _ => true) count).map Prod.fst
    · obtain ⟨⟨_, d'⟩, hd', heq⟩ := List.mem_map.mp hname
      dsimp only at heq
      subst heq
      rw [hmem hd']
      rfl
    · rw [hpre hname]
      rfl

end Program

/-! ## Scopes of the checker -/

namespace Alike

variable {scopes : Scoped Ty} {declared : Scoped Declaration}

theorem universeScopes : Alike Formula.universeScopes [[], Bindings.setAll [] Program.predeclared] := by
  unfold Alike
  decide

/-- Imports are declared in the order in which they are written. -/
theorem checkImports {taken taken' : List String} {scopes' : Scoped Ty} {imports : List ImportDecl}
    (h : Alike scopes declared) (hcheck : checkImports taken scopes imports = .ok (taken', scopes')) :
    Alike scopes' (declared.declareAll (imports.map fun i => (i.binding, .package i.path))) := by
  induction imports generalizing taken scopes declared with
  | nil =>
    cases hcheck
    exact h
  | cons i imports ih =>
    rw [Formula.checkImports] at hcheck
    split at hcheck
    · cases hcheck
    split at hcheck
    · cases hcheck
    · exact ih (h.declare ..) hcheck

/-- Functions other than the entry function are declared in the order in which they are written. -/
theorem checkNames {entryPoint : String} {taken : List String} {scopes' : Scoped Ty}
    {items : List Item} (h : Alike scopes declared)
    (hcheck : checkNames entryPoint taken scopes items = .ok scopes') :
    Alike scopes' (declared.declareAll (((items.filterMap Item.function?).filter fun d =>
      decide (d.name ≠ entryPoint)).map fun d => (d.name, .function d.name))) := by
  induction items generalizing taken scopes declared with
  | nil =>
    cases hcheck
    exact h
  | cons i items ih =>
    obtain ⟨-, inner, hinner, hcheck⟩ := checkNames_cons_ok_iff.mp hcheck
    simp only [List.filterMap_cons]
    cases hinner with
    | var => exact ih h hcheck
    | entry hentry =>
      simp only [Item.function?, List.filter_cons]
      rw [if_neg (by simpa using hentry)]
      exact ih h hcheck
    | function hother _ =>
      simp only [Item.function?, List.filter_cons]
      rw [if_pos (by simpa using hother)]
      exact ih (h.declare ..) hcheck

/-- Variables are declared one after the other. -/
theorem vars {floats : List Span} {scopes' : Scoped Ty} {before rest : List VarDecl}
    (h : Alike scopes declared)
    (hvars : VarDecl.AllTyped floats scopes (before ++ rest) scopes') (start : Nat) :
    ∃ inner, VarDecl.AllTyped floats inner rest scopes' ∧
      Alike inner (declared.declareAll
        ((before.zipIdx start).map fun d => (d.1.name, .global d.2))) := by
  induction before generalizing scopes declared start with
  | nil => exact ⟨scopes, hvars, h⟩
  | cons d before ih =>
    cases hvars with
    | cons _ hvars => exact ih (h.declare ..) hvars (start + 1)

end Alike

/-! ## Names of a program -/

/-- No two imports have the same name, and all of them are in use behind them. -/
theorem nodup_of_checkImports {taken taken' : List String} {scopes scopes' : Scoped Ty}
    {imports : List ImportDecl} (h : checkImports taken scopes imports = .ok (taken', scopes')) :
    (imports.map (·.binding)).Nodup ∧ (∀ i ∈ imports, i.binding ∉ taken) ∧
      (∀ name ∈ taken, name ∈ taken') ∧ ∀ i ∈ imports, i.binding ∈ taken' := by
  induction imports generalizing taken scopes with
  | nil =>
    cases h
    exact ⟨.nil, nofun, fun _ => id, nofun⟩
  | cons i imports ih =>
    rw [checkImports] at h
    split at h
    · cases h
    split at h
    · cases h
    rename_i hfresh
    obtain ⟨hnodup, hnew, hkept, hused⟩ := ih h
    refine ⟨?_, List.forall_mem_cons.mpr ⟨hfresh, fun j hj hmem => ?_⟩, fun name hname => ?_,
      List.forall_mem_cons.mpr ⟨hkept _ List.mem_cons_self, hused⟩⟩
    · rw [List.map_cons, List.nodup_cons]
      refine ⟨fun hmem => ?_, hnodup⟩
      obtain ⟨j, hj, hname⟩ := List.mem_map.mp hmem
      exact hnew j hj (hname ▸ List.mem_cons_self)
    · exact hnew j hj (List.mem_cons_of_mem _ hmem)
    · exact hkept name (List.mem_cons_of_mem _ hname)

end Formula
