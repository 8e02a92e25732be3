import Formula.Definition
import Formula.Proofs.Evaluator.Lifecycle
import Formula.Proofs.Registry.Recording

/-!
# What has been declared

Variables, helper functions and packages are declared in any order and any number of times. Each
kind of them has a table of its own, which is filled by the declarations of that kind alone: a name
has the place where it was declared first, and stands for what was declared of it last. A table is
all that is left of its declarations, so that it can be declared again.

## Main definitions

* `Registry.addAll`: declarations behind further ones
* `Definition.edits`: what a definition declares

## Main results

* `Registry.putAll_of_add`: each table is filled by the declarations of its kind
* `Registry.declarations_are_recorded`: what holds behind any sequence of declarations
-/

namespace Formula

/-! ## The three tables of a registry -/

namespace Edit

/-- The variable that is declared. -/
def input? : Edit → Option Variable
  | input v => some v
  | _ => none

/-- The helper function that is declared. -/
def helper? : Edit → Option Helper
  | helper h => some h
  | _ => none

/-- The package that is imported. -/
def package? : Edit → Option String
  | package path => some path
  | _ => none

/-- Whether one of the three tables gets an entry. -/
def declares (edit : Edit) : Bool :=
  edit.input?.isSome || edit.helper?.isSome || edit.package?.isSome

end Edit

namespace Registry

variable {r : Registry} {edits others : List Edit}

/-- The declarations behind further ones. -/
def addAll (r : Registry) (edits : List Edit) : Registry :=
  edits.foldl Edit.add r

/-- The variables that are declared, in order. -/
def inputsOf (edits : List Edit) : List Variable :=
  edits.filterMap Edit.input?

/-- The helper functions that are declared, in order. -/
def helpersOf (edits : List Edit) : List Helper :=
  edits.filterMap Edit.helper?

/-- The packages that are imported, in order. -/
def packagesOf (edits : List Edit) : List String :=
  edits.filterMap Edit.package?

/-- Importing a package is an entry that is its own name. -/
theorem imports_importPackage (r : Registry) (path : String) :
    (r.importPackage path).imports = putBy id path r.imports := by
  unfold importPackage
  split
  · rename_i hmem
    have hmap : (putBy id path r.imports).map id = r.imports.map id :=
      map_putBy_of_mem (by simpa using hmem)
    rw [List.map_id, List.map_id] at hmap
    exact hmap.symm
  · rename_i hmem
    exact (putBy_of_notMem (by simpa using hmem)).symm

/-- **A table is filled by the declarations of its kind**, if each of them makes an entry and the
others leave it as it is. -/
theorem putAll_of_add {α : Type} {name : α → String} {table : Registry → List α}
    {given? : Edit → Option α}
    (hadd : ∀ r edit, table (Edit.add r edit) =
      (given? edit).elim (table r) fun a => putBy name a (table r))
    (r : Registry) (edits : List Edit) :
    table (r.addAll edits) = putAll name (table r) (edits.filterMap given?) := by
  induction edits generalizing r with
  | nil => rfl
  | cons edit edits ih =>
    rw [addAll, List.foldl_cons, ← addAll, ih, hadd]
    cases hgiven : given? edit with
    | none => rw [List.filterMap_cons_none hgiven, Option.elim_none]
    | some a =>
      rw [List.filterMap_cons_some hgiven, Option.elim_some]
      rfl

theorem vars_addAll (r : Registry) (edits : List Edit) :
    (r.addAll edits).vars = putAll Variable.name r.vars (inputsOf edits) :=
  putAll_of_add (fun r edit => by
    cases edit with
    | package path => exact apply_ite vars _ _ _ |>.trans (ite_self _)
    | _ => rfl) r edits

theorem helpers_addAll (r : Registry) (edits : List Edit) :
    (r.addAll edits).helpers = putAll Helper.name r.helpers (helpersOf edits) :=
  putAll_of_add (fun r edit => by
    cases edit with
    | package path => exact apply_ite helpers _ _ _ |>.trans (ite_self _)
    | _ => rfl) r edits

theorem imports_addAll (r : Registry) (edits : List Edit) :
    (r.addAll edits).imports = putAll id r.imports (packagesOf edits) :=
  putAll_of_add (fun r edit => by
    cases edit with
    | package path => exact r.imports_importPackage path
    | _ => rfl) r edits

/-! ## Declaring again -/

/-- What else is known of a registry, without its tables. -/
def bare (r : Registry) : Registry :=
  { r with imports := [], vars := [], helpers := [] }

theorem bare_addAll (h : ∀ edit ∈ edits, edit.declares = true) (r : Registry) :
    (r.addAll edits).bare = r.bare := by
  induction edits generalizing r with
  | nil => rfl
  | cons edit edits ih =>
    obtain ⟨hedit, hedits⟩ := List.forall_mem_cons.mp h
    rw [addAll, List.foldl_cons, ← addAll, ih hedits]
    cases edit with
    | input v => rfl
    | helper f => rfl
    | package path => exact apply_ite bare _ _ _ |>.trans (ite_self _)
    | name s => cases hedit
    | kind k => cases hedit
    | formula s => cases hedit
    | buildPath path => cases hedit

theorem eq_of_bare {r' : Registry} (hbare : r.bare = r'.bare) (himports : r.imports = r'.imports)
    (hvars : r.vars = r'.vars) (hhelpers : r.helpers = r'.helpers) : r = r' := by
  obtain ⟨_, _, _, _, _, _, _⟩ := r
  obtain ⟨_, _, _, _, _, _, _⟩ := r'
  simp_all [bare]

/-- **Declaring the tables of a registry again gives the registry**, in whatever order the entries
of different tables come. -/
theorem addAll_bare (hvars : (r.vars.map Variable.name).Nodup)
    (hhelpers : (r.helpers.map Helper.name).Nodup) (himports : r.imports.Nodup)
    (h : ∀ edit ∈ edits, edit.declares = true) (hinputs : inputsOf edits = r.vars)
    (hfunctions : helpersOf edits = r.helpers) (hpackages : packagesOf edits = r.imports) :
    r.bare.addAll edits = r := by
  refine eq_of_bare (bare_addAll h r.bare) ?_ ?_ ?_
  · rw [imports_addAll, hpackages]
    exact putAll_of_nodup (by simpa [bare] using himports)
  · rw [vars_addAll, hinputs]
    exact putAll_of_nodup hvars
  · rw [helpers_addAll, hfunctions]
    exact putAll_of_nodup hhelpers

end Registry

/-! ## What a definition declares -/

namespace Definition

/-- What a definition declares, in order. -/
def edits (d : Definition) : List Edit :=
  [.name d.name, .kind d.kind, .formula d.formula] ++ (d.buildPath.map .buildPath).toList ++
    d.imports.map .package ++ (d.vars.map normalVariable).map .input ++ d.helpers.map .helper

theorem registry_eq (d : Definition) : d.registry = Registry.addAll {} d.edits := by
  obtain ⟨name, kind, imports, vars, helpers, formula, buildPath⟩ := d
  cases buildPath <;>
    simp [registry, edits, Registry.addAll, List.foldl_append, List.foldl_map, Edit.add]

/-- The entries of each table, in order. -/
theorem entries_edits (d : Definition) :
    Registry.inputsOf d.edits = d.vars.map normalVariable ∧
      Registry.helpersOf d.edits = d.helpers ∧ Registry.packagesOf d.edits = d.imports := by
  obtain ⟨name, kind, imports, vars, helpers, formula, buildPath⟩ := d
  cases buildPath <;>
    simp [Registry.inputsOf, Registry.helpersOf, Registry.packagesOf, edits, List.filterMap_cons,
      List.filterMap_append, List.filterMap_map, Function.comp_def, Edit.input?, Edit.helper?,
      Edit.package?]

end Definition

namespace Registry

/-- **Declarations are recorded in order, and the last one for a name counts.** Behind any sequence of
them each of the three tables holds what was given of its kind, and a variable is found under its
name. A table depends on the declarations of its kind alone. Declaring the tables again, and nothing
else, gives the registry. All this holds of the declarations that a definition makes. -/
theorem declarations_are_recorded (edits : List Edit) :
    Recorded Variable.name (inputsOf edits) (addAll {} edits).vars ∧
    Recorded Helper.name (helpersOf edits) (addAll {} edits).helpers ∧
    Recorded id (packagesOf edits) (addAll {} edits).imports ∧
    (∀ name, (addAll {} edits).declared? name =
      (inputsOf edits).reverse.find? (·.name == name)) ∧
    (∀ others,
      (inputsOf others = inputsOf edits → (addAll {} others).vars = (addAll {} edits).vars) ∧
      (helpersOf others = helpersOf edits →
        (addAll {} others).helpers = (addAll {} edits).helpers) ∧
      (packagesOf others = packagesOf edits →
        (addAll {} others).imports = (addAll {} edits).imports)) ∧
    (∀ again, (∀ edit ∈ again, edit.declares = true) →
      inputsOf again = (addAll {} edits).vars → helpersOf again = (addAll {} edits).helpers →
      packagesOf again = (addAll {} edits).imports →
      (addAll {} edits).bare.addAll again = addAll {} edits) ∧
    ((∀ edit ∈ edits, edit.declares = true) → (addAll {} edits).bare = {}) ∧
    ∀ d : Definition, d.edits = edits → d.registry = addAll {} edits ∧
      inputsOf edits = d.vars.map Definition.normalVariable ∧ helpersOf edits = d.helpers ∧
      packagesOf edits = d.imports := by
  have hvars : Recorded Variable.name (inputsOf edits) (addAll {} edits).vars :=
    vars_addAll {} edits ▸ recorded_putAll _
  have hhelpers : Recorded Helper.name (helpersOf edits) (addAll {} edits).helpers :=
    helpers_addAll {} edits ▸ recorded_putAll _
  have himports : Recorded id (packagesOf edits) (addAll {} edits).imports :=
    imports_addAll {} edits ▸ recorded_putAll _
  refine ⟨hvars, hhelpers, himports, hvars.find, fun others => ⟨fun h => ?_, fun h => ?_,
    fun h => ?_⟩, fun again => ?_, fun h => bare_addAll h {}, ?_⟩
  · rw [vars_addAll, vars_addAll, h]
  · rw [helpers_addAll, helpers_addAll, h]
  · rw [imports_addAll, imports_addAll, h]
  · exact addAll_bare hvars.nodup hhelpers.nodup (by simpa using himports.nodup)
  · rintro d rfl
    exact ⟨d.registry_eq, d.entries_edits⟩

/-- A variable that is declared twice, with a package that is imported twice. -/
def redeclared : List Edit :=
  [.input ⟨"A", .int, none⟩, .package "fmt", .input ⟨"B", .float, none⟩,
    .input ⟨"A", .string, some (.string "x")⟩, .package "fmt"]

theorem declarations_are_recorded_redeclared :
    (addAll {} redeclared).bare.addAll [.package "fmt", .input ⟨"A", .string, some (.string "x")⟩,
      .input ⟨"B", .float, none⟩] = addAll {} redeclared := by
  obtain ⟨-, -, -, -, -, hagain, -⟩ := declarations_are_recorded redeclared
  exact hagain _ (by decide) rfl rfl rfl

end Registry

end Formula
