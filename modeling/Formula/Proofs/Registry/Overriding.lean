import Formula.Evaluator
import Formula.Proofs.Artifact.Honest
import Formula.Proofs.Registry.Extending
import Formula.Proofs.Shift.Below

/-!
# Values from outside and declared values

Values may be put in for the inputs when a formula is evaluated, or they may be declared. In the
second case another text is built, in which all that stands below the inputs stands elsewhere. That
makes no difference to the result.

## Main definitions

* `Registry.setDefaults`: declarations with other values
* `Registry.Redeclares`: declarations that differ in the values of inputs alone
* `Registry.Overridable`: declarations that are read as what they declare

## Main results

* `Registry.exists_base`: the program of declarations, but for the values of inputs
* `Artifact.bindFrom_eq`: the values that inputs have, in one case and in the other
* `Registry.overrides_are_defaults`: the result in one case and in the other
-/

namespace Formula

open Parse SourceFile Text

/-! ## Other values -/

/-- An input, with another value if it is the one of that name. -/
def Variable.setDefault (name : String) (value : Scalar) (v : Variable) : Variable :=
  if v.name = name then { v with default := some value } else v

theorem Variable.setDefault_redeclares (name : String) (value : Scalar) (v : Variable) :
    (v.setDefault name value).Redeclares v := by
  unfold setDefault
  split <;> exact ⟨rfl, rfl⟩

namespace Registry

/-- Declarations in which the input of a name has another value. -/
def setDefault (r : Registry) (name : String) (value : Scalar) : Registry :=
  { r with vars := r.vars.map (Variable.setDefault name value) }

/-- Declarations with other values, which are put in in order. -/
def setDefaults (r : Registry) (values : List (String × Scalar)) : Registry :=
  values.foldl (fun r o => r.setDefault o.1 o.2) r

/-- **Declarations that differ from others in the values of inputs alone.** -/
structure Redeclares (r' r : Registry) : Prop where
  name_eq : r'.name = r.name
  kind_eq : r'.kind = r.kind
  formula_eq : r'.formula = r.formula
  imports_eq : r'.imports = r.imports
  helpers_eq : r'.helpers = r.helpers
  vars : List.Forall₂ Variable.Redeclares r'.vars r.vars

namespace Redeclares

variable {r r' r'' : Registry}

theorem refl (r : Registry) : r.Redeclares r where
  name_eq := rfl
  kind_eq := rfl
  formula_eq := rfl
  imports_eq := rfl
  helpers_eq := rfl
  vars := List.forall₂_same.mpr fun _ _ => ⟨rfl, rfl⟩

theorem setDefault (h : r'.Redeclares r) (name : String) (value : Scalar) :
    (r'.setDefault name value).Redeclares r where
  name_eq := h.name_eq
  kind_eq := h.kind_eq
  formula_eq := h.formula_eq
  imports_eq := h.imports_eq
  helpers_eq := h.helpers_eq
  vars := by
    rw [Registry.setDefault, List.forall₂_map_left_iff]
    refine h.vars.imp fun w v hw => ?_
    have hset := w.setDefault_redeclares name value
    exact ⟨hset.name_eq.trans hw.name_eq, hset.type_eq.trans hw.type_eq⟩

theorem setDefaults (h : r'.Redeclares r) (values : List (String × Scalar)) :
    (r'.setDefaults values).Redeclares r := by
  induction values generalizing r' with
  | nil => exact h
  | cons o values ih => exact ih (h.setDefault o.1 o.2)

theorem names_eq (h : r'.Redeclares r) :
    r'.vars.map Variable.name = r.vars.map Variable.name := by
  have hnames : List.Forall₂ (· = ·) (r'.vars.map Variable.name) (r.vars.map Variable.name) := by
    rw [List.forall₂_map_left_iff, List.forall₂_map_right_iff]
    exact h.vars.imp fun _ _ hw => hw.name_eq
  exact List.forall₂_eq_eq_eq ▸ hnames

theorem piece_eq (h : r'.Redeclares r) : r'.piece = r.piece := by
  rw [piece, piece, h.helpers_eq, h.formula_eq]

end Redeclares

/-! ## The program -/

/-- **The program of declarations**: the imports and the inputs, and below them what the text of the
helper functions and the formula declares. -/
theorem program_of_piece {r : Registry} (hname : '\n' ∉ (trim r.name).toList)
    (hvars : ∀ v ∈ r.vars, IsName v.name) :
    match (ofText 0 "" r.piece).program with
    | .ok q => ∃ p, (ofText 0 "" r.assemble).program = .ok p ∧
        p.Extends (shiftBelow r.header) r.vars ⟨r.imports.map (⟨·, .nowhere⟩) ++ q.imports, q.items⟩
    | .error _ => ∃ e, (ofText 0 "" r.assemble).program = .error e := by
  obtain ⟨kinds, hwritten, hlines⟩ := exists_lines_header hname hvars
  have hbelow := SourceFile.program_below hlines (D := fun ds => ∃ is ds', ds = is ++ ds' ∧
    List.Forall₂ Declaration.Imports r.imports is ∧
      List.Forall₂ Declaration.Declares r.vars ds') (fun c ks hks hc => by
    obtain ⟨is, ds, c', his, hds, hc', hdeclarations⟩ := declarations_of_header hwritten hks hc
    exact ⟨is ++ ds, c', ⟨is, ds, rfl, his, hds⟩, hc', hdeclarations⟩) r.piece
  rw [← assemble_eq] at hbelow
  cases hpiece : (ofText 0 "" r.piece).program with
  | error e =>
    rw [hpiece] at hbelow
    exact hbelow
  | ok q =>
    rw [hpiece] at hbelow
    obtain ⟨_, more, ⟨is, ds, rfl, his, hds⟩, hmore, hprogram⟩ := hbelow
    -- the lines above declare the imports and the inputs, and nothing else
    obtain ⟨decls, hpaths, himports⟩ := programOf_imports his (ds ++ more)
    obtain ⟨vs, hvs, hitems⟩ := programOf_vars hds more
    rw [List.append_assoc, himports, hitems, hmore] at hprogram
    refine ⟨_, hprogram, ?_, vs, hvs, rfl⟩
    simp [hpaths, ImportDecl.shift, Function.comp_def]

/-- **What stands below the inputs does not depend on their values.** -/
theorem exists_base {r : Registry} (hname : '\n' ∉ (trim r.name).toList)
    (hvars : ∀ v ∈ r.vars, IsName v.name) {p : Program}
    (hp : (ofText 0 "" r.assemble).program = .ok p) :
    ∃ base : Program, ∀ r' : Registry, r'.Redeclares r →
      ∃ p', (ofText 0 "" r'.assemble).program = .ok p' ∧
        p'.Extends (shiftBelow r'.header) r'.vars base := by
  have hself := program_of_piece hname hvars
  cases hpiece : (ofText 0 "" r.piece).program with
  | error e =>
    rw [hpiece] at hself
    obtain ⟨e', he⟩ := hself
    cases hp.symm.trans he
  | ok q =>
    -- the same piece stands below other values, so it is read as the same declarations
    refine ⟨⟨r.imports.map (⟨·, .nowhere⟩) ++ q.imports, q.items⟩, fun r' h => ?_⟩
    have hvars' : ∀ v ∈ r'.vars, IsName v.name := by
      intro v hv
      have hmem : v.name ∈ r.vars.map Variable.name := h.names_eq ▸ List.mem_map_of_mem hv
      obtain ⟨w, hw, heq⟩ := List.mem_map.mp hmem
      exact heq ▸ hvars w hw
    have hother := program_of_piece (h.name_eq ▸ hname) hvars'
    rwa [h.piece_eq, hpiece, h.imports_eq] at hother

/-! ## The values of inputs -/

/-- A value is given for an input, and is of its type. -/
def Takes (r : Registry) (o : String × Scalar) : Prop :=
  ∃ v ∈ r.vars, v.name = o.1 ∧ o.2.type = v.type

theorem Redeclares.takes {r r' : Registry} (h : r'.Redeclares r) {o : String × Scalar}
    (ho : r.Takes o) : r'.Takes o := by
  obtain ⟨v, hv, hname, htype⟩ := ho
  obtain ⟨i, hi, rfl⟩ := List.mem_iff_getElem.mp hv
  obtain ⟨hlength, hall⟩ := List.forall₂_iff_get.mp h.vars
  have hw := hall i (hlength ▸ hi) hi
  exact ⟨_, List.get_mem r'.vars ⟨i, hlength ▸ hi⟩, hw.name_eq.trans hname, htype.trans hw.type_eq.symm⟩

/-- The values that inputs are declared with. -/
def initialValues (r : Registry) : Bindings Scalar :=
  r.vars.map fun v => (v.name, v.initialValue)

/-- Inputs with other values have the types that they had. -/
theorem type_of_setDefaults {r : Registry} (hnodup : (r.vars.map Variable.name).Nodup)
    (htypes : ∀ v ∈ r.vars, v.initialValue.type = v.type) {values : List (String × Scalar)}
    (hvalues : ∀ o ∈ values, r.Takes o) :
    ∀ v ∈ (r.setDefaults values).vars, v.initialValue.type = v.type := by
  induction values generalizing r with
  | nil => exact htypes
  | cons o values ih =>
    obtain ⟨ho, hvalues⟩ := List.forall_mem_cons.mp hvalues
    have hstep := (Redeclares.refl r).setDefault o.1 o.2
    refine ih (hstep.names_eq ▸ hnodup) (fun w hw => ?_) fun o' ho' => hstep.takes (hvalues o' ho')
    obtain ⟨v, hv, rfl⟩ := List.mem_map.mp hw
    unfold Variable.setDefault
    split
    · rename_i hname
      -- names are different, so the input with this name is the one that takes the value
      obtain ⟨u, hu, huname, hutype⟩ := ho
      obtain rfl := List.inj_on_of_nodup_map hnodup hu hv (huname.trans hname.symm)
      exact hutype
    · exact htypes v hv

/-- Declarations with values of the declared types pass validation. -/
theorem validate_of_redeclares {r r' : Registry} (h : r'.Redeclares r) (hr : r.validate = .ok ())
    (htypes : ∀ v ∈ r'.vars, v.initialValue.type = v.type) : r'.validate = .ok () := by
  have hnone : r'.vars.findSome? Variable.defaultError? = none := by
    refine List.findSome?_eq_none_iff.mpr fun v hv => ?_
    have htype := htypes v hv
    unfold Variable.defaultError?
    cases hdefault : v.default with
    | none => rfl
    | some value =>
      rw [Variable.initialValue, hdefault] at htype
      exact if_pos htype
  have hnone' := findSome?_of_validate hr
  unfold validate at hr ⊢
  rw [hnone'] at hr
  rw [h.name_eq, h.kind_eq, h.formula_eq, hnone]
  exact hr

/-- Giving a value is declaring it. -/
theorem initialValues_setDefault {r : Registry} (hnodup : (r.vars.map Variable.name).Nodup)
    {name : String} (hname : ∃ v ∈ r.vars, v.name = name) (value : Scalar) :
    (r.setDefault name value).initialValues = r.initialValues.set name value := by
  unfold initialValues setDefault
  dsimp only
  generalize r.vars = vars at hnodup hname
  induction vars with
  | nil => exact absurd hname (by simp)
  | cons v vars ih =>
    obtain ⟨hnot, hnodup⟩ := List.nodup_cons.mp hnodup
    rw [List.map_cons, List.map_cons, List.map_cons, Bindings.set, Variable.setDefault]
    by_cases hv : v.name = name
    · -- no other input has that name
      have hrest : vars.map (Variable.setDefault name value) = vars := by
        refine (List.map_congr_left fun w hw => if_neg fun hw' => hnot ?_).trans (List.map_id' vars)
        exact hv.trans hw'.symm ▸ List.mem_map_of_mem hw
      rw [if_pos hv, if_pos hv, hrest]
      rfl
    · rw [if_neg hv, if_neg hv, ih hnodup]
      obtain ⟨w, hw, hw'⟩ := hname
      exact ⟨w, (List.mem_cons.mp hw).resolve_left fun heq => hv (heq ▸ hw'), hw'⟩

end Registry

namespace Artifact

/-- Values are put in one after the other as they are declared one after the other. -/
theorem bindFrom_eq {a : Artifact} {r cur : Registry} (ha : a.vars = r.vars)
    (hnodup : (r.vars.map Variable.name).Nodup) (hcur : cur.Redeclares r)
    {values : List (String × Scalar)} (hvalues : ∀ o ∈ values, r.Takes o) :
    a.bindFrom cur.initialValues values = .ok (cur.setDefaults values).initialValues := by
  induction values generalizing cur with
  | nil => rfl
  | cons o values ih =>
    obtain ⟨⟨v, hv, hname, htype⟩, hvalues⟩ := List.forall_mem_cons.mp hvalues
    -- the artifact finds the input under the name, as no other one has it
    have hdeclared : a.declared? o.1 = some v := by
      rw [declared?, ha]
      cases hfind : r.vars.find? (·.name == o.1) with
      | none => exact absurd hname (by simpa using List.find?_eq_none.mp hfind v hv)
      | some w =>
        have hwname : w.name = o.1 := by simpa using List.find?_some hfind
        rw [List.inj_on_of_nodup_map hnodup (List.mem_of_find?_eq_some hfind) hv
          (hwname.trans hname.symm)]
    obtain ⟨w, hw, hwname, -⟩ := hcur.takes ⟨v, hv, hname, htype⟩
    rw [bindFrom, hdeclared]
    simp only [htype, if_true]
    rw [← Registry.initialValues_setDefault (hcur.names_eq ▸ hnodup) ⟨w, hw, hwname⟩]
    exact ih (hcur.setDefault o.1 o.2) hvalues

/-- **The values that inputs are given in an evaluation** are those that they are declared with when
the same values are declared. -/
theorem bind_eq {a : Artifact} {r : Registry} (ha : a.vars = r.vars)
    (hnodup : (r.vars.map Variable.name).Nodup) {values : List (String × Scalar)}
    (hvalues : ∀ o ∈ values, r.Takes o) :
    a.bind values = .ok (r.setDefaults values).initialValues := by
  have hinitial : a.initialValues = r.initialValues := by
    rw [initialValues, ha]
    rfl
  rw [bind, hinitial]
  exact bindFrom_eq ha hnodup (.refl r) hvalues

theorem resultOf_shift (k : Shift) (a : Artifact) (v : Value) :
    a.resultOf (v.shift k) = a.resultOf v := by
  cases v <;> rfl

/-- Runs of two artifacts that end alike with the same values give the same result. -/
theorem evaluate_eq_of_runs {a a' : Artifact} {overrides overrides' : List (String × Scalar)}
    {values : Bindings Scalar} (hbind : a.bind overrides = .ok values)
    (hbind' : a'.bind overrides' = .ok values) (htype : a'.resultType = a.resultType)
    {config : Config} {world : World} {fuel : Nat} {outcome : Outcome} {k k' : Shift}
    (hrun : a.compilation.run config world values fuel = outcome.shift k)
    (hrun' : a'.compilation.run config world values fuel = outcome.shift k') :
    a'.evaluate config world fuel overrides' = a.evaluate config world fuel overrides := by
  rw [evaluate, evaluate, hbind, hbind']
  simp only [hrun, hrun']
  cases outcome with
  | value v =>
    simp only [Outcome.shift, resultOf_shift]
    unfold resultOf
    rw [htype]
  | error e => rfl
  | outOfFuel => rfl

end Artifact

/-! ## The whole way -/

namespace Registry

/-- **Declarations that are read as what they declare.** They pass validation, their name is one
line, the names of their inputs are different, and below the inputs the program `p` that is read of
them has functions alone: those that variables are declared with, and the entry function. -/
structure Overridable (r : Registry) (p : Program) : Prop where
  valid : r.validate = .ok ()
  oneLine : '\n' ∉ (trim r.name).toList
  names : ∀ v ∈ r.vars, IsName v.name
  distinctNames : (r.vars.map Variable.name).Nodup
  helpers : ∀ d ∈ p.vars.drop r.vars.length, d.IsFunction
  entry : p.functions.map FunctionDecl.name = [defaultEntryPoint]

/-- What stands below the inputs are functions. -/
theorem Overridable.base {r : Registry} {p base : Program} (h : r.Overridable p) {k : Shift}
    (hp : p.Extends k r.vars base) :
    (∀ d ∈ base.vars, d.IsFunction) ∧ ∃ d, base.functions = [d] ∧ d.name = defaultEntryPoint := by
  constructor
  · intro d hd
    obtain ⟨vs, hvs, hitems⟩ := hp.items
    -- behind the inputs come the variables of the text below them, further down
    have hdrop : p.vars.drop r.vars.length = base.vars.map (VarDecl.shift k) := by
      rw [Program.Extends.vars_eq hitems, hvs.length_eq, List.drop_left]
    obtain ⟨params, result, body, span, hvalue⟩ :=
      h.helpers (d.shift k) (hdrop ▸ List.mem_map_of_mem hd)
    obtain ⟨e, he, hshift⟩ := Option.map_eq_some_iff.mp hvalue
    cases e with
    | function params result body span => exact ⟨params, result, body, span, he⟩
    | _ => cases hshift
  · obtain ⟨d, hd, hname⟩ := List.map_eq_singleton_iff.mp h.entry
    rw [hp.functions_eq] at hd
    obtain ⟨d', hd', rfl⟩ := List.map_eq_singleton_iff.mp hd
    exact ⟨d', hd', hname⟩

/-- **Declarations with other values compile as the ones before**, and both run alike with these
values. -/
theorem exists_compile_setDefaults {r : Registry} {c : Compilation} (h : r.Overridable c.program)
    (hc : compileText r.assemble = .ok c) {overrides : List (String × Scalar)}
    (hoverrides : ∀ o ∈ overrides, r.Takes o) :
    ∃ c', compileText (r.setDefaults overrides).assemble = .ok c' ∧
      c'.types.result = c.types.result ∧ ∃ k k' : Descent, ∀ config world fuel, ∃ outcome : Outcome,
        c.run config world (r.setDefaults overrides).initialValues fuel = outcome.shift k ∧
          c'.run config world (r.setDefaults overrides).initialValues fuel = outcome.shift k' := by
  obtain ⟨hprogram, hcheck⟩ := SourceFile.compile_eq_ok hc
  have hredeclares := (Redeclares.refl r).setDefaults overrides
  have htypes : ∀ v ∈ r.vars, v.initialValue.type = v.type := fun v => type_initialValue h.valid
  have htypes' := type_of_setDefaults h.distinctNames htypes hoverrides
  -- Both programs extend the same one, by the same inputs with different values.
  obtain ⟨base, hbase⟩ := exists_base h.oneLine h.names hprogram
  obtain ⟨p, hp, hextends⟩ := hbase r (.refl r)
  obtain rfl : c.program = p := Except.ok.inj (hprogram.symm.trans hp)
  obtain ⟨p', hp', hextends'⟩ := hbase _ hredeclares
  obtain ⟨hfunctions, d, hd, hentry⟩ := h.base hextends
  obtain ⟨floats, hfloats, hcheck'⟩ := hextends.check hextends' hredeclares.vars htypes htypes' hcheck
  have hnames : (r.setDefaults overrides).initialValues.map Prod.fst =
      (r.setDefaults overrides).vars.map Variable.name := by
    rw [initialValues, List.map_map]
    rfl
  refine ⟨⟨p', ⟨c.types.result, floats.map (Span.shift (shiftBelow (r.setDefaults overrides).header))⟩⟩,
    ?_, rfl, shiftBelow r.header, shiftBelow (r.setDefaults overrides).header, fun config world fuel =>
      ⟨_, hextends.run hprogram htypes hd hentry hfunctions hcheck hfloats ?_ config world fuel,
        hextends'.run hp' htypes' hd hentry hfunctions hcheck' rfl ?_ config world fuel⟩⟩
  · rw [compileText, SourceFile.compile, hp']
    simp only [hcheck']
  · rw [hnames, hredeclares.names_eq]
    exact fun _ => id
  · rw [hnames]
    exact fun _ => id

/-- **Values from outside are as good as declared ones.** Take declarations that are read as what they
declare, with an artifact of a build that ended right, and values of the declared types for inputs of
them. Declarations with these values pass validation, and a build of them that ends right and has
access to its files yields an artifact of the same result type. Without values from outside, that
evaluates to what the first one evaluates to with these values: to the same scalar, or the same
error, with every budget, clock and source of random numbers. -/
theorem overrides_are_defaults {r : Registry} {a : Artifact} {place : Option String}
    (h : r.Overridable a.compilation.program)
    (ha : Artifact.EndsRight place r.name r.assemble r.vars (.ok a))
    {overrides : List (String × Scalar)} (hoverrides : ∀ o ∈ overrides, r.Takes o) :
    (r.setDefaults overrides).validate = .ok () ∧
      ∀ place' result, Artifact.EndsRight place' (r.setDefaults overrides).name
          (r.setDefaults overrides).assemble (r.setDefaults overrides).vars result →
        (∃ path failure, result = .error (.access path failure)) ∨
          ∃ a', result = .ok a' ∧ a'.resultType = a.resultType ∧ ∀ config world fuel,
            a'.evaluate config world fuel [] = a.evaluate config world fuel overrides := by
  have hredeclares := (Redeclares.refl r).setDefaults overrides
  have htypes' := type_of_setDefaults h.distinctNames (fun v => type_initialValue h.valid) hoverrides
  refine ⟨validate_of_redeclares hredeclares h.valid htypes', fun place' result hresult => ?_⟩
  obtain ⟨c, cached, hc, rfl⟩ := ha
  obtain ⟨c', hc', htype, k, k', hruns⟩ := exists_compile_setDefaults h hc hoverrides
  match result, hresult with
  | .error (.access path failure), _ => exact .inl ⟨path, failure, rfl⟩
  | .error (.compile e), hresult => cases hc'.symm.trans hresult
  | .ok a', hresult =>
    obtain ⟨c'', cached', hc'', rfl⟩ := hresult
    obtain rfl : c' = c'' := Except.ok.inj (hc'.symm.trans hc'')
    refine .inr ⟨_, rfl, htype, fun config world fuel => ?_⟩
    obtain ⟨outcome, hrun, hrun'⟩ := hruns config world fuel
    -- put in from outside or declared, the values at the start are the same
    apply Artifact.evaluate_eq_of_runs
    · exact Artifact.bind_eq rfl h.distinctNames hoverrides
    · exact Artifact.bind_eq rfl (hredeclares.names_eq ▸ h.distinctNames) (List.forall_mem_nil _)
    · exact htype
    · exact hrun
    · exact hrun'

/-- Declarations with a helper function, and with an input that has no value. -/
def labelled : Registry where
  name := "label"
  imports := ["fmt"]
  vars := [⟨"count", .int, some (.int 2)⟩, ⟨"unit", .string, none⟩]
  helpers := [⟨"twice", "func(n int) int \x7b return n * 2 \x7d"⟩]
  formula := "return fmt.Sprint(twice(count), unit)"

theorem overrides_are_defaults_labelled : ∃ (a : Artifact) (overrides : List (String × Scalar)),
    labelled.Overridable a.compilation.program ∧
      Artifact.EndsRight none labelled.name labelled.assemble labelled.vars (.ok a) ∧
        (∀ o ∈ overrides, labelled.Takes o) ∧ ∃ a' : Artifact, a'.resultType = a.resultType ∧
          a'.evaluate {} .regular 0 [] = a.evaluate {} .regular 0 overrides := by
  have hchecked : (match compileText labelled.assemble with
      | .ok c => decide (∀ d ∈ c.program.vars.drop labelled.vars.length, d.IsFunction) &&
        decide (c.program.functions.map FunctionDecl.name = [defaultEntryPoint])
      | .error _ => false) = true := by
    decide +kernel
  cases hc : compileText labelled.assemble with
  | error e =>
    rw [hc] at hchecked
    cases hchecked
  | ok c =>
    rw [hc, Bool.and_eq_true, decide_eq_true_eq, decide_eq_true_eq] at hchecked
    have hover : labelled.Overridable c.program := {
      valid := by decide +kernel
      oneLine := by decide
      names := by
        intro v hv
        simp only [labelled, List.mem_cons, List.not_mem_nil, or_false] at hv
        rcases hv with rfl | rfl <;> exact ⟨by decide, by decide +kernel⟩
      distinctNames := by decide
      helpers := hchecked.1
      entry := hchecked.2 }
    have htakes : ∀ o ∈ [("unit", Scalar.string "*/ //"), ("count", .int Int64.minValue)],
        labelled.Takes o := by
      simp only [List.mem_cons, List.not_mem_nil, or_false, forall_eq_or_imp, forall_eq]
      exact ⟨⟨_, .tail _ (.head _), rfl, rfl⟩, ⟨_, .head _, rfl, rfl⟩⟩
    obtain ⟨c', hc', -⟩ := exists_compile_setDefaults hover hc htakes
    have hright : Artifact.EndsRight none labelled.name labelled.assemble labelled.vars (.ok
      ⟨_, _, c, _, _, _, false⟩) := ⟨c, false, hc, rfl⟩
    obtain ⟨-, hbuilds⟩ := overrides_are_defaults hover hright htakes
    obtain ⟨_, _, ⟨⟩⟩ | ⟨a', -, htype, heval⟩ := hbuilds none (.ok _) ⟨c', false, hc', rfl⟩
    exact ⟨_, _, hover, hright, htakes, a', htype, heval {} .regular 0⟩

/-- Declarations whose name has a second line, which is source text. -/
def spliced : Registry where
  name := "a\nvar S string = \"*/ //\" /*"
  vars := [⟨"S", .string, some (.string "*/ //")⟩]
  formula := "return S"

/-- Where the name is not one line, what is read of the inputs may depend on their values. -/
theorem overrides_differ_spliced :
    spliced.validate = .ok () ∧ spliced.Takes ("S", .string "x") ∧
      (∃ c, compileText spliced.assemble = .ok c ∧ c.program.imports = [] ∧
        c.program.vars.map VarDecl.name = ["S"] ∧
          c.program.functions.map FunctionDecl.name = [defaultEntryPoint]) ∧
        ∀ c, compileText (spliced.setDefaults [("S", .string "x")]).assemble ≠ .ok c := by
  have hfirst : (match compileText spliced.assemble with
      | .ok c => decide (c.program.imports.length = 0 ∧ c.program.vars.map VarDecl.name = ["S"] ∧
        c.program.functions.map FunctionDecl.name = [defaultEntryPoint])
      | .error _ => false) = true := by
    decide +kernel
  have hsecond : (compileText (spliced.setDefaults [("S", .string "x")]).assemble).isOk = false := by
    decide +kernel
  refine ⟨by decide +kernel, ⟨_, .head _, rfl, rfl⟩, ?_, fun c hc => ?_⟩
  · cases hc : compileText spliced.assemble with
    | error e =>
      rw [hc] at hfirst
      cases hfirst
    | ok c =>
      rw [hc] at hfirst
      obtain ⟨himports, hvars, hfunctions⟩ := of_decide_eq_true hfirst
      exact ⟨c, rfl, List.length_eq_zero_iff.mp himports, hvars, hfunctions⟩
  · rw [hc] at hsecond
    cases hsecond

end Registry

end Formula
