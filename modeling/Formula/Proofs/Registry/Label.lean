import Formula.Proofs.Evaluator.Ending
import Formula.Proofs.Registry.Overriding

/-!
# The name is a label

The name of an evaluator stands in the first line of the text that is built, in a comment. With
another name, all that the text declares stands elsewhere, and it declares the same. So a build with
another name succeeds as before, and evaluations give what they gave, as long as both names are one
line: what stands on further lines of a name is source text.

## Main definitions

* `Registry.comment`, `Registry.declared`: the line with the name, and what is written below it

## Main results

* `Registry.program_of_declared`: a program below the line with the name
* `Registry.compile_rename`: what another name changes in a program and its runs
* `Evaluator.name_is_label`: builds and evaluations with one name and with another
-/

namespace Formula

open Parse Text
open SourceFile (ofText shiftBelow)

/-! ## The text below the name -/

namespace Registry

/-- The line with the name. -/
def comment (name : String) : String :=
  "// evaluator: " ++ trim name ++ "\n"

/-- What is written below the line with the name. -/
def declared (r : Registry) : String :=
  String.join (r.imports.map fun path => "import " ++ quoteSource path ++ "\n") ++
    String.join (r.vars.map Variable.sourceLine) ++ r.piece

theorem assemble_eq_comment (r : Registry) : r.assemble = comment r.name ++ r.declared := by
  rw [assemble_eq]
  show comment r.name ++ _ ++ _ ++ r.piece = comment r.name ++ (_ ++ _ ++ r.piece)
  simp only [String.append_assoc]

/-- **A program below the line with the name** is what the text below that line declares, further
down. -/
theorem program_of_declared {r : Registry} (hname : '\n' ∉ (trim r.name).toList) :
    match (ofText 0 "" r.declared).program with
    | .ok base => ∃ p, (ofText 0 "" r.assemble).program = .ok p ∧
        p.Extends (shiftBelow (comment r.name)) [] base
    | .error _ => ∃ e, (ofText 0 "" r.assemble).program = .error e := by
  have hlines : Lines (comment r.name).toList [] := lines_comment hname
  -- Nothing is declared in a comment, so that reading goes on where the rest begins.
  have hbelow := SourceFile.program_below hlines (D := (· = []))
    (fun c ks _ hc => by
      refine ⟨[], c, rfl, ⟨hc, List.suffix_refl _⟩, ?_⟩
      cases declarations c <;> rfl) r.declared
  rw [← assemble_eq_comment] at hbelow
  cases hdeclared : (ofText 0 "" r.declared).program with
  | error e =>
    rw [hdeclared] at hbelow
    exact hbelow
  | ok base =>
    rw [hdeclared] at hbelow
    obtain ⟨_, more, rfl, hmore, hprogram⟩ := hbelow
    refine ⟨_, hprogram, ?_, [], .nil, ?_⟩
    · simp [hmore, ImportDecl.shift, Function.comp_def]
    · simp [hmore]

end Registry

/-! ## Runs -/

variable {k k' : Shift} {base p p' : Program}

/-- Fresh machines are alike. -/
theorem Machine.below_empty : Machine.Below k {} {} :=
  ⟨by simp, fun _ => rfl, rfl, rfl⟩

/-- Values from outside are put in further down as they are. -/
theorem Run.Shifts.setGlobals (values : List (String × Scalar)) :
    Run.Shifts k id (values.forM fun (name, v) => Run.setGlobal name (.scalar v))
      (values.forM fun (name, v) => Run.setGlobal name (.scalar v)) := by
  induction values with
  | nil => exact .pure rfl
  | cons o values ih => exact (Shifts.setGlobal o.1 (.scalar o.2)).bind fun _ => ih

/-- **A program further down is executed as it is**, with its variables and with values from
outside. -/
theorem Setting.Below.execute {s s' : Setting} (hs : s.Below k s') (h : p.Extends k [] base)
    (values : List (String × Scalar)) :
    Run.Shifts k (Value.shift k) (s.execute base values) (s'.execute p values) := by
  have hvars : p.vars = base.vars.map (VarDecl.shift k) := by
    obtain ⟨vs, hvs, hitems⟩ := h.items
    cases hvs
    exact Program.Extends.vars_eq hitems
  have hstart : Run.Shifts k id
      (modify fun m => { m with globals := base.initialGlobals } : Run Unit)
      (modify fun m => { m with globals := p.initialGlobals } : Run Unit) := fun m m' hm =>
    ⟨rfl, hm.cells, fun name => h.initialGlobals (fun _ => False) name id, hm.steps, hm.drawn⟩
  refine hstart.bind fun _ => ?_
  rw [hvars]
  refine (hs.initVars base.vars).bind fun _ => (Run.Shifts.setGlobals values).bind fun _ => ?_
  -- The same name is called in both, and stands for the same function or for none.
  intro m m' hm
  change Run.EndsBelow k (Value.shift k) (s.callEntry m) (s'.callEntry m')
  dsimp only [callEntry]
  rw [hs.config, hm.globals]
  cases m.globals.get? s.config.entryPoint with
  | none => rfl
  | some callee => exact hs.apply hs.enterTop callee [] m m' hm

namespace Registry

/-- **With another name the same is compiled, further down**, and it runs alike. -/
theorem compile_rename {r : Registry} (name : String) (hline : '\n' ∉ (trim r.name).toList)
    (hline' : '\n' ∉ (trim name).toList) {c : Compilation}
    (hc : compileText r.assemble = .ok c) :
    ∃ c', compileText { r with name := name }.assemble = .ok c' ∧
      c'.types.result = c.types.result ∧ ∀ config world values fuel, ∃ outcome : Outcome,
        c.run config world values fuel = outcome.shift (shiftBelow (comment r.name)) ∧
          c'.run config world values fuel = outcome.shift (shiftBelow (comment name)) := by
  obtain ⟨hprogram, hcheck⟩ := SourceFile.compile_eq_ok hc
  have hone := program_of_declared hline
  have hother := program_of_declared (r := { r with name := name }) hline'
  have hsame : { r with name := name }.declared = r.declared := rfl
  rw [hsame] at hother
  cases hdeclared : (ofText 0 "" r.declared).program with
  | error e =>
    rw [hdeclared] at hone
    obtain ⟨e', he⟩ := hone
    cases hprogram.symm.trans he
  | ok base =>
    rw [hdeclared] at hone hother
    obtain ⟨p, hp, hextends⟩ := hone
    obtain ⟨p', hp', hextends'⟩ := hother
    obtain rfl : c.program = p := Except.ok.inj (hprogram.symm.trans hp)
    -- Both programs are `base`, moved down by the length of a line, and are checked alike.
    obtain ⟨floats, hfloats, hcheck'⟩ := hextends.check hextends' .nil nofun nofun hcheck
    refine ⟨⟨p', ⟨c.types.result, floats.map (Span.shift (shiftBelow (comment name)))⟩⟩, ?_, rfl, ?_⟩
    · rw [compileText, SourceFile.compile, hp']
      simp only [hcheck']
    · intro config world values fuel
      have hsetting := Setting.below_of_floats hfloats config world fuel
      have hsetting' := @Setting.below_of_floats (shiftBelow (comment name)) ⟨c.types.result, _⟩
        floats rfl config world fuel
      have hrun := hsetting.execute hextends values {} {} Machine.below_empty
      have hrun' := hsetting'.execute hextends' values {} {} Machine.below_empty
      exact ⟨_, Compilation.run_of_endsBelow hrun, Compilation.run_of_endsBelow hrun'⟩

end Registry

/-- Artifacts with the same variables, whose runs end alike, are evaluated alike. -/
theorem Artifact.evaluate_of_runs {a a' : Artifact} (hvars : a.vars = a'.vars)
    (htype : a'.resultType = a.resultType) {config : Config} {world : World} {fuel : Nat}
    (hruns : ∀ values, ∃ outcome : Outcome,
      a.compilation.run config world values fuel = outcome.shift k ∧
        a'.compilation.run config world values fuel = outcome.shift k')
    (overrides : List (String × Scalar)) :
    a'.evaluate config world fuel overrides = a.evaluate config world fuel overrides := by
  have hbind : a.bind overrides = a'.bind overrides := by
    rw [bind, bind, initialValues, initialValues, hvars, bindFrom_congr hvars]
  cases hvalues : a.bind overrides with
  | error e => rw [evaluate, evaluate, ← hbind, hvalues]
  | ok values =>
    obtain ⟨outcome, hrun, hrun'⟩ := hruns values
    exact evaluate_eq_of_runs hvalues (hbind ▸ hvalues) htype hrun hrun'

/-! ## Builds -/

namespace Evaluator

variable {known known' : Set String} {e e' e₁ e₂ : Evaluator}
  {shared shared' shared₁ shared₂ : Store Contents} {answer answer' : Except BuildError Unit}

/-- Whether a name is refused is said by its being blank. -/
theorem validate_rename {r : Registry} {name name' : String} (h : isBlankText name = false)
    (h' : isBlankText name' = false) :
    { r with name := name }.validate = { r with name := name' }.validate := by
  unfold Registry.validate
  rw [h, h']

variable {name name' : String}

/-- Builds of one evaluator under two names of one line each end alike, unless a file cannot be
accessed. -/
theorem Builds.rename (hblank : isBlankText name = false) (hblank' : isBlankText name' = false)
    (hline : '\n' ∉ (trim name).toList) (hline' : '\n' ∉ (trim name').toList)
    (hinj : Set.InjOn Sha256.digestText known) (hinj' : Set.InjOn Sha256.digestText known')
    (he : e.Trusts known shared) (he' : e.Trusts known' shared')
    (hbuild : (e.setName name).Builds known shared answer e₁ shared₁)
    (hbuild' : (e.setName name').Builds known' shared' answer' e₂ shared₂) :
    (∃ path failure, answer = .error (.access path failure) ∨
      answer' = .error (.access path failure)) ∨
    (∃ x, answer = .error (.validation x) ∧ answer' = .error (.validation x)) ∨
    (∃ d d', answer = .error (.compile d) ∧ answer' = .error (.compile d')) ∨
    (answer = .ok () ∧ answer' = .ok () ∧ ∃ a a', e₁.artifact = some a ∧ e₂.artifact = some a' ∧
      a'.resultType = a.resultType ∧ ∀ config world fuel overrides,
        a'.evaluate config world fuel overrides = a.evaluate config world fuel overrides) := by
  have hvalidate : (e.setName name).registry.validate = (e.setName name').registry.validate :=
    validate_rename hblank hblank'
  have hrename {c : Compilation} (hc : compileText (e.setName name).registry.assemble = .ok c) :=
    Registry.compile_rename (r := (e.setName name).registry) name' hline hline' hc
  have hrename' {c : Compilation} (hc : compileText (e.setName name').registry.assemble = .ok c) :=
    Registry.compile_rename (r := (e.setName name').registry) name hline' hline hc
  have hends := hbuild.ends hinj ⟨he.shared, he.workspace⟩
  have hends' := hbuild'.ends hinj' ⟨he'.shared, he'.workspace⟩
  -- Both builds say something of the same declarations, so most endings exclude each other.
  cases hends with
  | access _ => exact .inl ⟨_, _, .inl rfl⟩
  | refused h =>
    rw [hvalidate] at h
    cases hends' with
    | access _ => exact .inl ⟨_, _, .inr rfl⟩
    | refused h' =>
      obtain rfl := Except.error.inj (h.symm.trans h')
      exact .inr (.inl ⟨_, rfl, rfl⟩)
    | compile h' _ => cases h.symm.trans h'
    | built h' _ _ => cases h.symm.trans h'
  | compile h hd =>
    cases hends' with
    | access _ => exact .inl ⟨_, _, .inr rfl⟩
    | refused h' => cases (hvalidate.symm.trans h).symm.trans h'
    | compile _ _ => exact .inr (.inr (.inl ⟨_, _, rfl, rfl⟩))
    | built _ hc' _ =>
      obtain ⟨c, hc, -⟩ := hrename' hc'
      cases hd.symm.trans hc
  | @built c cached _ h hc ha =>
    obtain ⟨c₂, hc₂, htype, hruns⟩ := hrename hc
    cases hends' with
    | access _ => exact .inl ⟨_, _, .inr rfl⟩
    | refused h' => cases (hvalidate.symm.trans h).symm.trans h'
    | compile _ hd' => cases hd'.symm.trans hc₂
    | @built c' cached' _ _ hc' ha' =>
      obtain rfl : c₂ = c' := Except.ok.inj (hc₂.symm.trans hc')
      refine .inr (.inr (.inr ⟨rfl, rfl, _, _, ha, ha', htype, fun config world fuel overrides => ?_⟩))
      have hvars : ((e.setName name).registry.artifactOf c cached).vars =
          ((e.setName name').registry.artifactOf c₂ cached').vars := rfl
      exact Artifact.evaluate_of_runs hvars htype (fun values => hruns config world values fuel)
        overrides

/-- **The name is a label.** Take one evaluator under two names that are not blank and one line each,
and a build under each, among honest files where no two known sources have the same digest. Unless
one of them cannot access a file, both are refused for the same reason, or neither text compiles, or
both succeed, with the same result type; evaluations then give the same scalar or the same error,
with every budget, clock and source of random numbers. First builds that are left alone in private
directories have access to their files, so one of them succeeds if the other does, as long as
neither name makes too long a file name. -/
theorem name_is_label (hblank : isBlankText name = false) (hblank' : isBlankText name' = false)
    (hline : '\n' ∉ (trim name).toList) (hline' : '\n' ∉ (trim name').toList)
    (hinj : Set.InjOn Sha256.digestText known) (hinj' : Set.InjOn Sha256.digestText known')
    (he : e.Trusts known shared) (he' : e.Trusts known' shared')
    (hbuild : (e.setName name).Builds known shared answer e₁ shared₁)
    (hbuild' : (e.setName name').Builds known' shared' answer' e₂ shared₂) :
    ((∃ path failure, answer = .error (.access path failure) ∨
        answer' = .error (.access path failure)) ∨
      (∃ x, answer = .error (.validation x) ∧ answer' = .error (.validation x)) ∨
      (∃ d d', answer = .error (.compile d) ∧ answer' = .error (.compile d')) ∨
      (answer = .ok () ∧ answer' = .ok () ∧ ∃ a a', e₁.artifact = some a ∧ e₂.artifact = some a' ∧
        a'.resultType = a.resultType ∧ ∀ config world fuel overrides,
          a'.evaluate config world fuel overrides = a.evaluate config world fuel overrides)) ∧
    (e.registry.buildPath = none → e.workspace = none →
      (slug name).toList.length ≤ maxSlugLength → (slug name').toList.length ≤ maxSlugLength →
        (((e.setName name).build shared).1 = .ok () ↔
          ((e.setName name').build shared').1 = .ok ())) := by
  refine ⟨hbuild.rename hblank hblank' hline hline' hinj hinj' he he' hbuild', ?_⟩
  -- In private directories a build succeeds as soon as its text compiles.
  intro hpath hworkspace hslug hslug'
  have hvalidate : (e.setName name).registry.validate = (e.setName name').registry.validate :=
    validate_rename hblank hblank'
  rw [build_private (e := e.setName name) hpath hworkspace hslug,
    build_private (e := e.setName name') hpath hworkspace hslug', hvalidate]
  refine and_congr_right fun _ => ⟨?_, ?_⟩
  · rintro ⟨c, hc⟩
    obtain ⟨c', hc', -⟩ := Registry.compile_rename (r := (e.setName name).registry) name' hline
      hline' hc
    exact ⟨c', hc'⟩
  · rintro ⟨c', hc'⟩
    obtain ⟨c, hc, -⟩ := Registry.compile_rename (r := (e.setName name').registry) name hline'
      hline hc'
    exact ⟨c, hc⟩

/-- An evaluator without a name. -/
def unnamed : Evaluator :=
  ofRegistry { formula := "return 1" }

theorem name_is_label_unnamed : ∃ a a',
    ((unnamed.setName "one").build {}).2.1.artifact = some a ∧
      ((unnamed.setName "Zwei\t→ 2").build {}).2.1.artifact = some a' ∧
        a'.resultType = a.resultType ∧ ∀ config world fuel overrides,
          a'.evaluate config world fuel overrides = a.evaluate config world fuel overrides := by
  have hok : ((unnamed.setName "one").build {}).1 = .ok () := by decide +kernel
  have hbuild := builds_build (e := unnamed.setName "one")
    (Set.mem_singleton (unnamed.setName "one").registry.assemble) {}
  have hbuild' := builds_build (e := unnamed.setName "Zwei\t→ 2")
    (Set.mem_singleton (unnamed.setName "Zwei\t→ 2").registry.assemble) {}
  obtain ⟨hends, hprivate⟩ := name_is_label (show isBlankText "one" = false by decide)
    (show isBlankText "Zwei\t→ 2" = false by decide) (by decide) (by decide) (Set.injOn_singleton _ _)
    (Set.injOn_singleton _ _) ⟨Store.all_empty, Store.all_empty⟩
    ⟨Store.all_empty, Store.all_empty⟩ hbuild hbuild'
  have hok' := (hprivate rfl rfl (by decide) (by decide)).mp hok
  rw [hok, hok'] at hends
  rcases hends with ⟨_, _, h | h⟩ | ⟨_, h, -⟩ | ⟨_, _, h, -⟩ | ⟨-, -, hartifacts⟩
  · cases h
  · cases h
  · cases h
  · cases h
  · exact hartifacts

/-- The number that an evaluator gives when it is built and evaluated once. -/
def number? (e : Evaluator) : Option Int64 :=
  match e.build {} with
  | (.ok (), e', _) =>
    match e'.evaluate .regular 0 [] with
    | .ok (.int n) => some n
    | _ => none
  | _ => none

/-- What a second line of a name says is source text, and may well be the function that is called. -/
theorem name_not_label_two_lines : ∃ (e : Evaluator) (name name' : String),
    isBlankText name = false ∧ isBlankText name' = false ∧
      (e.setName name).number? = some 1 ∧ (e.setName name').number? = some 2 :=
  ⟨ofRegistry { formula := "return 1 //*/" }, "a", "a\nfunc evaluate() \x7b return 2 /*", by decide,
    by decide, by decide +kernel, by decide +kernel⟩

end Evaluator

end Formula
