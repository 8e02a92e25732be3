import Formula.Proofs.Evaluator.Ending
import Formula.Proofs.Program.Depth
import Formula.Proofs.Registry.Overriding

/-!
# Inputs that a program declares

The inputs of a formula are looked up by the names that they were declared with, and the program by
the names that are read of its text. These agree exactly if the names of the inputs are names of the
language: then each input is a variable of the program, and an evaluation starts with the value that
was given for it. An input of any other name is no variable of the program.

## Main definitions

* `Artifact.Declares`: the program of an artifact declares an input
* `Variable.valueIn`: the value of an input among overrides

## Main results

* `Token.isName_of_scan`: the names in a text are names of the language
* `Run.forM_setGlobal_of_nodup`: what values from outside do to a machine
* `Evaluator.inputs_declared`: what a successful build says of the inputs
-/

namespace Formula

open Parse SourceFile Text

/-! ## Names in a text -/

theorem ne_identifier_of_numberFrom {start : Nat} {whole : List Char} {fraction : Option (List Char)}
    {p q : Place} {kind : TokenKind} (h : numberFrom start whole fraction p = .ok (kind, q))
    (name : String) : kind ≠ .identifier name := by
  unfold numberFrom at h
  split at h
  · dsimp only at h
    split at h <;> cases h
    exact TokenKind.noConfusion
  · cases h
    exact TokenKind.noConfusion

theorem ne_identifier_of_stringFrom {start offset : Nat} {done cs : List Char} {q : Place}
    {kind : TokenKind} (h : stringFrom start done offset cs = .ok (kind, q)) (name : String) :
    kind ≠ .identifier name := by
  fun_induction stringFrom start done offset cs with
  | case1 | case3 | case4 | case6 => cases h
  | case2 =>
    cases h
    exact TokenKind.noConfusion
  | case5 _ _ _ _ _ _ ih | case7 _ _ _ _ _ _ _ _ ih => exact ih h

theorem ne_identifier_of_rawStringAt {start : Nat} {p q : Place} {kind : TokenKind}
    (h : rawStringAt start p = .ok (kind, q)) (name : String) : kind ≠ .identifier name := by
  unfold rawStringAt at h
  dsimp only at h
  split at h <;> cases h
  exact TokenKind.noConfusion

theorem Place.forall_takeWhileFrom (keep : Char → Bool) (offset : Nat) (cs : List Char) :
    ∀ c ∈ (takeWhileFrom keep offset cs).1, keep c = true := by
  induction cs generalizing offset with
  | nil => exact List.forall_mem_nil _
  | cons c cs ih =>
    unfold takeWhileFrom
    split
    · exact List.forall_mem_cons.mpr ⟨‹_›, ih _⟩
    · exact List.forall_mem_nil _

/-- **A name that is read** is a word that is not reserved. -/
theorem isName_of_lexeme {start : Nat} {c : Char} {p q : Place} {name : String}
    (h : lexeme start c p = .ok (.token (.identifier name), q)) : IsName name := by
  generalize hkind : TokenKind.identifier name = kind at h
  -- Only words give names; what is read in the other forms is of another kind.
  cases LexemeAt.of_lexeme h with
  | symbol => cases hkind
  | comment _ _ hread => exact absurd rfl (ne_token_of_commentAt hread kind)
  | number _ hread => exact absurd hkind.symm (ne_identifier_of_numberFrom hread name)
  | fraction _ _ hread =>
    simp only [fractionOnlyAt] at hread
    exact absurd hkind.symm (ne_identifier_of_numberFrom hread name)
  | string _ hread => exact absurd hkind.symm (ne_identifier_of_stringFrom hread name)
  | rawString _ hread => exact absurd hkind.symm (ne_identifier_of_rawStringAt hread name)
  | word hstart =>
    have hword : isWord (c :: (p.takeWhile continuesName).1) = true := by
      rw [isWord, hstart, Bool.true_and, List.all_eq_true]
      exact Place.forall_takeWhileFrom _ _ _
    unfold wordKind at hkind
    split at hkind <;> cases hkind
    exact ⟨by rwa [String.toList_ofList], ‹_›⟩

/-- All names that have been read are names of the language. -/
def Scanned.Named (s : Scanned) : Prop :=
  ∀ t ∈ s.tokens, ∀ name, t.kind = .identifier name → IsName name

namespace Scanned.Named

variable {s : Scanned} {file : SourceFile}

theorem endLine (h : s.Named) (offset : Nat) : (s.endLine file offset).Named := by
  unfold Scanned.endLine
  split
  · exact List.forall_mem_cons.mpr ⟨fun _ => TokenKind.noConfusion, h⟩
  · exact h

/-- What is scanned from a place on has names of the language. -/
theorem scanFrom {p : Place} {tokens : List Token} (h : s.Named)
    (hscan : Scanned.scanFrom file s p = .ok tokens) :
    ∀ t ∈ tokens, ∀ name, t.kind = .identifier name → IsName name := by
  fun_induction Scanned.scanFrom file s p with
  | case1 s p hrest =>
    cases hscan
    intro t ht
    rcases List.mem_cons.mp (List.mem_reverse.mp ht) with rfl | ht
    · exact fun _ => TokenKind.noConfusion
    · exact h.endLine file.size t ht
  | case2 => cases hscan
  | case3 s p c rest hrest l q hl ih =>
    refine ih ?_ hscan
    cases l with
    | token kind =>
      refine List.forall_mem_cons.mpr ⟨?_, h⟩
      rintro name rfl
      exact isName_of_lexeme hl
    | lineBreak => exact h.endLine p.offset
    | blank => exact h

end Scanned.Named

/-- **The names in a text are names of the language.** -/
theorem Token.isName_of_scan {file : SourceFile} {tokens : List Token}
    (h : Token.scan file = .ok tokens) : ∀ t ∈ tokens, ∀ name, t.kind = .identifier name → IsName name :=
  Scanned.Named.scanFrom (s := {}) (List.forall_mem_nil _) h

/-- The names that a program declares are among them. -/
theorem SourceFile.isName_of_program {file : SourceFile} {p : Program} (h : file.program = .ok p) :
    ∀ i ∈ p.items, IsName i.name := by
  obtain ⟨tokens, hscan, hp⟩ := program_eq_ok h
  intro i hi
  -- The readers say of a declaration which token its name is, whatever is counted.
  have hlevels : Count.levels.Bounded tokens 0 := ⟨Nat.zero_le 1, fun _ _ => Nat.le_refl 0⟩
  obtain ⟨t, ht, hkind⟩ := (Program.given_of_ofTokens hlevels hp i hi).name
  exact Token.isName_of_scan hscan t ht i.name hkind

/-! ## Values from outside -/

/-- **What values from outside do to a machine**: the names that they are for stand for them, and all
other names for what they stood for. -/
theorem Run.forM_setGlobal_of_nodup {values : List (String × Scalar)}
    (h : (values.map Prod.fst).Nodup) (m : Machine) :
    ∃ g, (values.forM fun (name, v) => Run.setGlobal name (.scalar v)) m =
        .ok () { m with globals := g } ∧
      (∀ o ∈ values, g.get? o.1 = some (.scalar o.2)) ∧
        ∀ name ∉ values.map Prod.fst, g.get? name = m.globals.get? name := by
  induction values generalizing m with
  | nil => exact ⟨_, rfl, nofun, fun _ _ => rfl⟩
  | cons o values ih =>
    obtain ⟨name, v⟩ := o
    obtain ⟨hnot, hnodup⟩ := List.nodup_cons.mp h
    obtain ⟨g, hrun, hgiven, hother⟩ := ih hnodup { m with globals := m.globals.set name (.scalar v) }
    refine ⟨g, hrun, List.forall_mem_cons.mpr ⟨?_, hgiven⟩, fun other hnone => ?_⟩
    · -- No later value is for the same name.
      rw [hother name hnot, Bindings.get?_set_self]
    · obtain ⟨hne, hnone⟩ := not_or.mp (mt List.mem_cons.mpr hnone)
      rw [hother other hnone, Bindings.get?_set, if_neg (Ne.symm hne)]

/-- The value of an input among overrides: that of the last one of its name, or else its own. -/
def Variable.valueIn (v : Variable) (overrides : List (String × Scalar)) : Scalar :=
  ((overrides.reverse.find? (·.1 = v.name)).map Prod.snd).getD v.initialValue

theorem Variable.valueIn_append (v : Variable) (overrides : List (String × Scalar))
    (o : String × Scalar) :
    v.valueIn (overrides ++ [o]) = if o.1 = v.name then o.2 else v.valueIn overrides := by
  simp only [valueIn, List.reverse_append, List.reverse_singleton, List.singleton_append,
    List.find?_cons]
  by_cases ho : o.1 = v.name <;> simp [ho]

/-- Declarations with other values have the values that they have among overrides. -/
theorem Registry.initialValues_setDefaults (r : Registry) (overrides : List (String × Scalar)) :
    (r.setDefaults overrides).initialValues = r.vars.map fun v => (v.name, v.valueIn overrides) := by
  -- The last override of a name decides, so overrides are taken away from their end.
  induction overrides using List.reverseRecOn with
  | nil => rfl
  | append_singleton overrides o ih =>
    have hlast : r.setDefaults (overrides ++ [o]) = (r.setDefaults overrides).setDefault o.1 o.2 := by
      simp [setDefaults]
    have hset (v : Variable) : ((v.setDefault o.1 o.2).name, (v.setDefault o.1 o.2).initialValue) =
        (v.name, if o.1 = v.name then o.2 else v.initialValue) := by
      by_cases ho : v.name = o.1
      · simp [Variable.setDefault, Variable.initialValue, ho]
      · simp [Variable.setDefault, ho, Ne.symm ho]
    calc (r.setDefaults (overrides ++ [o])).initialValues
      _ = (r.setDefaults overrides).vars.map fun v =>
            (v.name, if o.1 = v.name then o.2 else v.initialValue) := by
        rw [hlast, initialValues, setDefault, List.map_map]
        exact List.map_congr_left fun v _ => hset v
      _ = (r.setDefaults overrides).initialValues.map fun x =>
            (x.1, if o.1 = x.1 then o.2 else x.2) := by
        rw [initialValues, List.map_map]
        rfl
      _ = r.vars.map fun v => (v.name, v.valueIn (overrides ++ [o])) := by
        rw [ih, List.map_map]
        exact List.map_congr_left fun v _ => by simp [Variable.valueIn_append]

/-! ## Runs and evaluations -/

namespace Setting

/-- **A run calls the entry function on a machine that has the values among overrides.** -/
theorem exists_callEntry (s : Setting) (p : Program) {r : Registry}
    (hnodup : (r.vars.map Variable.name).Nodup) (overrides : List (String × Scalar)) {m : Machine}
    (hinit : s.initVars p.vars { globals := p.initialGlobals } = .ok () m) :
    ∃ m₁, s.execute p (r.setDefaults overrides).initialValues {} = s.callEntry m₁ ∧
      ∀ v ∈ r.vars, ∀ env, env.find? v.name = none →
        Run.lookup env v.name m₁ = .ok (.scalar (v.valueIn overrides)) m₁ := by
  rw [Registry.initialValues_setDefaults]
  have hnames : (r.vars.map fun v => (v.name, v.valueIn overrides)).map Prod.fst =
      r.vars.map Variable.name := by
    rw [List.map_map]
    rfl
  obtain ⟨g, hset, hgiven, -⟩ := Run.forM_setGlobal_of_nodup (hnames ▸ hnodup) m
  refine ⟨_, s.execute_of_ready hinit hset, fun v hv env henv => ?_⟩
  have hvalue : g.get? v.name = some (.scalar (v.valueIn overrides)) :=
    hgiven _ (List.mem_map_of_mem hv)
  simp only [Run.lookup, henv, hvalue]

end Setting

namespace Artifact

/-- **The program of an artifact declares an input**: it has a package-level variable of its name
and its type. -/
def Declares (a : Artifact) (v : Variable) : Prop :=
  ∃ d ∈ a.compilation.program.vars, d.name = v.name ∧
    ∃ t, d.type = some t ∧ t.resolve = .ok (.ofScalar v.type)

/-- What a program declares is named by a name of the language. -/
theorem Declares.isName {a : Artifact} {v : Variable} (h : a.Declares v)
    (ha : compileText a.source = .ok a.compilation) : IsName v.name := by
  obtain ⟨d, hd, hname, -⟩ := h
  exact hname ▸ SourceFile.isName_of_program (SourceFile.compile_eq_ok ha).1 _ (Program.mem_vars.mp hd)

/-- Overrides that are taken are of inputs, and of their types. -/
theorem mem_of_bind {a : Artifact} {overrides : List (String × Scalar)} {values : Bindings Scalar}
    (h : a.bind overrides = .ok values) :
    ∀ o ∈ overrides, ∃ v ∈ a.vars, v.name = o.1 ∧ o.2.type = v.type := by
  intro o ho
  obtain ⟨v, hv, htype⟩ := (a.bindFrom_eq_ok_iff _ overrides).mp ⟨values, h⟩ o ho
  exact ⟨v, List.mem_of_find?_eq_some hv, by simpa using List.find?_some hv, htype⟩

end Artifact

namespace Program.Extends

variable {k : Shift} {vars : List Variable} {p base : Program}

/-- A program below inputs has a variable for each of them. -/
theorem declares (h : p.Extends k vars base) : ∀ v ∈ vars, ∃ d ∈ p.vars, d.name = v.name ∧
    ∃ t, d.type = some t ∧ t.resolve = .ok (.ofScalar v.type) := by
  obtain ⟨vs, hvs, hitems⟩ := h.items
  intro v hv
  obtain ⟨i, hi, rfl⟩ := List.mem_iff_getElem.mp hv
  obtain ⟨hlength, hall⟩ := List.forall₂_iff_get.mp hvs
  -- The variables stand in the order of the inputs.
  obtain ⟨hname, ⟨s, htype⟩, -⟩ := hall i hi (hlength ▸ hi)
  refine ⟨vs.get ⟨i, hlength ▸ hi⟩, ?_, hname, _, htype, resolve_type _ s⟩
  rw [vars_eq hitems]
  exact List.mem_append_left _ (List.get_mem _ _)

/-- A program that is accepted below inputs has no two of the same name. -/
theorem distinctNames (h : p.Extends k vars base) {entryPoint : String} {types : TypeInfo}
    (hcheck : p.check entryPoint = .ok types) : (vars.map Variable.name).Nodup := by
  obtain ⟨taken, scopes, scopes', notes, -, hnames, -⟩ := Program.check_eq_ok hcheck
  obtain ⟨vs, hvs, hitems⟩ := h.items
  have hall : (p.items.map Item.name).Nodup := (nodup_of_checkNames hnames).1
  have hsame : List.Forall₂ (· = ·) (vars.map Variable.name) (vs.map VarDecl.name) := by
    rw [List.forall₂_map_left_iff, List.forall₂_map_right_iff]
    exact hvs.imp fun v d hd => hd.name.symm
  have hvars : vars.map Variable.name = vs.map VarDecl.name := List.forall₂_eq_eq_eq ▸ hsame
  rw [hitems, List.map_append, List.map_map] at hall
  exact hvars ▸ (List.nodup_append.mp hall).1

end Program.Extends

/-! ## Builds -/

theorem Scalar.eq_int {v : Scalar} {n : Int64} (h : (v == .int n) = true) : v = .int n := by
  cases v with
  | int m => exact congrArg Scalar.int (eq_of_beq h)
  | float _ | string _ | bool _ => cases h

namespace Evaluator

variable {known : Set String} {e e' : Evaluator} {shared shared' : Store Contents}

/-- **Inputs that a program declares.** Take an evaluator whose name is one line, and a build that
succeeds, among honest files where no two known sources have the same digest. An input that the
program declares has a name of the language. If all inputs have one, the program declares them all,
and nothing that is given for them is lost: overrides that are taken are of declared inputs and of
their types, and when the variables of the program are set, a run goes on as the call of the entry
function on a machine where each input that is not hidden has the value of the last override of its
name, or else its own. -/
theorem inputs_declared (hinj : Set.InjOn Sha256.digestText known) (he : e.Trusts known shared)
    (hname : '\n' ∉ (trim e.registry.name).toList)
    (hbuild : e.Builds known shared (.ok ()) e' shared') :
    ∃ a, e'.artifact = some a ∧ a.vars = e.registry.vars ∧
      (∀ v ∈ a.vars, a.Declares v → IsName v.name) ∧
      ((∀ v ∈ a.vars, IsName v.name) → (∀ v ∈ a.vars, a.Declares v) ∧
        ∀ overrides values, a.bind overrides = .ok values →
          (∀ o ∈ overrides, ∃ v ∈ a.vars, v.name = o.1 ∧ o.2.type = v.type) ∧
          ∀ config world fuel m,
            Setting.initVars ⟨a.compilation.types, config, world, fuel⟩ a.compilation.program.vars
              { globals := a.compilation.program.initialGlobals } = .ok () m →
            ∃ m₁, Setting.execute ⟨a.compilation.types, config, world, fuel⟩ a.compilation.program
                values {} = Setting.callEntry ⟨a.compilation.types, config, world, fuel⟩ m₁ ∧
              ∀ v ∈ a.vars, ∀ env, env.find? v.name = none →
                Run.lookup env v.name m₁ = .ok (.scalar (v.valueIn overrides)) m₁) := by
  have hends := hbuild.ends hinj he
  generalize hok : (Except.ok () : Except BuildError Unit) = answer at hends
  cases hends with
  | refused _ => cases hok
  | access _ => cases hok
  | compile _ _ => cases hok
  | @built c cached _ _ hc ha =>
    refine ⟨_, ha, rfl, fun v _ hv => hv.isName hc, fun hnames => ?_⟩
    obtain ⟨hprogram, hcheck⟩ := SourceFile.compile_eq_ok hc
    -- If their names are names, the inputs are declared above the rest, each with a variable.
    obtain ⟨base, hbase⟩ := Registry.exists_base hname hnames hprogram
    obtain ⟨p, hp, hextends⟩ := hbase e.registry (.refl _)
    obtain rfl : c.program = p := Except.ok.inj (hprogram.symm.trans hp)
    have hnodup := hextends.distinctNames hcheck
    refine ⟨hextends.declares, fun overrides values hvalues => ?_⟩
    have hgiven := Artifact.mem_of_bind hvalues
    have hbind := Artifact.bind_eq (a := e.registry.artifactOf c cached) rfl hnodup hgiven
    obtain rfl := Except.ok.inj (hvalues.symm.trans hbind)
    exact ⟨hgiven, fun config world fuel m hinit =>
      Setting.exists_callEntry _ c.program hnodup overrides hinit⟩

/-- A formula that gives the sum of its inputs. -/
def summed : Evaluator :=
  ofRegistry
    { name := "sum"
      formula := "return A + B"
      vars := [⟨"A", .int, some (.int 2)⟩, ⟨"B", .int, none⟩] }

theorem inputs_declared_summed : ∃ a, (summed.build {}).2.1.artifact = some a ∧
    (∀ v ∈ a.vars, a.Declares v) ∧ ∃ values, a.bind [("B", .int 5)] = .ok values ∧
      ∃ m₁, Setting.execute ⟨a.compilation.types, {}, .regular, 0⟩ a.compilation.program values {} =
          Setting.callEntry ⟨a.compilation.types, {}, .regular, 0⟩ m₁ ∧
        Run.lookup .empty "A" m₁ = .ok (.scalar (.int 2)) m₁ ∧
          Run.lookup .empty "B" m₁ = .ok (.scalar (.int 5)) m₁ := by
  have hok : (summed.build {}).1 = .ok () := by decide +kernel
  have hbuild := builds_build (e := summed) (Set.mem_singleton summed.registry.assemble) {}
  rw [hok] at hbuild
  obtain ⟨a, ha, hvars, -, hall⟩ := inputs_declared (Set.injOn_singleton _ _)
    ⟨Store.all_empty, Store.all_empty⟩ (by decide) hbuild
  have hnames : ∀ v ∈ a.vars, IsName v.name := by
    rw [hvars]
    intro v hv
    simp only [summed, ofRegistry, List.mem_cons, List.not_mem_nil, or_false] at hv
    rcases hv with rfl | rfl <;> exact ⟨by decide, by decide +kernel⟩
  obtain ⟨hdeclares, hlands⟩ := hall hnames
  have hready : ((summed.build {}).2.1.artifact.any fun a => (a.bind [("B", .int 5)]).toOption.any
      fun _ => ((Setting.initVars ⟨a.compilation.types, {}, .regular, 0⟩
        a.compilation.program.vars).run' { globals := a.compilation.program.initialGlobals }).isSome) =
          true := by
    decide +kernel
  rw [ha, Option.any_some] at hready
  obtain ⟨values, hvalues, hstart⟩ := Except.exists_of_any hready
  obtain ⟨⟨⟩, m, hinit⟩ := Run.exists_of_isSome hstart
  obtain ⟨-, hruns⟩ := hlands _ values hvalues
  obtain ⟨m₁, hrun, hlookup⟩ := hruns {} .regular 0 m hinit
  rw [hvars] at hlookup
  exact ⟨a, ha, hdeclares, values, hvalues, m₁, hrun, hlookup _ (.head _) _ rfl,
    hlookup _ (.tail _ (.head _)) _ rfl⟩

/-- An input whose name begins with a blank, and a formula that returns the variable that is read of
its line. -/
def padded : Evaluator :=
  ofRegistry
    { name := "padded"
      formula := "return A"
      vars := [⟨" A", .int, some (.int 1)⟩] }

/-- Where the name of an input is no name of the language, a value that is given for it may be
lost. -/
theorem input_undeclared_padded : (padded.build {}).1 = .ok () ∧
    (∃ a, (padded.build {}).2.1.artifact = some a ∧ ∃ v ∈ a.vars, ¬a.Declares v ∧
      ∃ values, a.bind [(v.name, .int 5)] = .ok values) ∧
    (padded.build {}).2.1.evaluate .regular 0 [(" A", .int 5)] = .ok (.int 1) := by
  have hok : (padded.build {}).1 = .ok () := by decide +kernel
  refine ⟨hok, ?_, ?_⟩
  · have hbuild := builds_build (e := padded) (Set.mem_singleton padded.registry.assemble) {}
    have hends := hbuild.ends (Set.injOn_singleton _ _) ⟨Store.all_empty, Store.all_empty⟩
    generalize hanswer : (padded.build {}).1 = answer at hends
    rw [hok] at hanswer
    cases hends with
    | refused _ => cases hanswer
    | access _ => cases hanswer
    | compile _ _ => cases hanswer
    | built _ hc ha =>
      refine ⟨_, ha, _, .head _, fun hdeclares => ?_, _, rfl⟩
      exact absurd (hdeclares.isName hc).word (by decide)
  · have hvalue : ((padded.build {}).2.1.evaluate .regular 0 [(" A", .int 5)]).toOption.any
        (· == .int 1) = true := by
      decide +kernel
    obtain ⟨v, hv, hone⟩ := Except.exists_of_any hvalue
    rw [hv, Scalar.eq_int hone]

end Evaluator

end Formula
