import Formula.Proofs.Registry.Declaring
import Formula.Proofs.Registry.Inputs
import Formula.Proofs.Resolution.Filling

/-!
# Overrides

An evaluation may give values for the variables that were declared at the build. They are taken one
after the other: the first one that is for no variable, or not of its type, is reported, and nothing
is run. Otherwise each variable has a value, and the order of the overrides has no meaning but that
the last one of a name counts.

## Main definitions

* `Registry.Refuses`: what is reported of an override that is not taken

## Main results

* `Artifact.vars_of_runs`: an artifact knows the variables of the declarations that it was built from
* `Artifact.bindFrom_eq_error_iff`: the first override that is refused decides
* `Artifact.binding_is_complete`: which overrides are taken, and what the variables stand for then
-/

namespace Formula

/-- **An override is refused**: there is no variable of its name, or the variable is of another type. -/
inductive Registry.Refuses (r : Registry) (o : String × Scalar) : EvaluationError → Prop where
  | unknown (h : ∀ v ∈ r.vars, v.name ≠ o.1) : r.Refuses o (.unknownVariable o.1)
  | mismatch {v : Variable} (h : v ∈ r.vars) (hname : v.name = o.1) (htype : o.2.type ≠ v.type) :
      r.Refuses o (.typeMismatch o.1 v.type o.2)

namespace Registry

variable {r : Registry} {o : String × Scalar} {e e' : EvaluationError}

/-- What is taken is not refused. -/
theorem Refuses.not_takes (h : r.Refuses o e) (hnodup : (r.vars.map Variable.name).Nodup) :
    ¬r.Takes o := by
  rintro ⟨w, hw, hwname, hwtype⟩
  cases h with
  | unknown h => exact h w hw hwname
  | @mismatch v hv hname htype =>
    obtain rfl := List.inj_on_of_nodup_map hnodup hv hw (hname.trans hwname.symm)
    exact htype hwtype

/-- There is one thing to be reported. -/
theorem Refuses.unique (h : r.Refuses o e) (h' : r.Refuses o e')
    (hnodup : (r.vars.map Variable.name).Nodup) : e = e' := by
  cases h with
  | unknown h =>
    cases h' with
    | unknown => rfl
    | mismatch hw hwname => exact absurd hwname (h _ hw)
  | mismatch hv hname =>
    cases h' with
    | unknown h => exact absurd hname (h _ hv)
    | mismatch hw hwname =>
      rw [List.inj_on_of_nodup_map hnodup hv hw (hname.trans hwname.symm)]

end Registry

namespace Artifact

variable {a : Artifact} {r : Registry}

/-! ## The variables of an artifact -/

theorem compileAndStore_vars {directory stem source digest : String}
    {make : Compilation → Artifact} {vars : List Variable} (hmake : ∀ c, (make c).vars = vars) :
    (compileAndStore directory stem source digest make).Keeps (fun _ => True)
      fun result => ∀ a, result = .ok a → a.vars = vars := by
  refine ⟨trivial, fun answer => ?_⟩
  cases answer with
  | error e => rintro a ⟨⟩
  | ok _ =>
    dsimp only
    cases compileSource stem source with
    | error d => rintro a ⟨⟩
    | ok c =>
      refine ⟨trivial, fun answer => ?_⟩
      cases answer with
      | error e => rintro a ⟨⟩
      | ok _ =>
        rintro _ ⟨⟩
        exact hmake c

/-- Whatever a build finds in the files, the artifact knows the variables that it is given. -/
theorem build_vars (directory : String) (place : Option String) (name source : String)
    (vars : List Variable) :
    (build directory place name source vars).Keeps (fun _ => True)
      fun result => ∀ a, result = .ok a → a.vars = vars := by
  intro made
  cases made with
  | error e => rintro a ⟨⟩
  | ok _ =>
    intro found _
    dsimp only
    split
    · intro stored _
      dsimp only
      cases reusable? (Sha256.digestText source) stored with
      | none => exact compileAndStore_vars fun _ => rfl
      | some c =>
        rintro _ ⟨⟩
        rfl
    · exact compileAndStore_vars fun _ => rfl

/-- **An artifact knows the variables of the declarations that it was built from**, whatever fails at
the build and whatever others do to the files in the meantime. -/
theorem vars_of_runs {task : FileTask Contents (Except BuildError Artifact)}
    (hbuild : r.build = .ok task) {place : Route} {files files' : Store Contents}
    (hruns : task.Runs (fun _ => True) place files (.ok a) files') : a.vars = r.vars := by
  obtain ⟨-, rfl⟩ := Registry.build_eq_ok hbuild
  exact (hruns.result (build_vars _ _ _ _ _) fun _ _ _ => trivial).1 a rfl

/-! ## Overrides, one after the other -/

/-- An override is taken, or it is refused and ends the binding. -/
theorem takes_or_refuses (ha : a.vars = r.vars) (values : Bindings Scalar) (o : String × Scalar)
    (overrides : List (String × Scalar)) :
    (r.Takes o ∧
      a.bindFrom values (o :: overrides) = a.bindFrom (values.set o.1 o.2) overrides) ∨
    ∃ e, r.Refuses o e ∧ a.bindFrom values (o :: overrides) = .error e := by
  obtain ⟨name, value⟩ := o
  rw [bindFrom]
  -- the artifact looks in the variables of the registry, by name
  cases hv : a.declared? name with
  | none =>
    rw [declared?, ha] at hv
    exact .inr ⟨_, .unknown fun v hmem => by simpa using List.find?_eq_none.mp hv v hmem, rfl⟩
  | some v =>
    rw [declared?, ha] at hv
    have hmem := List.mem_of_find?_eq_some hv
    have hname : v.name = name := by simpa using List.find?_some hv
    dsimp only
    split
    · rename_i htype
      exact .inl ⟨⟨v, hmem, hname, htype⟩, rfl⟩
    · rename_i htype
      exact .inr ⟨_, .mismatch hmem hname htype, rfl⟩

/-- **The first override that is refused decides** what is reported. -/
theorem bindFrom_eq_error_iff (ha : a.vars = r.vars) (hnodup : (r.vars.map Variable.name).Nodup)
    (values : Bindings Scalar) (overrides : List (String × Scalar)) (e : EvaluationError) :
    a.bindFrom values overrides = .error e ↔ ∃ front o back, overrides = front ++ o :: back ∧
      (∀ p ∈ front, r.Takes p) ∧ r.Refuses o e := by
  induction overrides generalizing values with
  | nil => simp [bindFrom]
  | cons o overrides ih =>
    -- induction on the overrides: the values taken so far do not matter for what is refused
    rcases takes_or_refuses ha values o overrides with ⟨htakes, hstep⟩ | ⟨e', hrefuses, hstep⟩
    · rw [hstep, ih]
      constructor
      · rintro ⟨front, p, back, rfl, hfront, hp⟩
        exact ⟨o :: front, p, back, rfl, List.forall_mem_cons.mpr ⟨htakes, hfront⟩, hp⟩
      · rintro ⟨front, p, back, heq, hfront, hp⟩
        cases front with
        | nil =>
          obtain ⟨rfl, -⟩ := List.cons.inj heq
          exact absurd htakes (hp.not_takes hnodup)
        | cons q front =>
          obtain ⟨-, rfl⟩ := List.cons.inj heq
          exact ⟨front, p, back, rfl, (List.forall_mem_cons.mp hfront).2, hp⟩
    · rw [hstep]
      constructor
      · rintro ⟨⟩
        exact ⟨[], o, overrides, rfl, by rintro p ⟨⟩, hrefuses⟩
      · rintro ⟨front, p, back, heq, hfront, hp⟩
        cases front with
        | nil =>
          obtain ⟨rfl, -⟩ := List.cons.inj heq
          rw [hrefuses.unique hp hnodup]
        | cons q front =>
          obtain ⟨rfl, -⟩ := List.cons.inj heq
          exact absurd (hfront o List.mem_cons_self) (hrefuses.not_takes hnodup)

/-- **The values of an evaluation**: each variable has that of the last override of its name, or else
its own. -/
theorem bind_eq_valueIn (ha : a.vars = r.vars) (hnodup : (r.vars.map Variable.name).Nodup)
    {overrides : List (String × Scalar)} (h : ∀ o ∈ overrides, r.Takes o) :
    a.bind overrides = .ok (r.vars.map fun v => (v.name, v.valueIn overrides)) := by
  rw [bind_eq ha hnodup h, Registry.initialValues_setDefaults]

/-- Overrides are taken exactly if each of them is. -/
theorem bind_eq_ok_iff (ha : a.vars = r.vars) (hnodup : (r.vars.map Variable.name).Nodup)
    (overrides : List (String × Scalar)) :
    (∃ values, a.bind overrides = .ok values) ↔ ∀ o ∈ overrides, r.Takes o := by
  refine ⟨?_, fun h => ⟨_, bind_eq_valueIn ha hnodup h⟩⟩
  rintro ⟨values, h⟩ o ho
  obtain ⟨v, hv, htakes⟩ := mem_of_bind h o ho
  exact ⟨v, ha ▸ hv, htakes⟩

/-- **Overrides are taken completely, and the last one of a name counts.** Let an artifact be built
from any sequence of declarations. Overrides are taken exactly if each is for a declared variable and
of its type. Then the variables have values, no other names do, and the value is that of the last
override, or else the default, or else the zero of the type. Otherwise the first override that is
refused is reported, and nothing is run. Overrides with the same last value for each name give the
same values, in whatever order. -/
theorem binding_is_complete {edits : List Edit}
    {task : FileTask Contents (Except BuildError Artifact)}
    (hbuild : (Registry.addAll {} edits).build = .ok task) {place : Route}
    {files files' : Store Contents} (hruns : task.Runs (fun _ => True) place files (.ok a) files')
    (overrides : List (String × Scalar)) :
    ((∃ values, a.bind overrides = .ok values) ↔
      ∀ o ∈ overrides, ∃ v ∈ (Registry.addAll {} edits).vars, v.name = o.1 ∧ o.2.type = v.type) ∧
    (∀ values, a.bind overrides = .ok values →
      values.map Prod.fst = (Registry.addAll {} edits).vars.map Variable.name ∧
      (values.map Prod.fst).Nodup ∧
      ∀ v ∈ (Registry.addAll {} edits).vars, values.get? v.name =
        some (((overrides.reverse.find? (·.1 = v.name)).map Prod.snd).getD
          (v.default.getD v.type.zero))) ∧
    (∀ e, a.bind overrides = .error e ↔ ∃ front o back, overrides = front ++ o :: back ∧
      (∀ p ∈ front, (Registry.addAll {} edits).Takes p) ∧
      (Registry.addAll {} edits).Refuses o e) ∧
    (∀ e, a.bind overrides = .error e →
      ∀ config world fuel, a.evaluate config world fuel overrides = .error e) ∧
    ∀ others, (∀ o ∈ overrides, (Registry.addAll {} edits).Takes o) →
      (∀ o ∈ others, (Registry.addAll {} edits).Takes o) →
      (∀ name, (overrides.reverse.find? (·.1 = name)).map Prod.snd =
        (others.reverse.find? (·.1 = name)).map Prod.snd) →
      a.bind others = a.bind overrides := by
  have ha := vars_of_runs hbuild hruns
  have hnodup : ((Registry.addAll {} edits).vars.map Variable.name).Nodup :=
    Registry.vars_addAll {} edits ▸ (recorded_putAll _).nodup
  refine ⟨bind_eq_ok_iff ha hnodup overrides, fun values h => ?_,
    bindFrom_eq_error_iff ha hnodup _ overrides, fun e h config world fuel => ?_,
    fun others h hothers hlast => ?_⟩
  · -- values there are only if all overrides are taken, and then it is these values
    have htakes := (bind_eq_ok_iff ha hnodup overrides).mp ⟨values, h⟩
    obtain rfl := Except.ok.inj ((bind_eq_valueIn ha hnodup htakes).symm.trans h)
    have hnames : ((Registry.addAll {} edits).vars.map fun v => (v.name, v.valueIn overrides)).map
        Prod.fst = (Registry.addAll {} edits).vars.map Variable.name := by
      rw [List.map_map]
      rfl
    refine ⟨hnames, hnames ▸ hnodup, fun v hv => ?_⟩
    exact (Bindings.get?_eq_some_iff (hnames ▸ hnodup)).mpr (List.mem_map_of_mem hv)
  · rw [evaluate, h]
  · rw [bind_eq_valueIn ha hnodup h, bind_eq_valueIn ha hnodup hothers]
    congr 2
    funext v
    rw [Variable.valueIn, Variable.valueIn, hlast]

/-- A variable that is declared twice, before and behind another one. -/
def scaling : List Edit :=
  [.name "scaling", .input ⟨"A", .string, none⟩, .input ⟨"B", .float, none⟩,
    .input ⟨"A", .int, some (.int 2)⟩, .formula "return A"]

theorem binding_is_complete_scaling : ∃ a : Artifact,
    (∃ values, a.bind [("A", .int 5), ("A", .int 7)] = .ok values ∧
      values.get? "A" = some (.int 7) ∧ values.get? "B" = some (.float 0)) ∧
    a.bind [("A", .int 5), ("C", .int 7), ("A", .string "")] = .error (.unknownVariable "C") := by
  have hok : ((Registry.addAll {} scaling).build.toOption.bind fun task =>
      (task.run {} {}).1.toOption).isSome = true := by decide +kernel
  obtain ⟨a, ha⟩ := Option.isSome_iff_exists.mp hok
  obtain ⟨task, htask, hrun⟩ := Option.bind_eq_some_iff.mp ha
  have hbuild : (Registry.addAll {} scaling).build = .ok task := by
    cases h : (Registry.addAll {} scaling).build with
    | error e => simp [h, Except.toOption] at htask
    | ok t => simpa [h, Except.toOption] using htask
  have hruns := FileTask.runs_run (fun _ => True) {} {} task
  have hresult : (task.run {} {}).1 = .ok a := by
    cases h : (task.run {} {}).1 with
    | error e => simp [h, Except.toOption] at hrun
    | ok t => simpa [h, Except.toOption] using hrun
  rw [hresult] at hruns
  have hvars : (Registry.addAll {} scaling).vars =
      [⟨"A", .int, some (.int 2)⟩, ⟨"B", .float, none⟩] := rfl
  refine ⟨a, ?_, ?_⟩
  · obtain ⟨hall, hvalue, -⟩ := binding_is_complete hbuild hruns [("A", .int 5), ("A", .int 7)]
    obtain ⟨values, hvalues⟩ := hall.mpr (by simp [hvars, Scalar.type])
    obtain ⟨-, -, hget⟩ := hvalue values hvalues
    rw [hvars] at hget
    exact ⟨values, hvalues, hget ⟨"A", .int, some (.int 2)⟩ (by simp),
      hget ⟨"B", .float, none⟩ (by simp)⟩
  · obtain ⟨-, -, herror, -⟩ := binding_is_complete hbuild hruns
      [("A", .int 5), ("C", .int 7), ("A", .string "")]
    refine (herror _).mpr ⟨[("A", .int 5)], ("C", .int 7), [("A", .string "")], rfl, ?_, ?_⟩
    · simp [Registry.Takes, hvars, Scalar.type]
    · exact .unknown (by simp [hvars])

end Artifact

end Formula
