import Formula.Evaluator
import Formula.Proofs.Artifact.Honest

/-!
# The life of an evaluator

Declarations, budgets, builds and evaluations follow one another in any order, and a build may fail
at each of its steps. What an evaluator answers is at any time told by what has been asked of it:
evaluations see the declarations of the last successful build, and the budgets that are in force.

## Main definitions

* `Edit`: what can be said about a formula
* `Evaluator.Builds`: how a build may end, among others that work in the same directories
* `Event`, `Session`: what is asked of an evaluator, the latest event first
* `registryAfter`, `configAfter`, `lastBuilt?`: what a log tells of an evaluator

## Main results

* `Evaluator.Builds.of_error`: a failed build changes nothing but files
* `Session.told`: what a log tells of an evaluator is so
* `Session.lifecycle`: what holds at any time in the life of an evaluator
-/

namespace Formula

/-! ## Overrides -/

namespace Artifact

/-- Overrides are taken exactly if all of them are of variables as they were at the build, with
values of their types. -/
theorem bindFrom_eq_ok_iff (a : Artifact) (values : Bindings Scalar)
    (overrides : List (String × Scalar)) :
    (∃ result, a.bindFrom values overrides = .ok result) ↔
      ∀ o ∈ overrides, ∃ v, a.declared? o.1 = some v ∧ o.2.type = v.type := by
  induction overrides generalizing values with
  | nil => simp [bindFrom]
  | cons o overrides ih =>
    obtain ⟨name, value⟩ := o
    rw [List.forall_mem_cons, bindFrom]
    cases hv : a.declared? name with
    | none => simp
    | some v =>
      by_cases htype : value.type = v.type
      · simp [htype, ih]
      · simp [htype]

/-- Overrides are checked against the variables of the artifact alone. -/
theorem bindFrom_congr {a a' : Artifact} (h : a.vars = a'.vars) (values : Bindings Scalar)
    (overrides : List (String × Scalar)) :
    a.bindFrom values overrides = a'.bindFrom values overrides := by
  have hdeclared (name : String) : a.declared? name = a'.declared? name := by
    rw [declared?, declared?, h]
  induction overrides generalizing values with
  | nil => rfl
  | cons o overrides ih => simp only [bindFrom, hdeclared, ih]

/-- **An evaluation depends on the program and the variables of the artifact alone.** -/
theorem evaluate_congr {a a' : Artifact} (hvars : a.vars = a'.vars)
    (hcompilation : a.compilation = a'.compilation) (config : Config) (world : World) (fuel : Nat)
    (overrides : List (String × Scalar)) :
    a.evaluate config world fuel overrides = a'.evaluate config world fuel overrides := by
  have hbind : a.bind overrides = a'.bind overrides := by
    rw [bind, bind, initialValues, initialValues, hvars, bindFrom_congr hvars]
  have htype : a.resultType = a'.resultType := congrArg (·.types.result) hcompilation
  have hresult (v : Value) : a.resultOf v = a'.resultOf v := by
    unfold resultOf
    rw [htype]
  simp only [evaluate, hbind, hcompilation, hresult]

end Artifact

/-- The artifact of declarations, for the program that they are compiled to. -/
def Registry.artifactOf (r : Registry) (c : Compilation) (cached : Bool) : Artifact where
  source := r.assemble
  digest := Sha256.digestText r.assemble
  compilation := c
  vars := r.vars
  stem := fileStem r.name (Sha256.digestText r.assemble)
  directory := r.buildPath
  cached := cached

/-! ## Declarations that are refused or not -/

/-- Declarations that are not refused are built as they are. -/
theorem Registry.build_eq_ok {r : Registry} {task : FileTask Contents (Except BuildError Artifact)}
    (h : r.build = .ok task) : r.validate = .ok () ∧
      task = Artifact.build (r.buildPath.getD "") r.buildPath r.name r.assemble r.vars := by
  unfold Registry.build at h
  split at h <;> cases h
  exact ⟨‹_›, rfl⟩

theorem Registry.build_eq_error {r : Registry} {e : ValidationError} (h : r.build = .error e) :
    r.validate = .error e := by
  unfold Registry.build at h
  split at h <;> cases h
  assumption

/-! ## What is asked of an evaluator -/

/-- What can be said about a formula. -/
inductive Edit where
  | name (name : String)
  | kind (kind : EvaluationKind)
  | formula (formula : String)
  | buildPath (path : String)
  | input (v : Variable)
  | helper (h : Helper)
  | package (path : String)

namespace Edit

/-- What a declaration does to an evaluator. -/
def perform (e : Evaluator) : Edit → Evaluator
  | name s => e.setName s
  | kind k => e.setKind k
  | formula s => e.setFormula s
  | buildPath path => e.setBuildPath path
  | input v => e.defineVariable v
  | helper h => e.defineHelper h
  | package path => e.importPackage path

/-- What it does to the declarations so far. -/
def add (r : Registry) : Edit → Registry
  | name s => { r with name := s }
  | kind k => { r with kind := k }
  | formula s => { r with formula := s }
  | buildPath path => { r with buildPath := some path }
  | input v => r.defineVariable v
  | helper h => r.defineHelper h
  | package path => r.importPackage path

/-- A declaration changes the declarations and nothing else. -/
theorem perform_eq (e : Evaluator) (edit : Edit) :
    edit.perform e = { e with registry := edit.add e.registry } := by
  cases edit <;> rfl

end Edit

namespace Evaluator

variable {known : Set String} {e e' : Evaluator} {shared shared' : Store Contents}
  {answer : Except BuildError Unit}

/-- **How a build may end**: the declarations are refused, or a build of them is at work in their
directory or else in the private one, where its steps may fail and others may be at work too. The
known sources are those that any of them compiles. -/
inductive Builds (known : Set String) (e : Evaluator) (shared : Store Contents) :
    Except BuildError Unit → Evaluator → Store Contents → Prop where
  | refused {x : ValidationError} (h : e.registry.build = .error x) :
      Builds known e shared (.error (.validation x)) e shared
  | inShared {task : FileTask Contents (Except BuildError Artifact)} {path : String}
      {result : Except BuildError Artifact} {shared' : Store Contents}
      (h : e.registry.build = .ok task) (hknown : e.registry.assemble ∈ known)
      (hpath : e.registry.buildPath = some path)
      (hruns : task.Runs (Contents.Honest known) (.ofText path) shared result shared') :
      Builds known e shared (e.finish result).1 (e.finish result).2 shared'
  | inPrivate {task : FileTask Contents (Except BuildError Artifact)}
      {result : Except BuildError Artifact} {own : Store Contents}
      (h : e.registry.build = .ok task) (hknown : e.registry.assemble ∈ known)
      (hpath : e.registry.buildPath = none)
      (hruns : task.Runs (Contents.Honest known) {} (e.workspace.getD {}) result own) :
      Builds known e shared ({ e with workspace := some own }.finish result).1
        ({ e with workspace := some own }.finish result).2 shared

/-- A build that is left alone ends in one of these ways. -/
theorem builds_build (hknown : e.registry.assemble ∈ known) (shared : Store Contents) :
    e.Builds known shared (e.build shared).1 (e.build shared).2.1 (e.build shared).2.2 := by
  unfold build
  cases h : e.registry.build with
  | error x => exact .refused h
  | ok task =>
    cases hpath : e.registry.buildPath with
    | some path => exact .inShared h hknown hpath (FileTask.runs_run _ _ _ _)
    | none => exact .inPrivate h hknown hpath (FileTask.runs_run _ _ _ _)

/-- **A failed build leaves declarations, budgets and the artifact as they were.** -/
theorem Builds.of_error {x : BuildError} (h : e.Builds known shared (.error x) e' shared') :
    e'.registry = e.registry ∧ e'.config = e.config ∧ e'.artifact = e.artifact := by
  generalize hx : (Except.error x : Except BuildError Unit) = answer at h
  cases h with
  | refused h => exact ⟨rfl, rfl, rfl⟩
  | @inShared task path result =>
    cases result with
    | error y => exact ⟨rfl, rfl, rfl⟩
    | ok a => cases hx
  | @inPrivate task result own =>
    cases result with
    | error y => exact ⟨rfl, rfl, rfl⟩
    | ok a => cases hx

/-- All files that an evaluator works with are honest. -/
structure Trusts (known : Set String) (e : Evaluator) (shared : Store Contents) : Prop where
  shared : shared.All (Contents.Honest known)
  workspace : (e.workspace.getD {}).All (Contents.Honest known)

/-- What is known of a build of declarations that are not refused. -/
theorem keeps_of_build (hinj : Set.InjOn Sha256.digestText known) {r : Registry}
    (hknown : r.assemble ∈ known) {task : FileTask Contents (Except BuildError Artifact)}
    (h : r.build = .ok task) :
    task.Keeps (Contents.Honest known)
      (Artifact.EndsRight r.buildPath r.name r.assemble r.vars) := by
  obtain ⟨-, rfl⟩ := Registry.build_eq_ok h
  exact Artifact.build_keeps hinj hknown

/-- **A build leaves honest files, and a successful one the artifact of the declarations.** -/
theorem Builds.trusts (hinj : Set.InjOn Sha256.digestText known)
    (h : e.Builds known shared answer e' shared') (he : e.Trusts known shared) :
    e'.Trusts known shared' ∧ (answer = .ok () →
      e'.registry = e.registry ∧ e'.config = e.config ∧ ∃ c cached,
        compileText e.registry.assemble = .ok c ∧
          e'.artifact = some (e.registry.artifactOf c cached)) := by
  cases h with
  | refused h => exact ⟨he, nofun⟩
  | @inShared task path result _ h hknown hpath hruns =>
    obtain ⟨hend, hshared⟩ := hruns.result (keeps_of_build hinj hknown h) he.shared
    cases result with
    | error y => exact ⟨⟨hshared, he.workspace⟩, nofun⟩
    | ok a =>
      obtain ⟨c, cached, hc, rfl⟩ := hend
      exact ⟨⟨hshared, he.workspace⟩, fun _ => ⟨rfl, rfl, c, cached, hc, rfl⟩⟩
  | @inPrivate task result own h hknown hpath hruns =>
    obtain ⟨hend, hown⟩ := hruns.result (keeps_of_build hinj hknown h) he.workspace
    cases result with
    | error y => exact ⟨⟨he.shared, hown⟩, nofun⟩
    | ok a =>
      obtain ⟨c, cached, hc, rfl⟩ := hend
      exact ⟨⟨he.shared, hown⟩, fun _ => ⟨rfl, rfl, c, cached, hc, rfl⟩⟩

end Evaluator

/-- What is asked of an evaluator, and what it answers. -/
inductive Event where
  | declared (edit : Edit)
  | configured (config : Config)
  | built (answer : Except BuildError Unit)
  | evaluated (overrides : List (String × Scalar)) (answer : Except EvaluationError Scalar)

/-- **The life of an evaluator** for the declarations `r`, told by its log, the latest event first.
Between the events the files may change in any way in which they stay honest. -/
inductive Session (known : Set String) (r : Registry) :
    List Event → Evaluator → Store Contents → Prop where
  | start {shared : Store Contents} (hshared : shared.All (Contents.Honest known)) :
      Session known r [] (.ofRegistry r) shared
  | declare {log : List Event} {e : Evaluator} {shared : Store Contents} (edit : Edit)
      (before : Session known r log e shared) :
      Session known r (.declared edit :: log) (edit.perform e) shared
  | configure {log : List Event} {e : Evaluator} {shared : Store Contents} (config : Config)
      (before : Session known r log e shared) :
      Session known r (.configured config :: log) (e.setConfig config) shared
  | build {log : List Event} {e e' : Evaluator} {shared shared' : Store Contents}
      {answer : Except BuildError Unit} (hbuilds : e.Builds known shared answer e' shared')
      (before : Session known r log e shared) :
      Session known r (.built answer :: log) e' shared'
  | evaluate {log : List Event} {e : Evaluator} {shared : Store Contents} (world : World)
      (fuel : Nat) (overrides : List (String × Scalar)) (before : Session known r log e shared) :
      Session known r (.evaluated overrides (e.evaluate world fuel overrides) :: log) e shared
  | disturb {log : List Event} {e : Evaluator} {shared shared' : Store Contents}
      {own : Option (Store Contents)} (hshared : shared'.All (Contents.Honest known))
      (hown : (own.getD {}).All (Contents.Honest known)) (before : Session known r log e shared) :
      Session known r log { e with workspace := own } shared'

/-! ## What a log tells -/

/-- The declarations behind a log. -/
def registryAfter (r : Registry) : List Event → Registry
  | [] => r
  | .declared edit :: log => edit.add (registryAfter r log)
  | _ :: log => registryAfter r log

/-- The budgets in force behind a log. -/
def configAfter : List Event → Config
  | [] => {}
  | .configured config :: _ => { config with entryPoint := defaultEntryPoint }
  | _ :: log => configAfter log

/-- The declarations as they stood at the last successful build. -/
def lastBuilt? (r : Registry) : List Event → Option Registry
  | [] => none
  | .built (.ok ()) :: log => some (registryAfter r log)
  | _ :: log => lastBuilt? r log

theorem lastBuilt?_eq_some (r : Registry) {later earlier : List Event}
    (h : .built (.ok ()) ∉ later) :
    lastBuilt? r (later ++ .built (.ok ()) :: earlier) = some (registryAfter r earlier) := by
  induction later with
  | nil => rfl
  | cons event later ih =>
    rw [List.mem_cons, not_or] at h
    rw [List.cons_append, lastBuilt?, ih h.2]
    rintro rfl
    exact h.1 rfl

theorem lastBuilt?_eq_none_iff (r : Registry) (log : List Event) :
    lastBuilt? r log = none ↔ .built (.ok ()) ∉ log := by
  fun_induction lastBuilt? r log with
  | case1 => simp
  | case2 log => simp
  | case3 event log hne ih =>
    rw [ih, List.mem_cons, not_or]
    exact ⟨fun h => ⟨fun heq => hne heq.symm, h⟩, fun h => h.2⟩

namespace Session

variable {known : Set String} {r : Registry} {log : List Event} {e : Evaluator}
  {shared : Store Contents}

/-- What a log tells of an evaluator. -/
structure Told (known : Set String) (r : Registry) (log : List Event) (e : Evaluator)
    (shared : Store Contents) : Prop where
  registry : e.registry = registryAfter r log
  config : e.config = configAfter log
  trusts : e.Trusts known shared
  unbuilt : lastBuilt? r log = none → e.artifact = none
  built : ∀ r' ∈ lastBuilt? r log, ∃ c cached, compileText r'.assemble = .ok c ∧
    e.artifact = some (r'.artifactOf c cached)

/-- **What a log tells of an evaluator is so**, at any time of its life. -/
theorem told (h : Session known r log e shared) (hinj : Set.InjOn Sha256.digestText known) :
    Told known r log e shared := by
  induction h with
  | start hshared => exact ⟨rfl, rfl, ⟨hshared, Store.all_empty⟩, fun _ => rfl, nofun⟩
  | declare edit before ih =>
    rw [Edit.perform_eq]
    exact ⟨congrArg edit.add ih.registry, ih.config, ⟨ih.trusts.shared, ih.trusts.workspace⟩,
      ih.unbuilt, ih.built⟩
  | configure config before ih =>
    exact ⟨ih.registry, rfl, ⟨ih.trusts.shared, ih.trusts.workspace⟩, ih.unbuilt, ih.built⟩
  | @build log e e' shared shared' answer hbuilds before ih =>
    obtain ⟨htrusts, hok⟩ := hbuilds.trusts hinj ih.trusts
    cases answer with
    | error x =>
      obtain ⟨hregistry, hconfig, hartifact⟩ := hbuilds.of_error
      exact ⟨hregistry.trans ih.registry, hconfig.trans ih.config, htrusts,
        fun hnone => hartifact.trans (ih.unbuilt hnone), fun r' hr' => hartifact ▸ ih.built r' hr'⟩
    | ok _ =>
      obtain ⟨hregistry, hconfig, c, cached, hc, hartifact⟩ := hok rfl
      refine ⟨hregistry.trans ih.registry, hconfig.trans ih.config, htrusts, nofun, ?_⟩
      rintro r' ⟨⟩
      rw [ih.registry] at hc hartifact
      exact ⟨c, cached, hc, hartifact⟩
  | evaluate world fuel overrides before ih =>
    exact ⟨ih.registry, ih.config, ih.trusts, ih.unbuilt, ih.built⟩
  | disturb hshared hown before ih =>
    exact ⟨ih.registry, ih.config, ⟨hshared, hown⟩, ih.unbuilt, ih.built⟩

/-- **The lifecycle of an evaluator.** At any time of its life, if no two of the known sources have
the same digest: its declarations and budgets are those that were given; it is built exactly if some
build succeeded, and then its artifact is that of the declarations as they stood at the last
successful build. Evaluations depend on these declarations, the budgets in force and the overrides
alone, which are checked against the variables of that time; before the first success there is none.
A failed build leaves declarations, budgets and artifact as they were. -/
theorem lifecycle (h : Session known r log e shared) (hinj : Set.InjOn Sha256.digestText known) :
    e.registry = registryAfter r log ∧ e.config = configAfter log ∧
    (e.artifact.isSome ↔ .built (.ok ()) ∈ log) ∧
    (.built (.ok ()) ∉ log → ∀ world fuel overrides,
      e.evaluate world fuel overrides = .error .notBuilt) ∧
    (∀ later earlier, log = later ++ .built (.ok ()) :: earlier → .built (.ok ()) ∉ later →
      ∃ c cached, compileText (registryAfter r earlier).assemble = .ok c ∧
        e.artifact = some ((registryAfter r earlier).artifactOf c cached) ∧
        (∀ world fuel overrides, e.evaluate world fuel overrides =
          ((registryAfter r earlier).artifactOf c false).evaluate (configAfter log) world fuel
            overrides) ∧
        ∀ overrides, (∃ values, ((registryAfter r earlier).artifactOf c false).bind overrides =
            .ok values) ↔
          ∀ o ∈ overrides, ∃ v, (registryAfter r earlier).declared? o.1 = some v ∧
            o.2.type = v.type) ∧
    ∀ x e' shared', e.Builds known shared (.error x) e' shared' →
      e'.registry = e.registry ∧ e'.config = e.config ∧ e'.artifact = e.artifact := by
  have htold := h.told hinj
  refine ⟨htold.registry, htold.config, ?_, ?_, ?_, fun x e' shared' hb => hb.of_error⟩
  · cases hl : lastBuilt? r log with
    | none =>
      have hnot := (lastBuilt?_eq_none_iff r log).mp hl
      simp [htold.unbuilt hl, hnot]
    | some r' =>
      obtain ⟨c, cached, -, ha⟩ := htold.built r' hl
      have hmem : .built (.ok ()) ∈ log := by
        by_contra hnot
        cases hl.symm.trans ((lastBuilt?_eq_none_iff r log).mpr hnot)
      simp [ha, hmem]
  · intro hnot world fuel overrides
    rw [Evaluator.evaluate, htold.unbuilt ((lastBuilt?_eq_none_iff r log).mpr hnot)]
  · rintro later earlier rfl hlater
    obtain ⟨c, cached, hc, ha⟩ := htold.built _ (lastBuilt?_eq_some r hlater)
    refine ⟨c, cached, hc, ha, fun world fuel overrides => ?_, fun overrides => ?_⟩
    · -- Whether the program was taken from a file plays no part.
      rw [Evaluator.evaluate, ha, htold.config]
      show ((registryAfter r earlier).artifactOf c cached).evaluate _ world fuel overrides = _
      apply Artifact.evaluate_congr <;> rfl
    · exact Artifact.bindFrom_eq_ok_iff _ _ overrides

/-- A formula that gives its only input. -/
def echo : Registry where
  name := "echo"
  formula := "return A"
  vars := [⟨"A", .int, some (.int 2)⟩]

/-- It is built, and then gets another formula. -/
def edited : Evaluator :=
  ((Evaluator.ofRegistry echo).build {}).2.1.setFormula " "

theorem lifecycle_edited : ∃ c, compileText echo.assemble = .ok c ∧ ∀ world fuel,
    edited.evaluate world fuel [] = (echo.artifactOf c false).evaluate {} world fuel [] := by
  have hok : ((Evaluator.ofRegistry echo).build {}).1 = .ok () := by decide +kernel
  have hbuilds := Evaluator.builds_build (e := .ofRegistry echo) (Set.mem_singleton echo.assemble) {}
  rw [hok] at hbuilds
  have hbuilt := Session.build hbuilds (.start Store.all_empty)
  -- The next build is refused, since the formula is blank.
  have hrefused : edited.registry.build = .error .emptyFormula := by
    show Registry.build { (((Evaluator.ofRegistry echo).build {}).2.1.registry) with
      formula := " " } = _
    rw [Evaluator.build_registry]
    rfl
  have hsession := (hbuilt.declare (.formula " ")).build (.refused hrefused)
  obtain ⟨-, -, -, -, hlast, -⟩ := hsession.lifecycle (Set.injOn_singleton _ _)
  obtain ⟨c, -, hc, -, hevaluate, -⟩ := hlast [_, _] [] rfl (by simp)
  exact ⟨c, hc, fun world fuel => hevaluate world fuel []⟩

end Session

end Formula
