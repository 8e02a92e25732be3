import Formula.Proofs.Artifact.FileName
import Formula.Proofs.Evaluator.Lifecycle

/-!
# How a build ends

Among honest files a build ends in one of four ways, and each of them says something of the
declarations. Left alone in an empty private directory it succeeds if these can be compiled.

## Main definitions

* `Evaluator.Ends`: what each of the ways says

## Main results

* `Evaluator.Builds.ends`: a build among honest files ends in one of them
* `Evaluator.build_private`: when a first build in a private directory succeeds
-/

namespace Formula

namespace Evaluator

variable {known : Set String} {e e' : Evaluator} {shared shared' : Store Contents}
  {answer : Except BuildError Unit}

/-- **How a build ends**: the declarations are refused, or a file cannot be accessed, or their text
does not compile, or the evaluator has their artifact. -/
inductive Ends (e : Evaluator) : Except BuildError Unit → Evaluator → Prop where
  | refused {x : ValidationError} {e' : Evaluator} (h : e.registry.validate = .error x) :
      Ends e (.error (.validation x)) e'
  | access {path : String} {failure : FileFailure} {e' : Evaluator}
      (h : e.registry.validate = .ok ()) : Ends e (.error (.access path failure)) e'
  | compile {d : Diagnostic} {e' : Evaluator} (h : e.registry.validate = .ok ())
      (hd : compileText e.registry.assemble = .error d) : Ends e (.error (.compile d)) e'
  | built {c : Compilation} {cached : Bool} {e' : Evaluator} (h : e.registry.validate = .ok ())
      (hc : compileText e.registry.assemble = .ok c)
      (ha : e'.artifact = some (e.registry.artifactOf c cached)) : Ends e (.ok ()) e'

theorem ends_finish {result : Except BuildError Artifact} (h : e.registry.validate = .ok ())
    (hend : Artifact.EndsRight e.registry.buildPath e.registry.name e.registry.assemble
      e.registry.vars result) (e' : Evaluator) :
    e.Ends (e'.finish result).1 (e'.finish result).2 := by
  match result, hend with
  | .error (.access _ _), _ => exact .access h
  | .error (.compile _), hd => exact .compile h hd
  | .ok _, ⟨c, cached, hc, rfl⟩ => exact .built h hc rfl

/-- A build among honest files ends in one of these ways. -/
theorem Builds.ends (hinj : Set.InjOn Sha256.digestText known)
    (h : e.Builds known shared answer e' shared') (he : e.Trusts known shared) :
    e.Ends answer e' := by
  cases h with
  | refused h => exact .refused (Registry.build_eq_error h)
  -- In either place the task keeps files honest and ends right, whoever else is at work there.
  | inShared h hknown _ hruns =>
    exact ends_finish (Registry.build_eq_ok h).1 (hruns.result (keeps_of_build hinj hknown h) he.shared).1 _
  | inPrivate h hknown _ hruns =>
    exact ends_finish (Registry.build_eq_ok h).1
      (hruns.result (keeps_of_build hinj hknown h) he.workspace).1 _

/-- **A first build left alone in a private directory** succeeds exactly if the declarations are
accepted and their text compiles, unless the name is too long. -/
theorem build_private (hpath : e.registry.buildPath = none)
    (hworkspace : e.workspace = none)
    (h : (slug e.registry.name).toList.length ≤ maxSlugLength) (shared : Store Contents) :
    (e.build shared).1 = .ok () ↔
      e.registry.validate = .ok () ∧ ∃ c, compileText e.registry.assemble = .ok c := by
  unfold build Registry.build
  cases e.registry.validate with
  | error x => simp
  | ok _ =>
    have hrun := Artifact.build_private h "" none e.registry.assemble e.registry.vars
    simp only [hpath, hworkspace, Option.getD_none]
    cases hc : compileText e.registry.assemble with
    | error d =>
      rw [hc] at hrun
      simp [hrun, finish]
    | ok c =>
      rw [hc] at hrun
      simp [hrun, finish]

end Evaluator

end Formula
