import Formula.Proofs.Flow.Accepted
import Formula.Proofs.Program.Layout

/-!
# Control does not fall off the end of a function

That control never goes on behind a block is decided by the form of the block alone. Here this
decision is sound for all runs, and with it a function with a result has one: what a call gives is
the value of an expression behind one of its `return`s.

## Main results

* `Setting.apply_returned`: a call of a function with a result gives what it returned.
* `never_falls_off`: blocks that terminate, accepted bodies, and the bodies of accepted programs.
-/

namespace Formula

namespace Setting

variable {s : Setting} {enter : Entry} {env : Env} {m m' : Machine} {flow : Flow}

/-- Control does not go on behind a block that terminates. -/
theorem ne_normal_of_terminates {b : Block} (hb : b.terminates = true)
    (h : s.execAll enter env b.statements m = .ok flow m') : flow ≠ .normal := by
  rintro rfl
  have hends : (!lastTerminates b.statements) = true := execAll_has h
  have hterminates : lastTerminates b.statements = true := by
    cases b
    exact hb
  simp [hterminates] at hends

/-- An accepted body is left neither by a `break` nor by a `continue`. -/
theorem ne_jump_of_accepted {result : Option Ty} {b : Block} (hb : b.Accepted result)
    (h : s.execAll enter env b.statements m = .ok flow m') : flow ≠ .breaks ∧ flow ≠ .continues := by
  obtain ⟨⟨hbreaks, hcontinues⟩, -⟩ := hb.exits
  have hends := execAll_has h
  refine ⟨?_, ?_⟩ <;> rintro rfl
  · exact absurd hends (by simp [Exits.Has, hbreaks])
  · exact absurd hends (by simp [Exits.Has, hcontinues])

/-- Where a result is expected, a body that ends was left by one of its `return`s. -/
theorem exists_returned {result : Option Ty} {b : Block} (hb : b.Accepted result)
    (hresult : result ≠ some .void) (h : s.execAll enter env b.statements m = .ok flow m') :
    ∃ v e, flow = .returns v ∧ some e ∈ b.returned ∧
      ∃ env₁ m₁, s.eval enter env₁ e m₁ = .ok v m' := by
  obtain ⟨hterminates, hvalues⟩ := hb.exits.2 hresult
  obtain ⟨hbreaks, hcontinues⟩ := ne_jump_of_accepted hb h
  have hends := execAll_has h
  cases flow with
  | normal => exact absurd rfl (ne_normal_of_terminates hterminates h)
  | breaks => exact absurd rfl hbreaks
  | continues => exact absurd rfl hcontinues
  | returns v =>
    obtain ⟨value, hmem, env₁, m₁, hrun⟩ := hends
    have hmem : value ∈ b.returned := by
      cases b
      exact hmem
    cases value with
    | none => exact absurd hmem hvalues
    | some e => exact ⟨v, e, rfl, hmem, env₁, m₁, hrun⟩

/-- **A call of a function with a result gives what it returned**, if it ends: it was possible to
open a further call, and in it one of the `return`s gave the value. -/
theorem apply_returned {result : Option Ty} {c : Closure} (hc : c.body.Accepted result)
    (hresult : result ≠ some .void) {depth : Nat} {args : List Value} {v : Value}
    (h : s.apply (s.enter depth) (.closure c) args m = .ok v m') :
    ∃ e, some e ∈ c.body.returned ∧ ∃ inner env₁ m₁,
      depth = inner + 1 ∧ s.eval (s.enter inner) env₁ e m₁ = .ok v m' := by
  obtain ⟨-, m₁, -, h⟩ := Run.bind_eq_ok h
  dsimp only at h
  split at h
  case isFalse => cases h
  case isTrue =>
    cases depth with
    | zero => cases h
    | succ inner =>
      rw [enter] at h
      obtain ⟨start, m₂, -, h⟩ := Run.bind_eq_ok h
      obtain ⟨flow, m₃, hrun, h⟩ := Run.bind_eq_ok h
      obtain ⟨w, e, rfl, he, env₁, m₄, heval⟩ := exists_returned hc hresult hrun
      cases h
      exact ⟨e, he, inner, env₁, m₄, rfl, heval⟩

end Setting

/-- **Control does not fall off the end.** No run of a block that terminates ends normally. No run
of an accepted body ends at a `break` or a `continue`, and if a result is expected, each call of the
function that ends gives the value of an expression behind one of its `return`s. All bodies in a
program that is compiled are accepted, and a result is expected of the entry function and wherever
one is written. -/
theorem never_falls_off :
    (∀ b : Block, b.terminates = true → ∀ (s : Setting) enter env m flow m',
      s.execAll enter env b.statements m = .ok flow m' → flow ≠ .normal) ∧
    (∀ (result : Option Ty) (b : Block), b.Accepted result →
      (∀ (s : Setting) enter env m flow m', s.execAll enter env b.statements m = .ok flow m' →
        flow ≠ .breaks ∧ flow ≠ .continues) ∧
      (result ≠ some .void → ∀ (s : Setting) depth (c : Closure) args m v m', c.body = b →
        s.apply (s.enter depth) (.closure c) args m = .ok v m' →
          ∃ e, some e ∈ b.returned ∧ ∃ inner env₁ m₁,
            depth = inner + 1 ∧ s.eval (s.enter inner) env₁ e m₁ = .ok v m')) ∧
    ∀ (f : SourceFile) entryPoint (c : Compilation), f.compile entryPoint = .ok c →
      ∀ b hasResult, c.program.HasBody entryPoint b hasResult →
        ∃ result, b.Accepted result ∧ (hasResult = true → result ≠ some .void) := by
  refine ⟨?_, ?_, ?_⟩
  · intro b hb s enter env m flow m' h
    exact Setting.ne_normal_of_terminates hb h
  · intro result b hb
    refine ⟨fun s enter env m flow m' h => Setting.ne_jump_of_accepted hb h, ?_⟩
    rintro hresult s depth c args m v m' rfl h
    exact Setting.apply_returned hb hresult h
  · intro f entryPoint c hc b hasResult hb
    exact Program.accepted_of_check (SourceFile.compile_eq_ok hc).2 hb

/-- A loop without a condition, with a `break` that leaves only a loop within it and a `continue`
behind which nothing stands. -/
theorem never_falls_off_loop : ∃ c d v m', (SourceFile.ofText 0 "grade"
      ("func grade(n int) int \x7b\nfor \x7b\nfor n > 9 \x7b break \x7d\n" ++
        "if n > 0 \x7b return n * 2 \x7d else \x7b n += 5\ncontinue \x7d\n\x7d\n\x7d\n" ++
        "func evaluate() int \x7b return grade(-3) \x7d")).compile "evaluate" = .ok c ∧
    c.program.functions.head? = some d ∧ d.body.terminates = true ∧
    Setting.apply ⟨c.types, {}, .regular, 9⟩ (Setting.enter ⟨c.types, {}, .regular, 9⟩ 1)
      (.closure d.closure) [.int (-3)] {} = .ok v m' ∧
    (∃ e, some e ∈ d.body.returned ∧ ∃ inner env₁ m₁, 1 = inner + 1 ∧
      Setting.eval ⟨c.types, {}, .regular, 9⟩ (Setting.enter ⟨c.types, {}, .regular, 9⟩ inner) env₁ e
        m₁ = .ok v m') ∧
    ∀ (s : Setting) enter env m flow m', s.execAll enter env d.body.statements m = .ok flow m' →
      flow ≠ .normal ∧ flow ≠ .breaks ∧ flow ≠ .continues := by
  have hchecks : ((SourceFile.ofText 0 "grade"
      ("func grade(n int) int \x7b\nfor \x7b\nfor n > 9 \x7b break \x7d\n" ++
        "if n > 0 \x7b return n * 2 \x7d else \x7b n += 5\ncontinue \x7d\n\x7d\n\x7d\n" ++
        "func evaluate() int \x7b return grade(-3) \x7d")).compile "evaluate").toOption.any (fun c =>
        c.program.functions.head?.any fun d => d.body.terminates && (d.result.isSome &&
          ((Setting.apply ⟨c.types, {}, .regular, 9⟩ (Setting.enter ⟨c.types, {}, .regular, 9⟩ 1)
            (.closure d.closure) [.int (-3)]).run' {}).isSome)) = true := by
    decide +kernel
  obtain ⟨c, hc, hchecks⟩ := Except.exists_of_any hchecks
  obtain ⟨d, hd, hchecks⟩ := (Option.any_eq_true ..).mp hchecks
  obtain ⟨hterminates, hchecks⟩ := Bool.and_eq_true_iff.mp hchecks
  obtain ⟨hresult, hchecks⟩ := Bool.and_eq_true_iff.mp hchecks
  obtain ⟨v, m', hrun⟩ := Run.exists_of_isSome hchecks
  obtain ⟨hnormal, hjumps, hbodies⟩ := never_falls_off
  obtain ⟨result, haccepted, hne⟩ :=
    hbodies _ "evaluate" c hc d.body _ (.function (List.mem_of_mem_head? hd))
  obtain ⟨hjump, hcall⟩ := hjumps result d.body haccepted
  refine ⟨c, d, v, m', hc, hd, hterminates, hrun, ?_, fun s enter env m flow m' h => ?_⟩
  · exact hcall (hne (by simp [hresult])) _ 1 d.closure _ _ _ _ rfl hrun
  · exact ⟨hnormal d.body hterminates s enter env m flow m' h, hjump s enter env m flow m' h⟩

end Formula
