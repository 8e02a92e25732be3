import Formula.Proofs.Frames.Agreement
import Formula.Proofs.Resolution.Outcome

/-!
# The frames of a run

Runs keep the frames of the machine in order, whether they succeed or fail. The machine with frames
is one that opens and closes them by hand; what it runs ends as it does where scopes are passed
down.

## Main results

* `Stacked.frames_are_kept`: expressions, statements, blocks, calls and programs.
-/

namespace Formula.Stacked

/-- **Frames are kept.** In every state, whatever is run and however it ends, there are behind it as
many frames and open calls as before, the frames below the innermost one are as they were, and that
one has at most a name more, which a statement that succeeded declares; no more calls were open than
before or than may be. Where calls are open as the budget allows, a run that passes scopes down does
the same, so all this is said of runs; those of programs begin and end with one frame and no
call. -/
theorem frames_are_kept :
    (∀ (s : Setting) (n : Nat) (k : Stack),
      (∀ e, k.Kept noName s.config.maxDepth ((eval s (call s n) e).after k)) ∧
      (∀ st, match exec s (call s n) st k with
        | .ok _ k' => k.Kept (st.declared? = some ·) s.config.maxDepth k'
        | .error _ k' => k.Kept noName s.config.maxDepth k') ∧
      (∀ b, k.Kept noName s.config.maxDepth ((block s (call s n) b).after k)) ∧
      (∀ init test post body span, k.Kept noName s.config.maxDepth
        ((exec s (call s n) (.loop init test post body span)).after k)) ∧
      ∀ callee args, k.Kept noName s.config.maxDepth ((apply s (call s n) callee args).after k)) ∧
    (∀ (s : Setting) (depth left : Nat), depth + left = s.config.maxDepth → ∀ env,
      (∀ e, Agrees env depth (SameIn env) (eval s (call s (left + 1)) e)
        (s.eval (s.enter left) env e)) ∧
      (∀ st, Agrees env depth SameEnd (exec s (call s (left + 1)) st)
        (s.exec (s.enter left) env st)) ∧
      (∀ b : Block, Agrees env depth (SameIn env) (block s (call s (left + 1)) b)
        (s.execAll (s.enter left) env.push b.statements)) ∧
      ∀ callee args, Agrees env depth (SameIn env) (apply s (call s (left + 1)) callee args)
        (s.apply (s.enter left) callee args)) ∧
    ∀ (c : Compilation) config world bindings fuel,
      c.run config world bindings fuel = (c.stacked config world bindings fuel).outcome {} ∧
        Stack.Kept noName config.maxDepth {} ((c.stacked config world bindings fuel).after {}) := by
  refine ⟨?_, ?_, ?_⟩
  · intro s n k
    have hcases := keepCases (s := s) (restores_call s n)
    refine ⟨?_, ?_, ?_, ?_, ?_⟩
    · intro e
      exact (hcases.ofExpr e).kept_after (fun _ => id) k
    · intro st
      have hk := hcases.ofStmt st k
      cases hrun : exec s (call s n) st k <;>
        · rw [hrun] at hk
          exact hk
    · intro b
      exact (restores_inScope (hcases.ofStmts b.statements)).kept_after (fun _ => id) k
    · intro init test post body span
      have hloop := (hcases.ofStmt (.loop init test post body span)).kept_after
        (fun _ => False.elim) k
      exact hloop.mono fun name hname => by cases hname
    · intro callee args
      exact (restores_apply (restores_call s n) callee args).kept_after (fun _ => id) k
  · intro s depth left h env
    have henter := agrees_call s h
    have hcases := agreeCases (s := s) henter (restores_call s (left + 1))
    refine ⟨?_, ?_, ?_, ?_⟩
    · exact fun e => hcases.ofExpr e env
    · exact fun st => hcases.ofStmt st env
    · intro b
      exact agrees_block ((keepCases (restores_call s _)).ofStmts _) (hcases.ofStmts b.statements)
    · exact fun callee args => agrees_apply henter callee args
  · intro c config world bindings fuel
    refine ⟨run_eq_outcome c config world bindings fuel, ?_⟩
    exact (restores_execute ⟨c.types, config, world, fuel⟩ c.program bindings).kept_after
      (fun _ => id) {}

/-- A function that calls itself from within a loop and a block, until no further call may be
opened: the scopes of all calls are closed, and no call is open. -/
theorem frames_are_kept_recursion : ∃ c, (SourceFile.ofText 0 "descent"
      ("var start = 3\nfunc descend(n int) int \x7b\nfor i := 0; i < n; i++ \x7b\n" ++
        "if i > 1 \x7b x := i\nreturn descend(n + x) \x7d\n\x7d\nreturn 0\n\x7d\n" ++
        "func evaluate() int \x7b return descend(start) \x7d")).compile "evaluate" = .ok c ∧
    let x := c.stacked { maxDepth := 4 } .regular [] 9
    x.outcome {} = .error (.callDepth 4) ∧
      (x.after {}).env = .empty ∧ (x.after {}).depth = 0 ∧ (x.after {}).deepest ≤ 4 := by
  have hruns : ((SourceFile.ofText 0 "descent"
      ("var start = 3\nfunc descend(n int) int \x7b\nfor i := 0; i < n; i++ \x7b\n" ++
        "if i > 1 \x7b x := i\nreturn descend(n + x) \x7d\n\x7d\nreturn 0\n\x7d\n" ++
        "func evaluate() int \x7b return descend(start) \x7d")).compile "evaluate").toOption.any
      (fun c => (c.run { maxDepth := 4 } .regular [] 9).error? == some (.callDepth 4)) = true := by
    decide +kernel
  obtain ⟨c, hc, hrun⟩ := Except.exists_of_any hruns
  obtain ⟨-, -, hprograms⟩ := frames_are_kept
  obtain ⟨heq, hkept⟩ := hprograms c { maxDepth := 4 } .regular [] 9
  refine ⟨c, hc, ?_, hkept.env_eq, hkept.depth, hkept.deepest⟩
  exact heq.symm.trans (Outcome.eq_error (eq_of_beq hrun))

end Formula.Stacked
