import Formula.Proofs.Budget.Threshold

/-!
# A budget of steps bounds every run

A program need not be well typed for its runs to end: it is enough that they have a budget of steps.
The limit on the rounds of a loop, which makes a run a function, is then never the reason for which
it stops, and neither is nesting calls for free: what a run does between two steps follows the
syntax down.

## Main results

* `Compilation.step_budget_bounds_runs`: how runs under a budget of steps end
-/

namespace Formula

namespace Compilation

/-- **A budget of steps bounds every run**, of any program with any types of its constants: a run
with a budget of `n` steps ends in one way, however late loops are given up if only they may take
more than `n` rounds. It takes at most `n + 1` steps, the last of them exactly if the budget stops
it. If the budget of calls stops it, then each of the open calls has taken a step. -/
theorem step_budget_bounds_runs (c : Compilation) (config : Config) (n : Nat) (world : World)
    (bindings : List (String × Scalar)) :
    ∃ o t, (∀ fuel > n, c.run { config with maxSteps := some n } world bindings fuel = o ∧
        c.ticks { config with maxSteps := some n } world bindings fuel = t) ∧
      o ≠ .outOfFuel ∧ t ≤ n + 1 ∧ (o = .error (.stepLimit n) ↔ t = n + 1) ∧
      ∀ d, o = .error (.callDepth d) → d ≤ t := by
  have hn : ({ config with maxSteps := some n } : Config).maxSteps = some n := rfl
  obtain ⟨hgiven, hdepth, hcases⟩ := run_metered c hn world bindings (Nat.lt_succ_self n)
  -- Already the least number of rounds is enough, and more rounds do not change the run.
  refine ⟨_, _, fun fuel hfuel => run_of_le hgiven hfuel, hgiven, ?_⟩
  rcases hcases with ⟨ho, ht⟩ | ⟨hne, hle⟩
  · exact ⟨Nat.le_of_eq ht, iff_of_true ho ht, hdepth⟩
  · exact ⟨Nat.le_succ_of_le hle, iff_of_false hne (by omega), hdepth⟩

end Compilation

end Formula
