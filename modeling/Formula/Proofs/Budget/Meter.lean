import Formula.Proofs.Machine.Passing

/-!
# Runs under a budget of steps

A run under a budget of `n` steps is not given up: every round of a loop and every call takes a
step, so that the budget is used up first. It is stopped in step `n + 1`, and nowhere else. For the
same reason a run that its budget of calls stops has taken a step for each of the open calls.

## Main definitions

* `Metered n k x`: `x` keeps to a budget of `n` steps, of which `k` have been taken

## Main results

* `Metered.iterate`: a loop whose rounds begin with a step is not given up
* `Setting.metered_enter`: open calls have taken a step each
* `Setting.metered_execute`: every run of a program under a budget of steps keeps to it
-/

namespace Formula

/-- **A computation keeps to a budget of `n` steps**, of which `k` or more have been taken: it ends
within the budget or is stopped in the step after the last one, and is not given up. If calls are
nested too deep, then at least as many steps have been taken as calls may be open. -/
structure Metered {α : Type} (n k : Nat) (x : Run α) : Prop where
  ends : ∀ {m a m'}, k ≤ m.steps → m.steps ≤ n → x m = .ok a m' → k ≤ m'.steps ∧ m'.steps ≤ n
  fails : ∀ {m e m'}, k ≤ m.steps → m.steps ≤ n → x m = .error e m' →
    e ≠ .outOfFuel ∧ (∀ d, e = .error (.callDepth d) → d ≤ m'.steps) ∧
      (e = .error (.stepLimit n) ∧ m'.steps = n + 1 ∨
        e ≠ .error (.stepLimit n) ∧ m'.steps ≤ n)

namespace Metered

variable {α β : Type} {n k : Nat}

theorem bind {x : Run α} {f : α → Run β} (h : Metered n k x) (hf : ∀ a, Metered n k (f a)) :
    Metered n k (x >>= f) where
  ends hk hm heq := by
    obtain ⟨a, m₁, hx, hfa⟩ := Run.bind_eq_ok heq
    obtain ⟨hk₁, hm₁⟩ := h.ends hk hm hx
    exact (hf a).ends hk₁ hm₁ hfa
  fails hk hm heq := by
    rcases Run.bind_eq_error heq with hx | ⟨a, m₁, hx, hfa⟩
    · exact h.fails hk hm hx
    · obtain ⟨hk₁, hm₁⟩ := h.ends hk hm hx
      exact (hf a).fails hk₁ hm₁ hfa

/-- What takes no step keeps to every budget. -/
theorem quiet {x : Run α} (h : x.Quiet) : Metered n k x where
  ends {m a m'} hk hm heq := by
    have hq := h m
    rw [heq] at hq
    exact ⟨hq ▸ hk, hq ▸ hm⟩
  fails {m e m'} hk hm heq := by
    have hq := h m
    rw [heq] at hq
    obtain ⟨hsteps, hbudget⟩ := hq
    refine ⟨?_, ?_, .inr ⟨?_, hsteps ▸ hm⟩⟩
    · rintro rfl
      cases hbudget
    · rintro d rfl
      cases hbudget
    · rintro rfl
      cases hbudget

theorem callDepth {d : Nat} (hd : d ≤ k) : Metered n k (Run.fail (.callDepth d) : Run α) where
  ends _ _ heq := by cases heq
  fails hk hm heq := by
    cases heq
    refine ⟨nofun, ?_, .inr ⟨nofun, hm⟩⟩
    rintro _ ⟨⟩
    exact Nat.le_trans hd hk

section Tick

variable {s : Setting} (hs : s.config.maxSteps = some n)
include hs

/-- What a step does under a budget of `n` steps. -/
theorem tick_cases {m : Machine} (hm : m.steps ≤ n) :
    (s.tick m = .ok () { m with steps := m.steps + 1 } ∧ m.steps + 1 ≤ n) ∨
    (s.tick m = .error (.error (.stepLimit n)) { m with steps := m.steps + 1 } ∧ m.steps = n) ∨
    (∃ t, s.tick m = .error (.error (.timeout t)) { m with steps := m.steps + 1 } ∧
      m.steps + 1 ≤ n) := by
  unfold Setting.tick
  rw [hs]
  by_cases hlt : n < m.steps + 1
  · refine .inr (.inl ⟨if_pos hlt, by omega⟩)
  · by_cases hl : s.isLate (m.steps + 1) = true
    · refine .inr (.inr ⟨s.config.timeout.getD 0, ?_, by omega⟩)
      simp only [hlt, hl, if_true, if_false]
    · refine .inl ⟨?_, by omega⟩
      simp only [hlt, hl, if_false]
      rfl

/-- What follows a step may count on it. -/
theorem tick_bind {x : Run α} (hx : Metered n (k + 1) x) : Metered n k (s.tick >>= fun _ => x) where
  ends hk hm heq := by
    obtain ⟨_, m₁, ht, hx₁⟩ := Run.bind_eq_ok heq
    rcases tick_cases hs hm with ⟨ht', hn⟩ | ⟨ht', -⟩ | ⟨t, ht', -⟩ <;> cases ht'.symm.trans ht
    obtain ⟨hk₁, hm₁⟩ := hx.ends (Nat.succ_le_succ hk) hn hx₁
    exact ⟨Nat.le_of_succ_le hk₁, hm₁⟩
  fails hk hm heq := by
    rcases Run.bind_eq_error heq with ht | ⟨_, m₁, ht, hx₁⟩
    · rcases tick_cases hs hm with ⟨ht', -⟩ | ⟨ht', hn⟩ | ⟨t, ht', hn⟩ <;> cases ht'.symm.trans ht
      · exact ⟨nofun, nofun, .inl ⟨rfl, congrArg Nat.succ hn⟩⟩
      · exact ⟨nofun, nofun, .inr ⟨nofun, hn⟩⟩
    · rcases tick_cases hs hm with ⟨ht', hn⟩ | ⟨ht', -⟩ | ⟨t, ht', -⟩ <;> cases ht'.symm.trans ht
      exact hx.fails (Nat.succ_le_succ hk) hn hx₁

theorem tick : Metered n k s.tick := by
  rw [← bind_pure s.tick]
  exact tick_bind hs (quiet (.pure ()))

/-- **A loop whose rounds begin with a step is not given up** if it may take more rounds than there
are steps left. -/
theorem iterate {f : Env → Run (Env ⊕ Flow)} (hf : ∀ {k'}, k ≤ k' → ∀ env, Metered n k' (f env))
    {fuel : Nat} (hfuel : n < fuel + k) (env : Env) :
    Metered n k (iterate (fun env => s.tick >>= fun _ => f env) fuel env) := by
  induction fuel generalizing k env with
  | zero => exact ⟨fun hk hm => by omega, fun hk hm => by omega⟩
  | succ fuel ih =>
    rw [Formula.iterate, bind_assoc]
    -- A round takes one of the steps that are left.
    refine tick_bind hs ((hf (Nat.le_succ k) env).bind fun r => ?_)
    rcases r with inner | flow
    · exact ih (fun hle => hf (Nat.le_of_succ_le hle)) (by omega) inner
    · exact quiet (.pure flow)

end Tick

end Metered

namespace Setting

variable {s : Setting} {n : Nat}

/-- Computations that keep to a budget wherever `k` or more steps have been taken are passed on. -/
theorem passes_metered (hs : s.config.maxSteps = some n) (hfuel : n < s.fuel) (k : Nat) :
    Passes (fun x _ => ∀ k' ≥ k, Metered n k' x) s s where
  types := rfl
  world := rfl
  entryPoint := rfl
  tick _ _ := .tick hs
  quiet hx _ _ := .quiet hx
  bind hx hf k' hk := (hx k' hk).bind fun a => hf a k' hk
  loop hf env _ hk := .iterate hs (fun hle env => hf env _ (Nat.le_trans hk hle))
    (Nat.lt_add_right _ hfuel) env

/-- **Open calls have taken a step each**: a call keeps to the budget where so many calls may still
be opened that, with the steps taken, they make up for the budget of calls. -/
theorem metered_enter (hs : s.config.maxSteps = some n) (hfuel : n < s.fuel) {depth k : Nat}
    (hdepth : s.config.maxDepth ≤ depth + k) (c : Closure) (args : List Value) :
    Metered n k (s.enter depth c args) := by
  induction depth generalizing k c args with
  | zero => exact .callDepth (by omega)
  | succ depth ih =>
    refine (passes_metered hs hfuel k).enter_succ depth depth (fun c args k' hk => ?_) c args k
      (Nat.le_refl k)
    -- The step that a call begins with pays for opening it.
    exact .tick_bind hs (ih (by omega) c args)

/-- **Every run of a program under a budget of steps keeps to it**, and is not given up if loops may
take more rounds than that. -/
theorem metered_execute (hs : s.config.maxSteps = some n) (hfuel : n < s.fuel) (p : Program)
    (bindings : List (String × Scalar)) : Metered n 0 (s.execute p bindings) := by
  refine (passes_metered hs hfuel 0).execute (fun c args k _ => ?_) p bindings 0 (Nat.le_refl 0)
  exact .tick_bind hs (metered_enter hs hfuel (Nat.le_add_right _ _) c args)

end Setting

end Formula
