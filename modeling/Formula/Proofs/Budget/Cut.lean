import Formula.Proofs.Machine.Passing

/-!
# Runs that are cut short

A run under a tighter budget does what the run under the wider one does, until the tighter budget
stops it.

## Main definitions

* `CutShort E x y`: `x` does what `y` does, unless an error of `E` stops it before
* `Setting.Tightens E s s'`: the budgets of `s` are tighter than those of `s'`

## Main results

* `CutShort.bind`, `CutShort.iterate`: the relation is passed on
* `Setting.Tightens.execute`: a run of a program under tighter budgets is cut short
-/

namespace Formula

theorem Run.Quiet.steps_after {α : Type} {x : Run α} (h : x.Quiet) (m : Machine) :
    (x.after m).steps = m.steps := by
  have hm := h m
  unfold Run.after
  cases hx : x m with
  | ok a m' =>
    rw [hx] at hm
    exact hm
  | error e m' =>
    rw [hx] at hm
    exact hm.1

/-- **`x` is `y`, perhaps cut short**: it ends as `y` does and leaves the same machine, or it is
stopped by one of the errors `E` when it has taken no more steps than `y` takes. -/
structure CutShort {α : Type} (E : Stop → Prop) (x y : Run α) : Prop where
  forward : ∀ m, m.steps ≤ (y.after m).steps
  cut : ∀ m, x m = y m ∨
    ∃ e m', x m = .error e m' ∧ E e ∧ m'.steps ≤ (y.after m).steps

namespace CutShort

variable {α β : Type} {E : Stop → Prop}

/-- A computation that does not take steps back is not cut short by itself. -/
theorem refl {x : Run α} (h : ∀ m, m.steps ≤ (x.after m).steps) : CutShort E x x :=
  ⟨h, fun _ => .inl rfl⟩

theorem quiet {x : Run α} (h : x.Quiet) : CutShort E x x :=
  refl fun m => Nat.le_of_eq (h.steps_after m).symm

/-- An error of `E` cuts every computation short that does not take steps back. -/
theorem stopped {e : Stop} (he : E e) {y : Run α} (hy : ∀ m, m.steps ≤ (y.after m).steps) :
    CutShort E (throw e) y :=
  ⟨hy, fun m => .inr ⟨e, m, rfl, he, hy m⟩⟩

theorem bind {x y : Run α} {f g : α → Run β} (h : CutShort E x y)
    (hf : ∀ a, CutShort E (f a) (g a)) : CutShort E (x >>= f) (y >>= g) := by
  -- The steps that `y` has taken are not taken back by what follows it.
  have hle : ∀ m, (y.after m).steps ≤ ((y >>= g).after m).steps := by
    intro m
    cases hy : y m with
    | ok a m₁ =>
      rw [Run.after_of_ok hy, Run.after, Run.bind_of_ok hy]
      exact (hf a).forward m₁
    | error e m₁ =>
      have hafter := (Run.after_of_error hy).trans (Run.after_of_error (Run.bind_of_error hy g)).symm
      exact Nat.le_of_eq (congrArg Machine.steps hafter)
  refine ⟨fun m => Nat.le_trans (h.forward m) (hle m), fun m => ?_⟩
  rcases h.cut m with hxy | ⟨e, m', hx, he, hm⟩
  · cases hy : y m with
    | ok a m₁ =>
      rw [Run.after, Run.bind_of_ok hy, Run.bind_of_ok (hxy.trans hy)]
      exact (hf a).cut m₁
    | error e m₁ =>
      exact .inl ((Run.bind_of_error (hxy.trans hy) f).trans (Run.bind_of_error hy g).symm)
  · exact .inr ⟨e, m', Run.bind_of_error hx f, he, Nat.le_trans hm (hle m)⟩

/-- Loops that are given up earlier are cut short, if giving up is one of the errors `E`. -/
theorem iterate {f g : Env → Run (Env ⊕ Flow)} (h : ∀ env, CutShort E (f env) (g env))
    {n n' : Nat} (hn : n ≤ n') (hE : n < n' → E .outOfFuel) (env : Env) :
    CutShort E (iterate f n env) (iterate g n' env) := by
  have hself : ∀ k env, CutShort E (Formula.iterate g k env) (Formula.iterate g k env) := by
    intro k
    induction k with
    | zero => exact fun env => refl fun _ => Nat.le_refl _
    | succ k ih =>
      intro env
      refine bind ⟨(h env).forward, fun _ => .inl rfl⟩ fun r => ?_
      rcases r with inner | flow
      · exact ih inner
      · exact quiet (.pure flow)
  induction n generalizing n' env with
  | zero =>
    rcases Nat.eq_zero_or_pos n' with rfl | hpos
    · exact hself 0 env
    · exact stopped (hE hpos) (hself n' env).forward
  | succ n ih =>
    obtain ⟨k, rfl⟩ : ∃ k, n' = k + 1 := ⟨n' - 1, by omega⟩
    refine bind (h env) fun r => ?_
    rcases r with inner | flow
    · exact ih (by omega) (fun hlt => hE (by omega)) inner
    · exact quiet (.pure flow)

end CutShort

/-! ## The interpreter under tighter budgets -/

namespace Setting

/-- A step is counted, also if it is the last one. -/
theorem steps_after_tick (s : Setting) (m : Machine) :
    (s.tick.after m).steps = m.steps + 1 := by
  unfold Run.after tick
  cases s.config.maxSteps with
  | none => cases hl : s.isLate (m.steps + 1) <;> simp only [hl] <;> rfl
  | some limit =>
    by_cases hlt : limit < m.steps + 1
    · simp only [hlt, if_true]
    · cases hl : s.isLate (m.steps + 1) <;> simp only [hlt, hl] <;> rfl

theorem tick_untimed {s : Setting} (hs : s.config.timeout = none) (m : Machine) :
    s.tick m = match s.config.maxSteps with
      | some n =>
        if n < m.steps + 1 then
          .error (.error (.stepLimit n)) { m with steps := m.steps + 1 }
        else .ok () { m with steps := m.steps + 1 }
      | none => .ok () { m with steps := m.steps + 1 } := by
  have hl : s.isLate (m.steps + 1) = false := by rw [isLate, hs]
  unfold tick
  cases s.config.maxSteps <;> simp only [hl, Bool.false_eq_true, if_false]

/-- Without a budget of time, a step is cut short by a smaller budget of steps. -/
theorem cutShort_tick {E : Stop → Prop} {s s' : Setting} (hs : s.config.timeout = none)
    (hs' : s'.config.timeout = none)
    (hle : ∀ n' ∈ s'.config.maxSteps, ∃ n ∈ s.config.maxSteps, n ≤ n')
    (hE : ∀ n ∈ s.config.maxSteps, E (.error (.stepLimit n))) : CutShort E s.tick s'.tick := by
  refine ⟨fun m => by rw [steps_after_tick]; exact Nat.le_succ _, fun m => ?_⟩
  rw [tick_untimed hs, tick_untimed hs', steps_after_tick]
  cases hn' : s'.config.maxSteps with
  | none =>
    cases hn : s.config.maxSteps with
    | none => exact .inl rfl
    | some n =>
      by_cases hlt : n < m.steps + 1
      · exact .inr ⟨_, _, if_pos hlt, hE n hn, Nat.le_refl _⟩
      · exact .inl (if_neg hlt)
  | some n' =>
    obtain ⟨n, hn, hnn'⟩ := hle n' hn'
    rw [Option.mem_def.mp hn]
    by_cases hlt : n < m.steps + 1
    · exact .inr ⟨_, _, if_pos hlt, hE n hn, Nat.le_refl _⟩
    · exact .inl ((if_neg hlt).trans (if_neg (by omega)).symm)

/-- **The budgets of `s` are tighter than those of `s'`**: errors of `E` cut its steps, its loops
and its calls short, and nothing else that a run depends on differs. -/
structure Tightens (E : Stop → Prop) (s s' : Setting) : Prop where
  types : s.types = s'.types
  world : s.world = s'.world
  entryPoint : s.config.entryPoint = s'.config.entryPoint
  tick : CutShort E s.tick s'.tick
  depth : s.config.maxDepth ≤ s'.config.maxDepth
  opensFewer : s.config.maxDepth < s'.config.maxDepth →
    E (.error (.callDepth s.config.maxDepth))
  fuel : s.fuel ≤ s'.fuel
  givesUp : s.fuel < s'.fuel → E .outOfFuel

variable {E : Stop → Prop} {s s' : Setting}

namespace Tightens

/-- Budgets are as tight as themselves. -/
theorem refl (s : Setting) : s.Tightens E s where
  types := rfl
  world := rfl
  entryPoint := rfl
  tick := .refl fun m => Nat.le_trans (Nat.le_succ _) (Nat.le_of_eq (s.steps_after_tick m).symm)
  depth := Nat.le_refl _
  opensFewer h := absurd h (Nat.lt_irrefl _)
  fuel := Nat.le_refl _
  givesUp h := absurd h (Nat.lt_irrefl _)

theorem passes (h : s.Tightens E s') : Passes (fun x y => CutShort E x y) s s' where
  types := h.types
  world := h.world
  entryPoint := h.entryPoint
  tick := h.tick
  quiet := .quiet
  bind := .bind
  loop hfg env := .iterate (fun env => h.tick.bind fun _ => hfg env) h.fuel h.givesUp env

end Tightens

/-- A call does not take steps back. -/
theorem steps_le_after_enter (s : Setting) (depth : Nat) (c : Closure) (args : List Value)
    (m : Machine) : m.steps ≤ ((s.enter depth c args).after m).steps := by
  have hself : ∀ depth c args,
      CutShort (fun _ => False) (s.enter depth c args) (s.enter depth c args) := by
    intro depth
    induction depth with
    | zero => exact fun _ _ => .refl fun _ => Nat.le_refl _
    | succ depth ih =>
      exact (Tightens.refl s).passes.enter_succ depth depth ((Tightens.refl s).passes.behind_tick ih)
  exact (hself depth c args).forward m

namespace Tightens

/-- Calls under tighter budgets are cut short, also behind calls that are open. -/
theorem enter (h : s.Tightens E s') {depth depth' : Nat} (hle : depth ≤ depth')
    (hlt : depth < depth' → s.config.maxDepth < s'.config.maxDepth)
    (heq : depth = depth' → s.config.maxDepth = s'.config.maxDepth) (c : Closure)
    (args : List Value) : CutShort E (s.enter depth c args) (s'.enter depth' c args) := by
  induction depth generalizing depth' c args with
  | zero =>
    rcases Nat.eq_zero_or_pos depth' with rfl | hpos
    · rw [Setting.enter, Setting.enter, heq rfl]
      exact .refl fun _ => Nat.le_refl _
    · exact .stopped (h.opensFewer (hlt hpos)) (s'.steps_le_after_enter depth' c args)
  | succ depth ih =>
    obtain ⟨k, rfl⟩ : ∃ k, depth' = k + 1 := ⟨depth' - 1, by omega⟩
    exact h.passes.enter_succ depth k (h.passes.behind_tick
      (ih (by omega) (fun hk => hlt (by omega)) (fun hk => heq (by omega)))) c args

/-- **A run of a program under tighter budgets is cut short.** -/
theorem execute (h : s.Tightens E s') (p : Program) (bindings : List (String × Scalar)) :
    CutShort E (s.execute p bindings) (s'.execute p bindings) :=
  h.passes.execute (h.passes.behind_tick (h.enter h.depth id id)) p bindings

end Tightens

end Setting

end Formula
