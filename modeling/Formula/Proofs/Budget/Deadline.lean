import Formula.Proofs.Budget.Threshold
import Mathlib.Order.Bounds.Basic

/-!
# A budget of time only cuts runs off

The clock is looked at in every 64th step, behind the budget of steps. Until one of these looks finds
that the time is up, a run with a budget of time does what the run without it does. So the run ends
in the first late step, unless it has ended before.

## Main definitions

* `World.lateSteps`: the steps in which the clock is looked at and the time is up
* `Outcome.EndedBy`: a run has ended when the clock is looked at in a step
* `OutOfTime`: a computation does what another one does, until the time is up

## Main results

* `OutOfTime.bind`, `Setting.outOfTime_execute`: the relation is passed on, up to runs of programs
* `Compilation.ends_timed_iff`: how a run ends whose time can be up
* `Compilation.deadlines_only_cut_off`: what a budget of time does to a run
-/

namespace Formula

/-- **The late steps**: those in which the clock is looked at and `limit` milliseconds have
passed. -/
def World.lateSteps (w : World) (limit : Nat) : Set Nat :=
  {k | 0 < k ∧ clockInterval ∣ k ∧ limit ≤ w.clock k}

/-- **A run that ends in `o` after `t` steps has ended when the clock is looked at in step `k`**: it
has ended in an earlier step, or is stopped in this one by its budget of steps, which is looked at
before the clock. -/
def Outcome.EndedBy (o : Outcome) (t k : Nat) : Prop :=
  t < k ∨ t = k ∧ ∃ n, o = .error (.stepLimit n)

/-- Budgets of steps, of calls and of time. -/
def Config.timed (entryPoint : String) (steps : Option Nat) (depth limit : Nat) : Config :=
  { Config.untimed entryPoint steps depth with timeout := some limit }

/-! ## The relation -/

/-- How many steps were taken in which the clock was not looked at: the one that a budget of steps
stopped. -/
def Stop.refused : Stop → Nat
  | error (.stepLimit _) => 1
  | _ => 0

/-- The last step that has passed the budget of steps. -/
def Run.passed {α : Type} (x : Run α) (m : Machine) : Nat :=
  match x m with
  | .ok _ m' => m'.steps
  | .error e m' => m'.steps - e.refused

/-- **`x` is `y`, perhaps out of time**: it ends as `y` does and leaves the same machine, and none of
the steps that `y` takes is late; or it is stopped in the first late one of these steps. A budget of
steps that stops `y` is the given one. -/
structure OutOfTime {α : Type} (late : Nat → Prop) (limit : Nat) (steps : Option Nat)
    (x y : Run α) : Prop where
  forward : ∀ m, m.steps ≤ y.passed m
  own : ∀ {m n m'}, y m = .error (.error (.stepLimit n)) m' → n ∈ steps
  cut : ∀ m, (x m = y m ∧ ∀ k, m.steps < k → k ≤ y.passed m → ¬late k) ∨
    ∃ m', x m = .error (.error (.timeout limit)) m' ∧ m.steps < m'.steps ∧
      m'.steps ≤ y.passed m ∧ late m'.steps ∧ ∀ k, m.steps < k → k < m'.steps → ¬late k

namespace Run

variable {α β : Type} {y : Run α} {m m' : Machine}

theorem passed_of_ok {a : α} (h : y m = .ok a m') : y.passed m = m'.steps := by
  rw [passed, h]

theorem passed_of_error {e : Stop} (h : y m = .error e m') :
    y.passed m = m'.steps - e.refused := by
  rw [passed, h]

theorem passed_bind_of_ok {a : α} (h : y m = .ok a m') (g : α → Run β) :
    (y >>= g).passed m = (g a).passed m' := by
  rw [passed, passed, bind_of_ok h]

/-- What follows a computation that fails takes no step. -/
theorem passed_bind_of_error {e : Stop} (h : y m = .error e m') (g : α → Run β) :
    (y >>= g).passed m = y.passed m :=
  (passed_of_error (bind_of_error h g)).trans (passed_of_error h).symm

theorem Quiet.passed_eq (h : y.Quiet) (m : Machine) : y.passed m = m.steps := by
  have hm := h m
  cases hy : y m with
  | ok a m' =>
    rw [hy] at hm
    exact (passed_of_ok hy).trans hm
  | error e m' =>
    rw [hy] at hm
    obtain ⟨hsteps, hbudget⟩ := hm
    have hrefused : e.refused = 0 := by
      unfold Stop.refused
      split
      · cases hbudget
      · rfl
    rw [passed_of_error hy, hrefused, hsteps, Nat.sub_zero]

end Run

namespace OutOfTime

variable {α β : Type} {late : Nat → Prop} {limit : Nat} {steps : Option Nat}

/-- Where the budget of steps lets no step pass, no step is late. -/
theorem of_passed_eq {x : Run α} (h : ∀ m, x.passed m = m.steps)
    (own : ∀ {m n m'}, x m = .error (.error (.stepLimit n)) m' → n ∈ steps) :
    OutOfTime late limit steps x x where
  forward m := Nat.le_of_eq (h m).symm
  own := own
  cut m := .inl ⟨rfl, fun _ hlt hle => absurd (h m ▸ hle) (Nat.not_le.mpr hlt)⟩

theorem quiet {x : Run α} (h : x.Quiet) : OutOfTime late limit steps x x := by
  refine of_passed_eq h.passed_eq fun {m n m'} hx => ?_
  have hm := h m
  rw [hx] at hm
  cases hm.2

/-- What is stopped without a step, and not by a budget of steps, is not out of time. -/
theorem stopped {e : Stop} (he : e.refused = 0) :
    OutOfTime late limit steps (throw e : Run α) (throw e) := by
  refine of_passed_eq (fun m => ?_) fun {m n m'} hx => ?_
  · rw [Run.passed_of_error (y := (throw e : Run α)) (m := m) rfl, he, Nat.sub_zero]
  · cases hx
    cases he

theorem bind {x y : Run α} {f g : α → Run β} (h : OutOfTime late limit steps x y)
    (hf : ∀ a, OutOfTime late limit steps (f a) (g a)) :
    OutOfTime late limit steps (x >>= f) (y >>= g) := by
  have hle : ∀ m, y.passed m ≤ (y >>= g).passed m := by
    intro m
    cases hy : y m with
    | ok a m₁ =>
      rw [Run.passed_of_ok hy, Run.passed_bind_of_ok hy]
      exact (hf a).forward m₁
    | error e m₁ => exact Nat.le_of_eq (Run.passed_bind_of_error hy g).symm
  refine ⟨fun m => Nat.le_trans (h.forward m) (hle m), fun {m n m'} hyg => ?_, fun m => ?_⟩
  · rcases Run.bind_eq_error hyg with hy | ⟨a, m₁, -, hg⟩
    · exact h.own hy
    · exact (hf a).own hg
  rcases h.cut m with ⟨hxy, hnone⟩ | ⟨m', hx, hlt, hm', hlate, hfirst⟩
  · cases hy : y m with
    | error e m₁ =>
      refine .inl ⟨(Run.bind_of_error (hxy.trans hy) f).trans (Run.bind_of_error hy g).symm, ?_⟩
      rw [Run.passed_bind_of_error hy]
      exact hnone
    | ok a m₁ =>
      have hforward : m.steps ≤ m₁.steps := Run.passed_of_ok hy ▸ h.forward m
      rw [Run.passed_of_ok hy] at hnone
      rw [Run.bind_of_ok hy, Run.bind_of_ok (hxy.trans hy), Run.passed_bind_of_ok hy]
      -- None of the steps so far was late, so the first late step is that of what follows.
      have hjoin : ∀ {last : Nat → Prop}, (∀ k, m₁.steps < k → last k → ¬late k) →
          ∀ k, m.steps < k → last k → ¬late k := by
        intro last hrest k hk hlast
        rcases Nat.lt_or_ge m₁.steps k with hgt | hge
        · exact hrest k hgt hlast
        · exact hnone k hk hge
      rcases (hf a).cut m₁ with ⟨hfg, hrest⟩ | ⟨m', hfa, hlt, hm', hlate, hfirst⟩
      · exact .inl ⟨hfg, hjoin hrest⟩
      · exact .inr ⟨m', hfa, Nat.lt_of_le_of_lt hforward hlt, hm', hlate, hjoin hfirst⟩
  · exact .inr ⟨m', Run.bind_of_error hx f, hlt, Nat.le_trans hm' (hle m), hlate, hfirst⟩

/-- Loops that are given up after as many rounds are out of time where a round is. -/
theorem iterate {f g : Env → Run (Env ⊕ Flow)}
    (h : ∀ env, OutOfTime late limit steps (f env) (g env)) (n : Nat) (env : Env) :
    OutOfTime late limit steps (iterate f n env) (iterate g n env) := by
  induction n generalizing env with
  | zero => exact stopped rfl
  | succ n ih =>
    refine bind (h env) fun r => ?_
    rcases r with inner | flow
    · exact ih inner
    · exact quiet (.pure flow)

end OutOfTime

/-! ## The interpreter under a budget of time -/

namespace Setting

variable {s : Setting} {limit : Nat}

/-- The same without a budget of time. -/
def untimed (s : Setting) : Setting :=
  { s with config := { s.config with timeout := none } }

/-- A step is late if the clock is looked at in it and finds that the time is up. -/
theorem isLate_iff (hs : s.config.timeout = some limit) {k : Nat} (hk : 0 < k) :
    s.isLate k = true ↔ k ∈ s.world.lateSteps limit := by
  simp only [isLate, hs, Bool.and_eq_true, decide_eq_true_eq, ← Nat.dvd_iff_mod_eq_zero]
  exact (and_iff_right hk).symm

/-- A step with a budget of time beside the step without it: the budget of steps stops both, or the
clock is looked at in the first one alone. -/
theorem tick_cases (hs : s.config.timeout = some limit) (m : Machine) :
    (∃ n ∈ s.config.maxSteps, s.tick m = s.untimed.tick m ∧
      s.untimed.tick m = .error (.error (.stepLimit n)) { m with steps := m.steps + 1 }) ∨
    s.untimed.tick m = .ok () { m with steps := m.steps + 1 } ∧
      s.tick m = if s.isLate (m.steps + 1) then
          .error (.error (.timeout limit)) { m with steps := m.steps + 1 }
        else .ok () { m with steps := m.steps + 1 } := by
  have hsteps : s.untimed.config.maxSteps = s.config.maxSteps := rfl
  rw [tick_untimed (s := s.untimed) rfl, tick, hsteps]
  cases s.config.maxSteps with
  | none => exact .inr ⟨rfl, by rw [hs]; rfl⟩
  | some n =>
    by_cases hlt : n < m.steps + 1
    · exact .inl ⟨n, rfl, (if_pos hlt).trans (if_pos hlt).symm, if_pos hlt⟩
    · exact .inr ⟨if_neg hlt, (if_neg hlt).trans (by rw [hs]; rfl)⟩

/-- **A step is out of time if it is late**, and passes its budget of steps. -/
theorem outOfTime_tick (hs : s.config.timeout = some limit) :
    OutOfTime (· ∈ s.world.lateSteps limit) limit s.config.maxSteps s.tick s.untimed.tick := by
  refine ⟨fun m => ?_, fun {m n m'} h => ?_, fun m => ?_⟩
  · rcases tick_cases hs m with ⟨n, -, -, hstop⟩ | ⟨hstep, -⟩
    · exact Nat.le_of_eq (Run.passed_of_error hstop).symm
    · rw [Run.passed_of_ok hstep]
      exact Nat.le_succ _
  · rcases tick_cases hs m with ⟨n, hn, -, hstop⟩ | ⟨hstep, -⟩
    · cases hstop.symm.trans h
      exact hn
    · cases hstep.symm.trans h
  · rcases tick_cases hs m with ⟨n, -, heq, hstop⟩ | ⟨hstep, hlook⟩
    · refine .inl ⟨heq, fun k hlt hle => absurd hle (Nat.not_le.mpr ?_)⟩
      rw [Run.passed_of_error hstop]
      exact hlt
    · rw [hlook, hstep, Run.passed_of_ok hstep]
      -- within the limit of steps, the clock is looked at in the step itself
      by_cases hl : s.isLate (m.steps + 1) = true
      · refine .inr ⟨_, if_pos hl, Nat.lt_succ_self _, Nat.le_refl _, ?_, fun k hlt hk => ?_⟩
        · exact (isLate_iff hs (Nat.succ_pos _)).mp hl
        · exact absurd (Nat.le_of_lt_succ hk) (Nat.not_le.mpr hlt)
      · refine .inl ⟨if_neg hl, fun k hlt hle => ?_⟩
        obtain rfl : k = m.steps + 1 := Nat.le_antisymm hle hlt
        exact (isLate_iff hs (Nat.succ_pos _)).not.mp hl

/-- **A budget of time decides on when a run is out of time**, and on nothing else. -/
theorem passes_outOfTime (hs : s.config.timeout = some limit) :
    Passes (fun x y => OutOfTime (· ∈ s.world.lateSteps limit) limit s.config.maxSteps x y) s
      s.untimed where
  types := rfl
  world := rfl
  entryPoint := rfl
  tick := outOfTime_tick hs
  quiet := .quiet
  bind := .bind
  loop hfg env := .iterate (fun env => (outOfTime_tick hs).bind fun _ => hfg env) s.fuel env

/-- A call is out of time where its body is. -/
theorem outOfTime_enter (hs : s.config.timeout = some limit) (depth : Nat) (c : Closure)
    (args : List Value) :
    OutOfTime (· ∈ s.world.lateSteps limit) limit s.config.maxSteps (s.enter depth c args)
      (s.untimed.enter depth c args) := by
  induction depth generalizing c args with
  | zero => exact .stopped rfl
  | succ depth ih =>
    have hpasses := passes_outOfTime hs
    exact hpasses.enter_succ depth depth (hpasses.behind_tick ih) c args

/-- **A run of a program with a budget of time is the run without it, perhaps out of time.** -/
theorem outOfTime_execute (hs : s.config.timeout = some limit) (p : Program)
    (bindings : List (String × Scalar)) :
    OutOfTime (· ∈ s.world.lateSteps limit) limit s.config.maxSteps (s.execute p bindings)
      (s.untimed.execute p bindings) := by
  have hpasses := passes_outOfTime hs
  exact hpasses.execute (hpasses.behind_tick (outOfTime_enter hs s.config.maxDepth)) p bindings

end Setting

/-! ## Runs of programs -/

namespace Outcome

variable {e : Stop} {t k : Nat}

/-- A run has ended when the clock is looked at in a step exactly if this is behind the last step
that has passed the budget of steps. -/
theorem endedBy_ofStop_iff (hk : 0 < k) :
    (ofStop e).EndedBy t k ↔ t - e.refused < k := by
  by_cases he : ∃ n, e = .error (.stepLimit n)
  · obtain ⟨n, rfl⟩ := he
    have hlimit : ∃ n', ofStop (.error (.stepLimit n)) = .error (.stepLimit n') := ⟨n, rfl⟩
    simp only [EndedBy, hlimit, and_true, Stop.refused]
    omega
  · have hrefused : e.refused = 0 := by
      unfold Stop.refused
      split
      · exact absurd ⟨_, rfl⟩ he
      · rfl
    have hlimit : ¬∃ n, ofStop e = .error (.stepLimit n) := by
      rintro ⟨n, hn⟩
      cases e with
      | outOfFuel => cases hn
      | error e =>
        cases hn
        exact he ⟨n, rfl⟩
    rw [EndedBy, hrefused]
    simp only [hlimit, and_false, or_false, Nat.sub_zero]

theorem endedBy_value_iff {v : Value} : (Outcome.value v).EndedBy t k ↔ t < k := by
  have hlimit : ¬∃ n, Outcome.value v = .error (.stepLimit n) := nofun
  simp only [EndedBy, hlimit, and_false, or_false]

end Outcome

namespace Compilation

variable {c : Compilation} {entryPoint : String} {steps : Option Nat} {depth limit : Nat}
  {world : World} {bindings : List (String × Scalar)} {o : Outcome} {t k : Nat}

/-- A run has ended when the clock is looked at in a step exactly if this is behind the last step
that has passed the budget of steps. -/
theorem endedBy_run_iff (config : Config) (fuel : Nat) (hk : 0 < k) :
    (c.run config world bindings fuel).EndedBy (c.ticks config world bindings fuel) k ↔
      Run.passed ((c.setting config world fuel).execute c.program bindings) {} < k := by
  rw [run_eq, result, ticks]
  cases hr : (c.setting config world fuel).execute c.program bindings {} with
  | ok v m =>
    rw [Run.after_of_ok hr, Run.passed_of_ok hr]
    exact Outcome.endedBy_value_iff
  | error e m =>
    rw [Run.after_of_error hr, Run.passed_of_error hr]
    exact Outcome.endedBy_ofStop_iff hk

/-- A run with a budget of time is the run without it, which has ended when the clock is looked at
in a late step; or it ends in the first late step, in which the run without it has not ended. -/
theorem run_timed_cases (c : Compilation) (entryPoint : String) (steps : Option Nat)
    (depth limit : Nat) (world : World) (bindings : List (String × Scalar)) (fuel : Nat) :
    (c.run (.timed entryPoint steps depth limit) world bindings fuel =
        c.run (.untimed entryPoint steps depth) world bindings fuel ∧
      c.ticks (.timed entryPoint steps depth limit) world bindings fuel =
        c.ticks (.untimed entryPoint steps depth) world bindings fuel ∧
      ∀ k ∈ world.lateSteps limit,
        (c.run (.untimed entryPoint steps depth) world bindings fuel).EndedBy
          (c.ticks (.untimed entryPoint steps depth) world bindings fuel) k) ∨
    ∃ k, IsLeast (world.lateSteps limit) k ∧
      c.run (.timed entryPoint steps depth limit) world bindings fuel = .error (.timeout limit) ∧
      c.ticks (.timed entryPoint steps depth limit) world bindings fuel = k ∧
      ¬(c.run (.untimed entryPoint steps depth) world bindings fuel).EndedBy
          (c.ticks (.untimed entryPoint steps depth) world bindings fuel) k := by
  have hcut := (Setting.outOfTime_execute
    (s := c.setting (.timed entryPoint steps depth limit) world fuel) rfl c.program bindings).cut {}
  -- with its clock the run is the one without, or it is cut off in the first late step
  rcases hcut with ⟨heq, hnone⟩ | ⟨m, hm, hpos, hle, hlate, hfirst⟩
  · refine .inl ⟨?_, ?_, fun k hk => (endedBy_run_iff _ fuel hk.1).mpr ?_⟩
    · rw [run_eq, run_eq]
      exact congrArg Outcome.ofResult heq
    · rw [ticks, Run.after, heq]
      rfl
    · exact Nat.lt_of_not_le fun hle => hnone k hk.1 hle hk
  · refine .inr ⟨m.steps, ⟨hlate, fun j hj => ?_⟩, ?_, ?_, ?_⟩
    · exact Nat.le_of_not_lt fun hlt => hfirst j hj.1 hlt hj
    · rw [run_eq]
      exact congrArg Outcome.ofResult hm
    · rw [ticks, Run.after_of_error hm]
    · exact (endedBy_run_iff _ fuel hlate.1).not.mpr (Nat.not_lt.mpr hle)

/-- An endless run takes as many steps as one likes, if its loops are given up late enough. -/
theorem Endless.lt_ticks {n fuel : Nat} (h : c.Endless (.untimed entryPoint steps depth) world bindings)
    (hfuel : n < fuel) : n < c.ticks (.untimed entryPoint steps depth) world bindings fuel := by
  -- A budget of steps would have ended the run.
  obtain rfl : steps = none := by
    rcases steps with _ | limit
    · rfl
    · obtain ⟨o, t, ⟨ho, least, hleast⟩, -⟩ :=
        ends_within c (untimed_maxSteps entryPoint limit depth) world bindings
      exact absurd ((hleast least (Nat.le_refl _)).1.symm.trans (h least)) ho
  have hmetered := run_metered c (untimed_maxSteps entryPoint n depth) world bindings hfuel
  rcases run_or_cut bindings (tightens_untimed (tighter_none (some n)) (Nat.le_refl depth) fuel) with
    ⟨heq, -⟩ | ⟨e, he, hrun, hle⟩
  · exact absurd (heq.trans (h fuel)) hmetered.1
  · cases eq_of_cutOff he
    obtain ⟨-, -, ⟨-, ht⟩ | ⟨hne, -⟩⟩ := hmetered
    · omega
    · exact absurd hrun hne

/-- A run that has ended when the clock is looked at in every late step ends as it does without its
budget of time. -/
theorem Ends.timed (h : c.Ends (.untimed entryPoint steps depth) world bindings o t)
    (hended : ∀ k, IsLeast (world.lateSteps limit) k → o.EndedBy t k) :
    c.Ends (.timed entryPoint steps depth limit) world bindings o t := by
  obtain ⟨ho, least, hleast⟩ := h
  refine ⟨ho, least, fun fuel hfuel => ?_⟩
  obtain ⟨hrun, hticks⟩ := hleast fuel hfuel
  rcases run_timed_cases c entryPoint steps depth limit world bindings fuel with
    ⟨heq, heq', -⟩ | ⟨k, hk, -, -, hnot⟩
  · exact ⟨heq.trans hrun, heq'.trans hticks⟩
  · rw [hrun, hticks] at hnot
    exact absurd (hended k hk) hnot

/-- **A run that has not ended when the clock is looked at in the first late step is stopped there.** -/
theorem ends_timeout (hk : IsLeast (world.lateSteps limit) k)
    (hnot : ∀ o t, c.Ends (.untimed entryPoint steps depth) world bindings o t → ¬o.EndedBy t k) :
    c.Ends (.timed entryPoint steps depth limit) world bindings (.error (.timeout limit)) k := by
  -- From some number of rounds on, the run without a budget of time has not ended in that step.
  have hlate : ∃ least, ∀ fuel ≥ least,
      ¬(c.run (.untimed entryPoint steps depth) world bindings fuel).EndedBy
        (c.ticks (.untimed entryPoint steps depth) world bindings fuel) k := by
    rcases ends_or_endless c (.untimed entryPoint steps depth) world bindings with
      ⟨o, t, hends⟩ | hendless
    · obtain ⟨-, least, hleast⟩ := id hends
      refine ⟨least, fun fuel hfuel => ?_⟩
      obtain ⟨hrun, hticks⟩ := hleast fuel hfuel
      rw [hrun, hticks]
      exact hnot o t hends
    · refine ⟨k + 1, fun fuel hfuel => ?_⟩
      have hlt := hendless.lt_ticks hfuel
      rw [hendless fuel]
      rintro (h | ⟨-, n, hn⟩)
      · omega
      · cases hn
  obtain ⟨least, hleast⟩ := hlate
  refine ⟨nofun, least, fun fuel hfuel => ?_⟩
  rcases run_timed_cases c entryPoint steps depth limit world bindings fuel with
    ⟨-, -, hended⟩ | ⟨k', hk', hrun, hticks, -⟩
  · exact absurd (hended k hk.1) (hleast fuel hfuel)
  · obtain rfl := hk.unique hk'
    exact ⟨hrun, hticks⟩

/-- **How a run ends whose time can be up**: as it does without its budget of time, if it has ended
when the clock is looked at in the first late step, and else in that step. -/
theorem ends_timed_iff (hk : IsLeast (world.lateSteps limit) k) :
    c.Ends (.timed entryPoint steps depth limit) world bindings o t ↔
      c.Ends (.untimed entryPoint steps depth) world bindings o t ∧ o.EndedBy t k ∨
      (o = .error (.timeout limit) ∧ t = k ∧
        ¬∃ o' t', c.Ends (.untimed entryPoint steps depth) world bindings o' t' ∧
          o'.EndedBy t' k) := by
  have hkeep : ∀ {o t}, c.Ends (.untimed entryPoint steps depth) world bindings o t →
      o.EndedBy t k → c.Ends (.timed entryPoint steps depth limit) world bindings o t :=
    fun h hended => h.timed fun k' hk' => hk.unique hk' ▸ hended
  have hstop : (¬∃ o' t', c.Ends (.untimed entryPoint steps depth) world bindings o' t' ∧
      o'.EndedBy t' k) →
      c.Ends (.timed entryPoint steps depth limit) world bindings (.error (.timeout limit)) k :=
    fun hnot => ends_timeout hk fun o' t' h hended => hnot ⟨o', t', h, hended⟩
  constructor
  · intro h
    -- an end of the run without its clock that comes in time is the end; a run has just one
    by_cases hex : ∃ o' t', c.Ends (.untimed entryPoint steps depth) world bindings o' t' ∧
        o'.EndedBy t' k
    · obtain ⟨o', t', h', hended⟩ := hex
      obtain ⟨rfl, rfl⟩ := h.unique (hkeep h' hended)
      exact .inl ⟨h', hended⟩
    · obtain ⟨rfl, rfl⟩ := h.unique (hstop hex)
      exact .inr ⟨rfl, rfl, hex⟩
  · rintro (⟨h, hended⟩ | ⟨rfl, rfl, hnot⟩)
    · exact hkeep h hended
    · exact hstop hnot

/-- A run that a budget of steps stops has that budget, and takes one step more. -/
theorem Ends.of_stepLimit {n : Nat}
    (h : c.Ends (.untimed entryPoint steps depth) world bindings (.error (.stepLimit n)) t) :
    steps = some n ∧ t = n + 1 := by
  obtain ⟨-, least, hleast⟩ := id h
  have hrun := (hleast least (Nat.le_refl _)).1
  -- Any budget of time beside it will do.
  have hown : n ∈ steps := by
    have htimed := Setting.outOfTime_execute
      (s := c.setting (.timed entryPoint steps depth 0) world least) rfl c.program bindings
    rw [run_eq, result] at hrun
    cases hr : (c.setting (.untimed entryPoint steps depth) world least).execute c.program bindings
        {} with
    | ok v m =>
      rw [hr] at hrun
      cases hrun
    | error e m =>
      rw [hr] at hrun
      cases e with
      | outOfFuel => cases hrun
      | error e =>
        cases hrun
        exact htimed.own hr
  cases hown
  obtain ⟨o, t', h', ⟨-, rfl⟩ | ⟨hne, -⟩⟩ :=
    ends_within c (untimed_maxSteps entryPoint n depth) world bindings
  · exact ⟨rfl, (h.unique h').2⟩
  · exact absurd (h'.unique h).1 hne

section Monotone

variable (hclock : Monotone world.clock)
include hclock

/-- When the time is up in a step, one of the next 64 steps is late. -/
theorem exists_late {j : Nat} (hj : limit ≤ world.clock j) :
    ∃ k, IsLeast (world.lateSteps limit) k ∧ k ≤ j + clockInterval := by
  have hdiv := Nat.div_add_mod j clockInterval
  have hmod : j % clockInterval < clockInterval := Nat.mod_lt j (by decide)
  have hnext : clockInterval * (j / clockInterval + 1) ∈ world.lateSteps limit :=
    ⟨Nat.mul_pos (by decide) (Nat.succ_pos _), Nat.dvd_mul_right .., hj.trans (hclock (by
      rw [Nat.mul_succ]
      omega))⟩
  classical
  have hex : ∃ k, k ∈ world.lateSteps limit := ⟨_, hnext⟩
  refine ⟨Nat.find hex, ⟨Nat.find_spec hex, fun k hk => Nat.find_min' hex hk⟩, ?_⟩
  refine (Nat.find_min' hex hnext).trans ?_
  rw [Nat.mul_succ]
  omega

/-- When the time is up in the first step in which the clock is looked at, that step is the first
late one. -/
theorem isLeast_clockInterval {j : Nat} (hj : limit ≤ world.clock j) (hle : j ≤ clockInterval) :
    IsLeast (world.lateSteps limit) clockInterval :=
  ⟨⟨by decide, Nat.dvd_refl _, hj.trans (hclock hle)⟩, fun _ hk => Nat.le_of_dvd hk.1 hk.2.1⟩

end Monotone

/-- Without a late step, a budget of time changes nothing. -/
theorem run_timed_of_empty (hnone : world.lateSteps limit = ∅) (fuel : Nat) :
    c.run (.timed entryPoint steps depth limit) world bindings fuel =
        c.run (.untimed entryPoint steps depth) world bindings fuel ∧
      c.ticks (.timed entryPoint steps depth limit) world bindings fuel =
        c.ticks (.untimed entryPoint steps depth) world bindings fuel := by
  rcases run_timed_cases c entryPoint steps depth limit world bindings fuel with
    ⟨hrun, hticks, -⟩ | ⟨k, hk, -⟩
  · exact ⟨hrun, hticks⟩
  · exact absurd hk.1 (hnone ▸ Set.notMem_empty k)

/-- **A budget of time only cuts runs off, in a step in which the clock is looked at.** Without a late
step it changes nothing. Otherwise a run ends as it does without the budget of time if it has ended,
in whatever way, when the clock is looked at in the first late step; and if not, the time is up there.
On a clock that does not run back, runs end within 64 steps behind the one in which the time is up. In
particular, if it is up from the start, runs of at most 63 steps and runs that a budget of less than
64 steps stops are left as they are, and all others are stopped in step 64. -/
theorem deadlines_only_cut_off (c : Compilation) (entryPoint : String) (steps : Option Nat)
    (depth limit : Nat) (world : World) (bindings : List (String × Scalar)) :
    (world.lateSteps limit = ∅ →
      (∀ o t, c.Ends (.timed entryPoint steps depth limit) world bindings o t ↔
        c.Ends (.untimed entryPoint steps depth) world bindings o t) ∧
      (c.Endless (.timed entryPoint steps depth limit) world bindings ↔
        c.Endless (.untimed entryPoint steps depth) world bindings)) ∧
    (∀ k, IsLeast (world.lateSteps limit) k → ∀ o t,
      c.Ends (.timed entryPoint steps depth limit) world bindings o t ↔
        c.Ends (.untimed entryPoint steps depth) world bindings o t ∧ o.EndedBy t k ∨
        (o = .error (.timeout limit) ∧ t = k ∧
          ¬∃ o' t', c.Ends (.untimed entryPoint steps depth) world bindings o' t' ∧
            o'.EndedBy t' k)) ∧
    (Monotone world.clock → ∀ j, limit ≤ world.clock j →
      (∃ o t, c.Ends (.timed entryPoint steps depth limit) world bindings o t ∧
        t ≤ j + clockInterval) ∧
      (j ≤ clockInterval →
        (∀ o t, c.Ends (.untimed entryPoint steps depth) world bindings o t → t < clockInterval →
          c.Ends (.timed entryPoint steps depth limit) world bindings o t) ∧
        (∀ n < clockInterval, ∀ t,
          c.Ends (.untimed entryPoint steps depth) world bindings (.error (.stepLimit n)) t →
          c.Ends (.timed entryPoint steps depth limit) world bindings (.error (.stepLimit n)) t) ∧
        ((∀ o t, c.Ends (.untimed entryPoint steps depth) world bindings o t →
            clockInterval ≤ t ∧ ∀ n < clockInterval, o ≠ .error (.stepLimit n)) →
          c.Ends (.timed entryPoint steps depth limit) world bindings (.error (.timeout limit))
            clockInterval))) := by
  refine ⟨fun hnone => ⟨fun o t => ?_, ?_⟩, fun k hk o t => ends_timed_iff hk,
    fun hclock j hj => ⟨?_, fun hle => ?_⟩⟩
  · simp only [Ends, run_timed_of_empty hnone]
  · simp only [Endless, run_timed_of_empty hnone]
  · obtain ⟨k, hk, hkj⟩ := exists_late hclock hj
    by_cases hex : ∃ o t, c.Ends (.untimed entryPoint steps depth) world bindings o t ∧ o.EndedBy t k
    · obtain ⟨o, t, h, hended⟩ := hex
      refine ⟨o, t, (ends_timed_iff hk).mpr (.inl ⟨h, hended⟩), ?_⟩
      rcases hended with hlt | ⟨rfl, -⟩
      · exact (Nat.le_of_lt hlt).trans hkj
      · exact hkj
    · exact ⟨_, k, (ends_timed_iff hk).mpr (.inr ⟨rfl, rfl, hex⟩), hkj⟩
  · have hleast := isLeast_clockInterval hclock hj hle
    refine ⟨fun o t h hlt => ?_, fun n hn t h => ?_, fun hothers => ?_⟩
    · exact (ends_timed_iff hleast).mpr (.inl ⟨h, .inl hlt⟩)
    · obtain ⟨-, rfl⟩ := h.of_stepLimit
      refine (ends_timed_iff hleast).mpr (.inl ⟨h, ?_⟩)
      rcases Nat.lt_or_eq_of_le (Nat.succ_le_of_lt hn) with hlt | heq
      · exact .inl hlt
      · exact .inr ⟨heq, n, rfl⟩
    · refine ends_timeout hleast fun o t h hended => ?_
      obtain ⟨hlong, hother⟩ := hothers o t h
      rcases hended with hlt | ⟨ht, n, rfl⟩
      · exact absurd hlong (Nat.not_le.mpr hlt)
      · -- The budget of steps that stops the run in step 64 is one of 63 steps.
        obtain ⟨-, rfl⟩ := h.of_stepLimit
        exact hother n (by omega) rfl

end Compilation

end Formula
