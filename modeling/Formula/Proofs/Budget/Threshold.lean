import Formula.Proofs.Budget.Cut
import Formula.Proofs.Budget.Meter
import Mathlib.Data.Nat.Find
import Mathlib.Logic.ExistsUnique

/-!
# Budgets only cut runs off

Without a budget of time, a run depends on its budgets of steps and of calls only in where it is cut
off. Loops are given up after so many rounds so that a run is a function; how a run ends is how it
ends from some number of rounds on.

## Main definitions

* `Compilation.Ends`, `Compilation.Endless`: how a run ends that is not given up, if it does
* `Config.untimed`: budgets of steps and of calls alone

## Main results

* `Compilation.Ends.unique`, `Compilation.ends_or_endless`: a run ends in one way or not at all
* `Compilation.budgets_only_cut_off`: what budgets of steps and of calls do to a run
-/

namespace Formula

/-- The outcome of a run that is stopped. -/
def Outcome.ofStop : Stop → Outcome
  | .error e => .error e
  | .outOfFuel => .outOfFuel

/-- The outcome of a run, however it ends. -/
def Outcome.ofResult : EStateM.Result Stop Machine Value → Outcome
  | .ok v _ => .value v
  | .error e _ => .ofStop e

/-- Whether a run is cut off by a budget of steps or of calls. -/
def Outcome.isLimit : Outcome → Bool
  | .error (.stepLimit _) | .error (.callDepth _) => true
  | _ => false

/-- Budgets of steps and of calls, and none of time. Without a number any number of steps may be
taken. -/
def Config.untimed (entryPoint : String) (steps : Option Nat) (depth : Nat) : Config where
  entryPoint := entryPoint
  timeout := none
  maxSteps := steps
  maxDepth := depth

namespace Compilation

section Runs

variable (c : Compilation) (config : Config) (world : World) (bindings : List (String × Scalar))

/-- What a run depends on, if loops are given up after `fuel` rounds. -/
def setting (fuel : Nat) : Setting :=
  ⟨c.types, config, world, fuel⟩

/-- How a run ends, and the machine behind it. -/
def result (fuel : Nat) : EStateM.Result Stop Machine Value :=
  (c.setting config world fuel).execute c.program bindings {}

/-- How many steps a run takes. -/
def ticks (fuel : Nat) : Nat :=
  (((c.setting config world fuel).execute c.program bindings).after {}).steps

/-- **A run ends in the outcome `o` after `t` steps** if its loops are not given up too early. -/
def Ends (o : Outcome) (t : Nat) : Prop :=
  o ≠ .outOfFuel ∧ ∃ least, ∀ fuel ≥ least,
    c.run config world bindings fuel = o ∧ c.ticks config world bindings fuel = t

/-- A run does not end, however late its loops are given up. -/
def Endless : Prop :=
  ∀ fuel, c.run config world bindings fuel = .outOfFuel

theorem run_eq (fuel : Nat) :
    c.run config world bindings fuel = .ofResult (c.result config world bindings fuel) := by
  unfold Compilation.run result setting EStateM.run
  cases Setting.execute ⟨c.types, config, world, fuel⟩ c.program bindings {} with
  | ok v m => rfl
  | error e m => cases e <;> rfl

end Runs

variable {c : Compilation} {config config' : Config} {world : World}
  {bindings : List (String × Scalar)} {o o' : Outcome} {t t' : Nat}

/-- A run under tighter budgets ends as the run under the wider ones, or is cut off when it has
taken no more steps than that. -/
theorem run_or_cut {E : Stop → Prop} {fuel fuel' : Nat} (bindings : List (String × Scalar))
    (h : (c.setting config world fuel).Tightens E (c.setting config' world fuel')) :
    (c.run config world bindings fuel = c.run config' world bindings fuel' ∧
      c.ticks config world bindings fuel = c.ticks config' world bindings fuel') ∨
    ∃ e, E e ∧ c.run config world bindings fuel = .ofStop e ∧
      c.ticks config world bindings fuel ≤ c.ticks config' world bindings fuel' := by
  rw [run_eq, run_eq]
  rcases (h.execute c.program bindings).cut {} with heq | ⟨e, m, he, hE, hm⟩
  · exact .inl ⟨congrArg _ heq, by rw [ticks, Run.after, heq]; rfl⟩
  · exact .inr ⟨e, hE, congrArg _ he, by rw [ticks, Run.after_of_error he]; exact hm⟩

/-- Giving loops up later changes nothing in a run that ends. -/
theorem run_of_le {fuel fuel' : Nat} (ho : c.run config world bindings fuel ≠ .outOfFuel)
    (hle : fuel ≤ fuel') :
    c.run config world bindings fuel' = c.run config world bindings fuel ∧
      c.ticks config world bindings fuel' = c.ticks config world bindings fuel := by
  have htight : (c.setting config world fuel).Tightens (· = .outOfFuel)
      (c.setting config world fuel') :=
    { types := rfl, world := rfl, entryPoint := rfl
      tick := (Setting.Tightens.refl (c.setting config world fuel)).tick
      depth := Nat.le_refl _, opensFewer := fun h => absurd h (Nat.lt_irrefl _)
      fuel := hle, givesUp := fun _ => rfl }
  rcases run_or_cut bindings htight with ⟨heq, hticks⟩ | ⟨e, rfl, hcut, -⟩
  · exact ⟨heq.symm, hticks.symm⟩
  · exact absurd hcut ho

theorem ends_of_run {fuel : Nat} (hrun : c.run config world bindings fuel = o)
    (ho : o ≠ .outOfFuel) :
    c.Ends config world bindings o (c.ticks config world bindings fuel) := by
  subst hrun
  exact ⟨ho, fuel, fun fuel' hle => run_of_le ho hle⟩

/-- **A run ends or is endless.** -/
theorem ends_or_endless (c : Compilation) (config : Config) (world : World)
    (bindings : List (String × Scalar)) :
    (∃ o t, c.Ends config world bindings o t) ∨ c.Endless config world bindings := by
  by_cases h : c.Endless config world bindings
  · exact .inr h
  · obtain ⟨fuel, hfuel⟩ := Classical.not_forall.mp h
    exact .inl ⟨_, _, ends_of_run rfl hfuel⟩

/-- **A run ends in one way**, after one number of steps. -/
theorem Ends.unique (h : c.Ends config world bindings o t)
    (h' : c.Ends config world bindings o' t') : o = o' ∧ t = t' := by
  obtain ⟨-, k, hk⟩ := h
  obtain ⟨-, k', hk'⟩ := h'
  obtain ⟨ho, ht⟩ := hk (max k k') (Nat.le_max_left ..)
  obtain ⟨ho', ht'⟩ := hk' (max k k') (Nat.le_max_right ..)
  exact ⟨ho.symm.trans ho', ht.symm.trans ht'⟩

/-- A run under a budget of steps keeps to it, if loops may take more rounds than that. -/
theorem run_metered {n fuel : Nat} (c : Compilation) (hn : config.maxSteps = some n)
    (world : World) (bindings : List (String × Scalar)) (hfuel : n < fuel) :
    c.run config world bindings fuel ≠ .outOfFuel ∧
      (∀ d, c.run config world bindings fuel = .error (.callDepth d) →
        d ≤ c.ticks config world bindings fuel) ∧
      (c.run config world bindings fuel = .error (.stepLimit n) ∧
          c.ticks config world bindings fuel = n + 1 ∨
        c.run config world bindings fuel ≠ .error (.stepLimit n) ∧
          c.ticks config world bindings fuel ≤ n) := by
  have hs : (c.setting config world fuel).config.maxSteps = some n := hn
  have hmeter := Setting.metered_execute hs hfuel c.program bindings
  rw [run_eq, result, ticks]
  cases hr : (c.setting config world fuel).execute c.program bindings {} with
  | ok v m =>
    rw [Run.after_of_ok hr]
    exact ⟨nofun, nofun, .inr ⟨nofun, (hmeter.ends (Nat.zero_le _) (Nat.zero_le _) hr).2⟩⟩
  | error e m =>
    rw [Run.after_of_error hr]
    obtain ⟨hgiven, hdepth, hcases⟩ := hmeter.fails (Nat.zero_le _) (Nat.zero_le _) hr
    cases e with
    | outOfFuel => exact absurd rfl hgiven
    | error e =>
      -- The outcome names the error that stopped the run.
      have hiff (e' : RunError) :
          Outcome.ofResult (.error (.error e) m) = .error e' ↔ Stop.error e = .error e' := by
        simp only [Outcome.ofResult, Outcome.ofStop, Outcome.error.injEq, Stop.error.injEq]
      simp only [ne_eq, hiff]
      exact ⟨nofun, hdepth, hcases⟩

/-- **A run under a budget of steps ends**, within the budget or else in the step behind it. -/
theorem ends_within {n : Nat} (c : Compilation) (hn : config.maxSteps = some n) (world : World)
    (bindings : List (String × Scalar)) :
    ∃ o t, c.Ends config world bindings o t ∧
      (o = .error (.stepLimit n) ∧ t = n + 1 ∨ o ≠ .error (.stepLimit n) ∧ t ≤ n) := by
  obtain ⟨hgiven, -, hcases⟩ := run_metered c hn world bindings (Nat.lt_succ_self n)
  exact ⟨_, _, ends_of_run rfl hgiven, hcases⟩

/-! ## Budgets of steps and of calls -/

section Untimed

variable {entryPoint : String} {n d d' : Nat} {steps steps' : Option Nat}

/-- The errors by which smaller budgets of steps and of calls cut a run off. -/
def CutOff (steps : Option Nat) (d d' : Nat) (e : Stop) : Prop :=
  (∃ n ∈ steps, e = .error (.stepLimit n)) ∨ (d < d' ∧ e = .error (.callDepth d))

theorem untimed_maxSteps (entryPoint : String) (n d : Nat) :
    (Config.untimed entryPoint (some n) d).maxSteps = some n := rfl

/-- Every budget of steps is tighter than none. -/
theorem tighter_none (steps : Option Nat) : ∀ n' ∈ (none : Option Nat), ∃ n ∈ steps, n ≤ n' := by
  intro n' hn'
  cases hn'

theorem tightens_untimed (hsteps : ∀ n' ∈ steps', ∃ n ∈ steps, n ≤ n') (hd : d ≤ d')
    (fuel : Nat) :
    (c.setting (.untimed entryPoint steps d) world fuel).Tightens (CutOff steps d d')
      (c.setting (.untimed entryPoint steps' d') world fuel) where
  types := rfl
  world := rfl
  entryPoint := rfl
  tick := Setting.cutShort_tick rfl rfl hsteps fun n hn => .inl ⟨n, hn, rfl⟩
  depth := hd
  opensFewer hlt := .inr ⟨hlt, rfl⟩
  fuel := Nat.le_refl _
  givesUp h := absurd h (Nat.lt_irrefl _)

theorem isLimit_of_cutOff {e : Stop} (h : CutOff steps d d' e) : (Outcome.ofStop e).isLimit := by
  rcases h with ⟨n, -, rfl⟩ | ⟨-, rfl⟩ <;> rfl

/-- Runs under two budgets of which one is tighter end in the same way, or the one under the
tighter budget is cut off. -/
theorem Ends.of_tighter (h : c.Ends (.untimed entryPoint steps' d') world bindings o t)
    (hsteps : ∀ n' ∈ steps', ∃ n ∈ steps, n ≤ n') (hd : d ≤ d') :
    ∃ o' t', c.Ends (.untimed entryPoint steps d) world bindings o' t' ∧
      (o' = o ∧ t' = t ∨ (∃ e, CutOff steps d d' e ∧ o' = .ofStop e) ∧ t' ≤ t) := by
  obtain ⟨ho, fuel, hfuel⟩ := h
  obtain ⟨hrun, hticks⟩ := hfuel fuel (Nat.le_refl _)
  rcases run_or_cut bindings (tightens_untimed hsteps hd fuel) with
    ⟨heq, heq'⟩ | ⟨e, he, hcut, hle⟩
  · exact ⟨_, _, ends_of_run (heq.trans hrun) ho, .inl ⟨rfl, heq'.trans hticks⟩⟩
  · refine ⟨_, _, ends_of_run hcut ?_, .inr ⟨⟨e, he, rfl⟩, hticks ▸ hle⟩⟩
    intro hout
    have := isLimit_of_cutOff he
    rw [hout] at this
    cases this

/-- Conversely, a run that its budgets do not cut off ends in the same way under wider ones. -/
theorem Ends.of_wider (h : c.Ends (.untimed entryPoint steps d) world bindings o t)
    (hsteps : ∀ n' ∈ steps', ∃ n ∈ steps, n ≤ n') (hd : d ≤ d')
    (ho : ∀ e, CutOff steps d d' e → o ≠ .ofStop e) :
    c.Ends (.untimed entryPoint steps' d') world bindings o t := by
  obtain ⟨hne, least, hleast⟩ := h
  refine ⟨hne, least, fun fuel hle => ?_⟩
  obtain ⟨hrun, hticks⟩ := hleast fuel hle
  rcases run_or_cut bindings (tightens_untimed hsteps hd fuel) with
    ⟨heq, heq'⟩ | ⟨e, he, hcut, -⟩
  · exact ⟨heq.symm.trans hrun, heq'.symm.trans hticks⟩
  · exact absurd (hrun.symm.trans hcut) (ho e he)

/-- No error by which a budget cuts a run off is an outcome that is not a limit. -/
theorem ne_of_isLimit (ho : o.isLimit = false) (e : Stop) (he : CutOff steps d d' e) :
    o ≠ .ofStop e := by
  rintro rfl
  exact absurd (isLimit_of_cutOff he) (by rw [ho]; exact Bool.false_ne_true)

/-- Under the same budget of calls, a budget of steps cuts a run off by its own error alone. -/
theorem eq_of_cutOff {e : Stop} (h : CutOff (some n) d d e) : e = .error (.stepLimit n) := by
  rcases h with ⟨n', hn', rfl⟩ | ⟨hlt, -⟩
  · cases hn'
    rfl
  · exact absurd hlt (Nat.lt_irrefl d)

/-- A run that takes no more steps than the budget allows ends as it does without that budget. -/
theorem Ends.of_ticks_le (h : c.Ends (.untimed entryPoint none d) world bindings o t)
    (hle : t ≤ n) : c.Ends (.untimed entryPoint (some n) d) world bindings o t := by
  obtain ⟨o', t', h', ⟨rfl, rfl⟩ | ⟨⟨e, he, rfl⟩, hle'⟩⟩ :=
    h.of_tighter (tighter_none (some n)) (Nat.le_refl d)
  · exact h'
  · -- Cut off, the run has taken more steps than the budget allows.
    cases eq_of_cutOff he
    obtain ⟨o, t₁, h₁, ⟨-, rfl⟩ | ⟨hne, -⟩⟩ := ends_within c (untimed_maxSteps entryPoint n d) world bindings
    · have := (h'.unique h₁).2
      omega
    · exact absurd (h₁.unique h').1 hne

/-- **A run is stopped by its budget of steps exactly if it takes more steps without it**, or does
not end without it. -/
theorem stepLimit_iff :
    (∃ t, c.Ends (.untimed entryPoint (some n) d) world bindings (.error (.stepLimit n)) t) ↔
      c.Endless (.untimed entryPoint none d) world bindings ∨
      ∃ o t, c.Ends (.untimed entryPoint none d) world bindings o t ∧ n < t := by
  obtain ⟨o, t, h, hcases⟩ :=
    ends_within c (untimed_maxSteps entryPoint n d) world bindings
  constructor
  · rintro ⟨t', h'⟩
    obtain ⟨rfl, rfl⟩ := h'.unique h
    have ht : t' = n + 1 := by
      rcases hcases with ⟨-, ht⟩ | ⟨hne, -⟩
      · exact ht
      · exact absurd rfl hne
    rcases ends_or_endless c (.untimed entryPoint none d) world bindings with ⟨o, t, hfree⟩ | hfree
    · refine .inr ⟨o, t, hfree, Nat.lt_of_not_le fun hle => ?_⟩
      have := (h'.unique (hfree.of_ticks_le hle)).2
      omega
    · exact .inl hfree
  · intro hfree
    rcases hcases with ⟨rfl, -⟩ | ⟨hne, hle⟩
    · exact ⟨t, h⟩
    · -- A run that the budget does not stop ends in the same way without it.
      have h' : c.Ends (.untimed entryPoint none d) world bindings o t :=
        h.of_wider (tighter_none (some n)) (Nat.le_refl d) fun e he => eq_of_cutOff he ▸ hne
      rcases hfree with hfree | ⟨o', t', hfree, hlt⟩
      · obtain ⟨ho, least, hleast⟩ := h'
        exact absurd ((hleast least (Nat.le_refl _)).1.symm.trans (hfree least)) ho
      · have := (hfree.unique h').2
        omega

/-- **There is one threshold of steps and one of calls.** Above both a run ends in one way; below
the first it is stopped by its budget of steps, and below the second it is cut off. -/
theorem Ends.exists_threshold (h : c.Ends (.untimed entryPoint steps d) world bindings o t)
    (ho : o.isLimit = false) :
    ∃ depth, ∀ steps' d',
      ((∀ n ∈ steps', t ≤ n) → depth ≤ d' →
        c.Ends (.untimed entryPoint steps' d') world bindings o t) ∧
      (∀ n ∈ steps', n < t → depth ≤ d' → ∃ t',
        c.Ends (.untimed entryPoint steps' d') world bindings (.error (.stepLimit n)) t') ∧
      (d' < depth → ∃ o' t',
        c.Ends (.untimed entryPoint steps' d') world bindings o' t' ∧ o'.isLimit = true) := by
  -- Without a budget of steps, some budget of calls is enough; the least one is the threshold.
  let Enough (depth : Nat) : Prop := c.Ends (.untimed entryPoint none depth) world bindings o t
  have hwiden {steps d d'} (hd : d ≤ d')
      (h : c.Ends (.untimed entryPoint steps d) world bindings o t) : Enough d' :=
    h.of_wider (tighter_none steps) hd (ne_of_isLimit ho)
  classical
  have hex : ∃ depth, Enough depth := ⟨d, hwiden (Nat.le_refl d) h⟩
  have hleast : Enough (Nat.find hex) := Nat.find_spec hex
  refine ⟨Nat.find hex, fun steps' d' => ⟨fun hn hd => ?_, fun n hn hlt hd => ?_, fun hd => ?_⟩⟩
  · cases steps' with
    | none => exact hwiden hd hleast
    | some n => exact (hwiden hd hleast).of_ticks_le (hn n rfl)
  · cases hn
    exact stepLimit_iff.mpr (.inr ⟨o, t, hwiden hd hleast, hlt⟩)
  · obtain ⟨o', t', h', ⟨rfl, rfl⟩ | ⟨⟨e, he, rfl⟩, -⟩⟩ :=
      hleast.of_tighter (tighter_none steps') (Nat.le_of_lt hd)
    · exact absurd (hwiden (Nat.le_refl d') h') (Nat.find_min hex hd)
    · exact ⟨_, t', h', isLimit_of_cutOff he⟩

/-- **Budgets of steps and of calls only cut runs off.** A budget of `n` steps stops a run with its
own error exactly if the run takes more steps without it, or does not end without it; otherwise it
changes nothing. A run that is not cut off ends in the same way under all wider budgets, so that
there is one threshold of steps and one of calls above which runs end in the same way. -/
theorem budgets_only_cut_off (c : Compilation) (entryPoint : String) (world : World)
    (bindings : List (String × Scalar)) :
    (∀ n d,
      (∃! r : Outcome × Nat, c.Ends (.untimed entryPoint (some n) d) world bindings r.1 r.2) ∧
      ((∃ t, c.Ends (.untimed entryPoint (some n) d) world bindings (.error (.stepLimit n)) t) ↔
        c.Endless (.untimed entryPoint none d) world bindings ∨
        ∃ o t, c.Ends (.untimed entryPoint none d) world bindings o t ∧ n < t) ∧
      ∀ o t, c.Ends (.untimed entryPoint none d) world bindings o t → t ≤ n →
        c.Ends (.untimed entryPoint (some n) d) world bindings o t) ∧
    (∀ n d o t, c.Ends (.untimed entryPoint (some n) d) world bindings o t → o.isLimit = false →
      ∀ steps' d', (∀ n' ∈ steps', n ≤ n') → d ≤ d' →
        c.Ends (.untimed entryPoint steps' d') world bindings o t) ∧
    (∀ steps d o t, c.Ends (.untimed entryPoint steps d) world bindings o t →
      o.isLimit = false → ∃ leastSteps leastDepth, ∀ steps' d',
        ((∀ n ∈ steps', leastSteps ≤ n) → leastDepth ≤ d' →
          c.Ends (.untimed entryPoint steps' d') world bindings o t) ∧
        (∀ n ∈ steps', n < leastSteps → leastDepth ≤ d' → ∃ t',
          c.Ends (.untimed entryPoint steps' d') world bindings (.error (.stepLimit n)) t') ∧
        (d' < leastDepth → ∃ o' t',
          c.Ends (.untimed entryPoint steps' d') world bindings o' t' ∧ o'.isLimit = true)) := by
  refine ⟨fun n d => ⟨?_, stepLimit_iff, fun o t h hle => h.of_ticks_le hle⟩, ?_, ?_⟩
  · obtain ⟨o, t, h, -⟩ := ends_within c (untimed_maxSteps entryPoint n d) world bindings
    refine ⟨(o, t), h, fun r hr => ?_⟩
    obtain ⟨ho, ht⟩ := Ends.unique hr h
    exact Prod.ext ho ht
  · intro n d o t h ho steps' d' hn hd
    exact h.of_wider (fun n' hn' => ⟨n, rfl, hn n' hn'⟩) hd (ne_of_isLimit ho)
  · intro steps d o t h ho
    exact ⟨t, h.exists_threshold ho⟩

end Untimed

end Compilation

end Formula
