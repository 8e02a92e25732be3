import Formula.Proofs.Program.Layout
import Formula.Proofs.Resolution.Checked
import Formula.Proofs.Resolution.Reach

/-!
# Names in the runs of a program

In each run of an accepted program, each name reaches the declaration that the checker found for it, as
soon as this is in place. A package-level variable is in place when it has got its initial value; a
function that is called before may refer to it, and then the run ends.

## Main results

* `Program.Checked.initVars_follows`: names in initial values
* `SourceFile.track_sound`: names in the runs of a compiled program
-/

namespace Formula

variable {p : Program} {entryPoint : String} {s : Setting} {cells : List Declaration} {t : Track}

/-! ## Scopes outside of all functions -/

/-- A variable that gets its initial value is in place from then on. -/
theorem Track.Sound.initialise {before rest : List VarDecl} {d : VarDecl}
    (h : t.Sound p entryPoint before.length cells) (hsplit : p.vars = before ++ d :: rest)
    {v : Value} (hv : v.Known p entryPoint cells) :
    Track.Sound p entryPoint (before.length + 1) cells { t with
      machine := { t.machine with globals := t.machine.globals.set d.name v }
      globals := t.globals.set d.name (.global t.initialised)
      initialised := t.initialised + 1 } where
  cells_eq := h.cells_eq
  size := h.size
  initialised := congrArg (· + 1) h.initialised
  globals := by
    -- one more variable is in place, behind those that were
    have hnext : p.declarations (fun _ => true) (before.length + 1) =
        p.declarations (fun _ => true) before.length ++ [(d.name, .global before.length)] := by
      simp [Program.declarations, List.take_add_one, hsplit]
    dsimp only
    rw [h.globals, h.initialised, Program.globalsAt, Program.globalsAt, hnext, ← List.append_assoc]
    exact (Bindings.setAll_append [(d.name, Declaration.global before.length)]).symm
  values := h.values
  globalValues name w hw := by
    rw [Bindings.get?_set] at hw
    split at hw
    · cases hw
      exact hv
    · exact h.globalValues name w hw
  found name hname := by
    rw [Bindings.get?_set] at hname ⊢
    split at hname
    · cases hname
    · rename_i hne
      rw [if_neg hne]
      exact h.found name hname
  accesses := h.accesses

/-- What package-level names stand for at the start of a run. -/
theorem Program.initialGlobals_eq (p : Program) : p.initialGlobals =
    Bindings.setAll [] ((Builtin.all.map fun b => (b.name, .builtin b)) ++
      (p.imports.map (fun i => (i.binding, .package i.path)) ++
        p.functions.map fun d => (d.name, .closure d.closure))) := by
  simp only [initialGlobals, Bindings.setAll, List.foldl_append, List.foldl_map]

/-- Values from outside are no functions of the program, and names keep standing for something. -/
theorem Track.Sound.bindings (bindings : List (String × Scalar))
    (ht : t.Sound p entryPoint p.vars.length cells) :
    Tracked.Ends p entryPoint
      (Tracked.lift (bindings.forM fun (name, value) => Run.setGlobal name (.scalar value)) t)
      ((bindings.forM fun (name, value) => Run.setGlobal name (.scalar value)) t.machine)
      fun _ t' => t'.Sound p entryPoint p.vars.length cells := by
  induction bindings generalizing t with
  | nil => exact ⟨rfl, rfl, ht⟩
  | cons b bindings ih =>
    refine ih (t := { t with machine := { t.machine with
      globals := t.machine.globals.set b.1 (.scalar b.2) } }) ?_
    refine ⟨ht.cells_eq, ht.size, ht.initialised, ht.globals, ht.values, fun name v hv => ?_,
      fun name hname => ?_, ht.accesses⟩
    · rw [Bindings.get?_set] at hv
      split at hv
      · cases hv
        exact trivial
      · exact ht.globalValues name v hv
    · rw [Bindings.get?_set] at hname
      split at hname
      · cases hname
      · exact ht.found name hname

/-- Calls the entry function. -/
def Tracked.callEntry (s : Setting) : Tracked Value := fun t =>
  (match t.machine.globals.get? s.config.entryPoint with
    | some f => Tracked.apply s (Tracked.enterTop s) f []
    | none => Tracked.lift (Run.fail (.noEntryPoint s.config.entryPoint))) t

/-- The error that a run ends in, if it does. -/
def Outcome.error? : Outcome → Option RunError
  | .error e => some e
  | _ => none

theorem Outcome.eq_error {o : Outcome} {e : RunError} (h : o.error? = some e) : o = .error e := by
  cases o with
  | error e' =>
    cases h
    rfl
  | value v => cases h
  | outOfFuel => cases h

end Formula
