import Formula.Proofs.Variation.Running

/-!
# Variables that are not used

A run does not depend on what a package-level variable is set to from outside, if nothing in the program
looks it up. Two runs then go side by side, with the same steps and draws, on machines that differ in
this one name.

## Main definitions

* `Program.Unused p name`: nothing in a program looks up a name
* `Variation.without name`: two runs of which the values of one name are not compared

## Main results

* `get?_foldl_filter`: what a name stands for depends on the values for that name alone
* `Compilation.run_eq_of_unused`: values for a name that is not used do not matter
-/

namespace Formula

/-- **Nothing in a program looks up a name**: no identifier, no target of a selector, and no target of an
assignment or increment is called so. -/
def Program.Unused (p : Program) (name : String) : Prop :=
  ∀ path n, p.at? path = some n → n.name? ≠ some name

/-- Two runs of which the values of one name are not compared. -/
def Variation.without (name : String) : Variation :=
  { Variation.same with sees other := other ≠ name }

theorem Variation.old_without (name : String) (span : Span) : (without name).Old span :=
  ⟨fun _ => not_false, not_false⟩

/-- A program is a variant of itself, if a name is not used. -/
theorem Program.Unused.variant {p : Program} {name : String} (h : p.Unused name) :
    p.Variant (.without name) p :=
  .refl (Variation.old_without name) fun path n hn _ hother heq =>
    h path n hn (heq ▸ hother)

/-! ## Values from outside -/

/-- What another name stands for does not depend on the values for one name. -/
theorem get?_foldl_filter {name other : String} (hother : other ≠ name)
    (bindings : List (String × Scalar)) {b b' : Bindings Value} (hb : b'.get? other = b.get? other) :
    ((bindings.filter (·.1 ≠ name)).foldl (fun b e => b.set e.1 (.scalar e.2)) b').get? other =
      (bindings.foldl (fun b e => b.set e.1 (.scalar e.2)) b).get? other := by
  induction bindings generalizing b b' with
  | nil => exact hb
  | cons e bindings ih =>
    rw [List.filter_cons, List.foldl_cons]
    split
    · refine ih ?_
      rw [Bindings.get?_set, Bindings.get?_set, hb]
    · rename_i htest
      have he : e.1 = name := by simpa using htest
      refine ih ?_
      rw [Bindings.get?_set, if_neg (he ▸ Ne.symm hother), hb]

/-- Values from outside that differ in those for one name. -/
theorem varies_bindings_without {name : String} {bindings bindings' : List (String × Scalar)}
    (h : bindings.filter (·.1 ≠ name) = bindings'.filter (·.1 ≠ name)) :
    Run.Varies (.without name) Eq
      (bindings.forM fun (name, value) => Run.setGlobal name (.scalar value))
      (bindings'.forM fun (name, value) => Run.setGlobal name (.scalar value)) := by
  intro m m' hm
  have hscalar (e : String × Scalar) (c : Closure) : Value.scalar e.2 ≠ .closure c := by rintro ⟨⟩
  rw [Run.setGlobals_eq, Run.setGlobals_eq]
  refine .ok rfl ⟨hm.size, hm.cells, fun other hother => ?_, hm.steps, hm.drawn⟩
  have hstands := stands_foldl_self Prod.fst (fun e => Value.scalar e.2) hscalar
    (bindings.filter (·.1 ≠ name)) (hm.globals other hother)
  rwa [get?_foldl_filter hother bindings rfl, h, get?_foldl_filter hother bindings' rfl] at hstands

/-- **Variables that are not used do not influence a run.** However values from outside differ in those
for a name that nothing in the program looks up, and that is not the entry function: a run ends in the
same value or error, under any budgets, clock and draws. -/
theorem Compilation.run_eq_of_unused (c : Compilation) {name : String} (hunused : c.program.Unused name)
    {config : Config} (hentry : config.entryPoint ≠ name) (world : World)
    {bindings bindings' : List (String × Scalar)}
    (hbindings : bindings.filter (·.1 ≠ name) = bindings'.filter (·.1 ≠ name)) (fuel : Nat) :
    c.run config world bindings fuel = c.run config world bindings' fuel := by
  have hold := Variation.old_without name
  have hsetting : Setting.Variant (.without name) (c.setting config world fuel)
      (c.setting config world fuel) :=
    ⟨fun _ _ => rfl, fun _ _ h => h.elim, rfl, rfl, rfl⟩
  have hends := hsetting.execute hunused.variant.vars (fun other _ => hunused.variant.stands other)
    (varies_bindings_without hbindings) hentry not_false
  rw [Compilation.run_eq, Compilation.run_eq]
  exact (hends.outcome_eq hold fun _ => not_false).symm

/-- A rate that the result does not take into account. -/
theorem Compilation.run_eq_of_unused_rate : ∃ c : Compilation,
    c.program.vars.map VarDecl.name = ["price", "rate"] ∧ c.program.Unused "rate" ∧
      ∀ world fuel, c.run {} world [("price", .int 3), ("rate", .int 1)] fuel =
        c.run {} world [("rate", .int 2), ("price", .int 3)] fuel := by
  have hunused : Program.Unused ⟨[],
      [.var ⟨"price", none, some (.literal (.int 2) default), default⟩,
        .var ⟨"rate", none, some (.literal (.int 1) default), default⟩,
        .function ⟨"evaluate", [], some (.named "int" default),
          .mk [.ret (some (.identifier "price" default)) default] default, default⟩]⟩ "rate" := by
    have hconstant (n : Int64) :
        (Program.Node.expr (.literal (.int n) default)).All fun m => m.name? ≠ some "rate" :=
      Program.Node.all_iff.mpr ⟨by rintro ⟨⟩, by simp [Program.Node.parts, Program.Node.ofExpr]⟩
    have hprice : (Program.Node.expr (.identifier "price" default)).All fun m =>
        m.name? ≠ some "rate" :=
      Program.Node.all_iff.mpr ⟨by decide, by simp [Program.Node.parts, Program.Node.ofExpr]⟩
    have hbody : (Program.Node.block (.mk [.ret (some (.identifier "price" default)) default]
        default)).All fun m => m.name? ≠ some "rate" :=
      Program.Node.all_iff.mpr ⟨by rintro ⟨⟩, List.forall_mem_singleton.mpr
        (Program.Node.all_iff.mpr ⟨by rintro ⟨⟩, List.forall_mem_singleton.mpr hprice⟩)⟩
    exact Program.forall_at?_iff.mpr (List.forall_mem_cons.mpr ⟨hconstant 2,
      List.forall_mem_cons.mpr ⟨hconstant 1, List.forall_mem_singleton.mpr hbody⟩⟩)
  exact ⟨⟨_, ⟨.int, []⟩⟩, rfl, hunused, fun world fuel =>
    Compilation.run_eq_of_unused _ hunused (by decide) world rfl fuel⟩

end Formula
