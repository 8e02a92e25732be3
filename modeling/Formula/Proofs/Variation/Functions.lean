import Formula.Proofs.Variation.Checking

/-!
# Checking functions one by one

What the checker finds out about one function does not depend on what it has noted before. So what it finds
out about all functions of a program is told without an order.

## Main definitions

* `checkDeclared`: checks one function
* `FunctionDecl.found`: what is found of a function, if nothing has been noted before
* `FunctionDecl.AllFound`: what is found of functions, told without an order

## Main results

* `checkDeclared_from`: what is noted before a function is checked does not matter
* `checkFunctions_from`: functions are accepted if each one is
-/

namespace Formula

/-- A program is a variant of itself. -/
theorem Program.variant_same (p : Program) : p.Variant .same p :=
  .refl Variation.old_same fun _ _ _ _ _ => trivial

theorem FunctionDecl.variant_same (d : FunctionDecl) : d.Variant .same d := by
  have h := (Program.variant_same ⟨[], [.function d]⟩).functions
  cases h with
  | cons h => exact h

/-- Checks one function, and gives the result type of the entry function. -/
def checkDeclared (entryPoint : String) (scopes : Scoped Ty) (d : FunctionDecl) : Check (Option Ty) :=
  if d.name = entryPoint then do
    let t ← checkEntry scopes d
    return some t
  else do
    let result ← Check.resolved (resultType d.result)
    checkFunction (some result) scopes d.params d.body
    return none

theorem checkFunctions_cons (entryPoint : String) (scopes : Scoped Ty) (entry : Option Ty)
    (d : FunctionDecl) (functions : List FunctionDecl) :
    checkFunctions entryPoint scopes entry (d :: functions) = (do
      let t ← checkDeclared entryPoint scopes d
      checkFunctions entryPoint scopes (t.or entry) functions) := by
  rw [checkFunctions, checkDeclared]
  split
  · simp
  · simp

section Functions

variable {entryPoint : String} {scopes scopes' : Scoped Ty}

/-- What a function is found to be, if nothing has been noted before. -/
def FunctionDecl.found (entryPoint : String) (scopes : Scoped Ty) (d : FunctionDecl) :
    Except TypeError (Option Ty × Notes) :=
  checkDeclared entryPoint scopes d {}

/-- **What is noted before a function is checked does not matter**, but for results before the entry
function. What it notes comes on top of that, and a function that is not the entry function notes no
results. -/
theorem checkDeclared_from (hscopes : scopes.Same scopes') (d : FunctionDecl) {n : Notes}
    (hn : d.name = entryPoint → n.results = []) :
    Related (fun m m' => (∀ s, s ∈ m'.floats ↔ s ∈ m.floats ∨ s ∈ n.floats) ∧
        (d.name ≠ entryPoint → m'.results = n.results)) (fun _ _ => True) Eq
      (d.found entryPoint scopes) (checkDeclared entryPoint scopes' d n) := by
  have hempty (R : List InferredResult → List InferredResult → Prop) (hR : R [] n.results) :
      Notes.Variant .same n.floats R {} n :=
    ⟨fun _ _ => by simp, fun _ _ h => h.elim, hR⟩
  unfold FunctionDecl.found checkDeclared
  by_cases hentry : d.name = entryPoint
  · rw [if_pos hentry, if_pos hentry]
    have hcheck : Check.Varies (Notes.Variant .same n.floats (InferredResult.Same .same)) Eq
        (do return some (← checkEntry scopes d)) (do return some (← checkEntry scopes' d)) :=
      (varies_checkEntry hscopes Notes.Variant.keptSame d.variant_same).bind
        fun t t' ht => .pure (ht ▸ rfl)
    exact (hcheck _ _ (hempty _ ⟨hn hentry, by simp⟩)).mono fun m m' hm =>
      ⟨fun s => hm.floats s (Variation.old_same s), fun h => absurd hentry h⟩
  · rw [if_neg hentry, if_neg hentry]
    -- No results are noted, so those from before may be any.
    have hcheck : Check.Varies (Notes.Variant .same n.floats fun rs rs' => rs = [] ∧ rs' = n.results) Eq
        (do
          let result ← Check.resolved (resultType d.result)
          checkFunction (some result) scopes d.params d.body
          return (none : Option Ty))
        (do
          let result ← Check.resolved (resultType d.result)
          checkFunction (some result) scopes' d.params d.body
          return none) := by
      refine (Check.varies_resolved _).bind fun result result' hresult => ?_
      subst hresult
      exact (varies_checkFunction hscopes Notes.Variant.kept (by rintro ⟨⟩) d.params
        d.variant_same.body).bind fun _ _ _ => .pure rfl
    exact (hcheck _ _ (hempty _ ⟨rfl, rfl⟩)).mono fun m m' hm =>
      ⟨fun s => hm.floats s (Variation.old_same s), fun _ => hm.results.2⟩

/-- The entry function alone has a result type for the program. -/
theorem FunctionDecl.isSome_of_found {d : FunctionDecl} {t : Option Ty} {m : Notes}
    (h : d.found entryPoint scopes = .ok (t, m)) : t.isSome = true ↔ d.name = entryPoint := by
  unfold found checkDeclared at h
  by_cases hentry : d.name = entryPoint
  · rw [if_pos hentry] at h
    obtain ⟨u, n, -, hlast⟩ := Check.bind_eq_ok h
    cases hlast
    exact iff_of_true rfl hentry
  · rw [if_neg hentry] at h
    obtain ⟨r, n₁, -, hrest⟩ := Check.bind_eq_ok h
    obtain ⟨-, n₂, -, hlast⟩ := Check.bind_eq_ok hrest
    cases hlast
    exact iff_of_false (by simp) hentry

/-- **What is found of functions, told without an order**: the result type of the entry function, and what
becomes a floating-point number in each of them. -/
structure FunctionDecl.AllFound (entryPoint : String) (scopes : Scoped Ty)
    (functions : List FunctionDecl) (n : Notes) (entry : Option Ty) (n' : Notes) : Prop where
  found : ∀ d ∈ functions, ∃ r, d.found entryPoint scopes = .ok r
  entry : ∀ d ∈ functions, d.name = entryPoint → ∃ m, d.found entryPoint scopes = .ok (entry, m)
  floats : ∀ s, s ∈ n'.floats ↔ s ∈ n.floats ∨
    ∃ d ∈ functions, ∃ t m, d.found entryPoint scopes = .ok (t, m) ∧ s ∈ m.floats

/-- **Functions are accepted if each one is**, from whatever has been noted, if no results have. -/
theorem checkFunctions_from (hscopes : scopes.Same scopes') {functions : List FunctionDecl}
    (hnodup : (functions.map FunctionDecl.name).Nodup) {n : Notes}
    (hn : entryPoint ∈ functions.map FunctionDecl.name → n.results = []) (entry : Option Ty) :
    (∃ t n', checkFunctions entryPoint scopes' entry functions n = .ok (t, n') ∧
        FunctionDecl.AllFound entryPoint scopes functions n t n' ∧
          (entryPoint ∉ functions.map FunctionDecl.name → t = entry)) ∨
      (∃ d ∈ functions, ∃ e, d.found entryPoint scopes = .error e) ∧
        ∃ e, checkFunctions entryPoint scopes' entry functions n = .error e := by
  induction functions generalizing n entry with
  | nil =>
    refine .inl ⟨entry, n, ?_, ⟨by simp, by simp, by simp⟩, fun _ => rfl⟩
    rw [checkFunctions]
    rfl
  | cons d functions ih =>
    rw [List.map_cons, List.nodup_cons] at hnodup
    rw [checkFunctions_cons]
    have hfirst := checkDeclared_from hscopes d fun hd => hn (List.mem_cons.mpr (.inl hd.symm))
    change (∃ t n', (checkDeclared entryPoint scopes' d n >>= fun r =>
      checkFunctions entryPoint scopes' (r.1.or entry) functions r.2) = .ok (t, n') ∧ _) ∨ _ ∧
        ∃ e, (checkDeclared entryPoint scopes' d n >>= fun r =>
          checkFunctions entryPoint scopes' (r.1.or entry) functions r.2) = .error e
    generalize hfound : d.found entryPoint scopes = r at hfirst
    generalize checkDeclared entryPoint scopes' d n = r' at hfirst ⊢
    cases hfirst with
    | error => exact .inr ⟨⟨d, List.mem_cons_self, _, hfound⟩, _, rfl⟩
    | @ok t _ m m' ht hm =>
      subst ht
      have hresults : entryPoint ∈ functions.map FunctionDecl.name → m'.results = [] := by
        intro hmem
        rw [hm.2 fun hd => hnodup.1 (hd ▸ hmem)]
        exact hn (List.mem_cons_of_mem _ hmem)
      rcases ih hnodup.2 hresults (t.or entry) with ⟨u, n', hrest, hall, hlast⟩ | ⟨⟨d', hd', hbad⟩, hrest⟩
      · have htype := FunctionDecl.isSome_of_found hfound
        refine .inl ⟨u, n', hrest, ⟨List.forall_mem_cons.mpr ⟨⟨_, hfound⟩, hall.found⟩,
          fun d' hd' hname => ?_, fun s => ?_⟩, fun hmem => ?_⟩
        · rcases List.mem_cons.mp hd' with rfl | hd'
          · obtain ⟨t, rfl⟩ := Option.isSome_iff_exists.mp (htype.mpr hname)
            exact ⟨m, hlast (hname ▸ hnodup.1) ▸ hfound⟩
          · exact hall.entry d' hd' hname
        · rw [hall.floats, hm.1 s, List.exists_mem_cons_iff]
          simp [hfound, or_assoc, or_comm]
        · rw [List.map_cons, List.mem_cons, not_or] at hmem
          have hnone : t = none := by simpa using mt htype.mp (Ne.symm hmem.1)
          rw [hlast hmem.2, hnone, Option.none_or]
      · exact .inr ⟨⟨d', List.mem_cons_of_mem _ hd', hbad⟩, hrest⟩

end Functions

end Formula
