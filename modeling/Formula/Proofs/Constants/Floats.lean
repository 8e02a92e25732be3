import Formula.Proofs.Constants.Marking
import Formula.Proofs.Typing.Names

/-!
# The floating-point numbers of a program

What is marked in a program that is accepted is what becomes a floating-point number in its slots.
The variables, the entry function and the other functions each leave what they mark to the notes;
the results of the entry function decide on their type, and then on themselves.

## Main results

* `FunctionDecl.entryResult_eq`: what is wanted of the results of the entry function is the one type
  that is inferred from them
* `Program.mem_floats_iff`: what is marked in a program
-/

namespace Formula

open Check.Gives
open Slot (Marked)

/-! ## Scopes -/

theorem eq_of_checkImports {taken taken' : List String} {scopes scopes' : Scoped Ty}
    {imports : List ImportDecl} (h : checkImports taken scopes imports = .ok (taken', scopes')) :
    scopes' = imports.foldl (fun scopes i => scopes.declare i.binding (.package i.path)) scopes := by
  induction imports generalizing taken scopes with
  | nil =>
    cases h
    rfl
  | cons i imports ih =>
    rw [checkImports] at h
    split at h
    · cases h
    split at h
    · cases h
    exact ih h

theorem eq_of_checkNames {entryPoint : String} {taken : List String} {scopes scopes' : Scoped Ty}
    {items : List Item} (h : checkNames entryPoint taken scopes items = .ok scopes') :
    scopes' = (items.filterMap Item.function?).foldl (fun scopes d =>
      if d.name = entryPoint then scopes
      else scopes.declareAs d.name (functionType d.params d.result).toOption) scopes := by
  induction items generalizing taken scopes with
  | nil =>
    cases h
    rfl
  | cons i items ih =>
    obtain ⟨-, inner, hinner, hrest⟩ := checkNames_cons_ok_iff.mp h
    rw [ih hrest]
    cases hinner with
    | var => rfl
    | entry hentry =>
      -- The entry function is in no scope: nothing can call it.
      rw [List.filterMap_cons_some (f := Item.function?) rfl, List.foldl_cons, if_pos hentry]
    | function hother ht =>
      rw [List.filterMap_cons_some (f := Item.function?) rfl, List.foldl_cons, if_neg hother, ht]
      rfl

/-! ## Variables -/

/-- What is noted of package-level variables matches the constants in them. -/
theorem finds_checkVars (scopes : Scoped Ty) (vars : List VarDecl) :
    Check.Gives (checkVars scopes vars) (vars.flatMap fun d => Expr.spansIn d.value) fun scopes' x =>
      scopes' = VarDecl.behind scopes vars ∧ x.Matches (VarDecl.slots scopes vars) := by
  induction vars generalizing scopes with
  | nil => exact .pure ⟨rfl, Effect.matches_nil⟩
  | cons d vars ih =>
    rw [checkVars_cons, List.flatMap_cons]
    refine bind (finds_declaredType d.type d.span fun e _ => finds.ofExpr e) fun t x ht _ => ?_
    refine (ih (scopes.declare d.name t)).mono fun scopes' y hy => ?_
    rw [VarDecl.behind, VarDecl.slots, ht.1]
    exact ⟨hy.1, ht.2.append hy.2⟩

/-! ## Functions -/

/-- **What is wanted of the results of the entry function is the one type that is inferred from
them**: the type of one of them, which all others have or become. -/
theorem FunctionDecl.entryResult_eq {scopes : Scoped Ty} {d : FunctionDecl} {x : Effect} {t : Ty}
    (hresult : d.result = none)
    (htypes : x.types = Stmt.allResults scopes.push d.body.statements)
    (hall : ∀ r ∈ x.results, r.type = t ∨ t = .float ∧ r.type = .int ∧ r.constants ≠ [])
    (hone : ∃ r ∈ x.results, r.type = t) : d.entryResult scopes = some t := by
  have hmem (u : Ty) : some u ∈ x.types ↔ ∃ r ∈ x.results, r.type = u := by
    simp [Effect.types]
  rw [entryResult, hresult]
  dsimp only
  rw [← htypes]
  by_cases hfloat : t = .float
  · rw [if_pos ((hmem .float).mpr (hfloat ▸ hone)), hfloat]
  · -- Without a floating-point number nothing is widened, and all results are of one type.
    have hsame : ∀ r ∈ x.results, r.type = t := fun r hr =>
      (hall r hr).resolve_right fun h => hfloat h.1
    rw [if_neg fun h => by
      obtain ⟨r, hr, hrfloat⟩ := (hmem .float).mp h
      exact hfloat ((hsame r hr).symm.trans hrfloat)]
    cases htypes' : x.types with
    | nil =>
      obtain ⟨r, hr, -⟩ := hone
      rw [Effect.types_eq_nil.mp htypes'] at hr
      cases hr
    | cons u us =>
      have hu : u ∈ x.types := htypes' ▸ List.mem_cons_self
      obtain ⟨r, hr, rfl⟩ := List.mem_map.mp hu
      rw [hsame r (List.mem_reverse.mp hr)]
      rfl

section Functions

variable {scopes : Scoped Ty} {entryPoint : String} {n n' : Notes}

/-- **What is marked in the entry function** once its results are known. -/
theorem floats_of_checkEntry {d : FunctionDecl} {t : Ty} (hname : d.name = entryPoint)
    (h : checkEntry scopes d n = .ok (t, n')) (hn : n.results = []) (s : Span) :
    s ∈ n'.floats ↔ s ∈ n.floats ∨ Marked (d.slots entryPoint scopes) s := by
  obtain ⟨name, params, result, body, span⟩ := d
  cases params with
  | cons p params => cases h
  | nil =>
    rw [FunctionDecl.slots, if_pos hname]
    have hbody (expected : Option Ty) : Check.Gives (checkFunction expected scopes [] body)
        (Stmt.spansOfAll body.statements) fun _ x => x.MatchesFor expected
          (Stmt.allSlots · scopes.push body.statements)
          (Stmt.allResults scopes.push body.statements) :=
      Expr.finds_checkFunction expected [] (finds.ofStmts body.statements)
    cases result with
    | some e =>
      -- A result type that is written down is wanted of each result at once.
      have hentry : Check.Gives (do
          let t ← Check.resolved e.resolve
          checkFunction (some t) scopes [] body
          return t) (Stmt.spansOfAll body.statements) fun t x => e.resolve = .ok t ∧
            x.Matches (Stmt.allSlots (some t) scopes.push body.statements) := by
        refine .resolved_bind fun t ht => ?_
        refine last (hbody (some t)) (fun _ => id) fun _ x hx _ => .pure ⟨ht, ?_⟩
        rw [Effect.append_nil]
        exact hx.matches
      obtain ⟨x, htakes, -, ht, hx⟩ := hentry n t n' h
      have hwanted : FunctionDecl.entryResult scopes ⟨name, [], some e, body, span⟩ = some t := by
        show e.resolve.toOption = some t
        rw [ht]
        rfl
      rw [htakes.floats, hx.marks, hwanted]
    | none =>
      -- Else the results are noted in the body, and marked by what they are unified to afterwards.
      obtain ⟨n₁, hrun, h⟩ := checkEntry_inferred_parts h
      obtain ⟨x, htakes, hwithin, hx⟩ := hbody none n () n₁ hrun
      obtain ⟨hall, hone, hmarks⟩ := htakes.unifyResults hwithin hn h
      have htypes : x.types = Stmt.allResults scopes.push body.statements := hx.types
      rw [FunctionDecl.entryResult_eq rfl htypes hall hone, hmarks]
      exact or_congr_right (hx.marks t (fun _ h => nomatch h) s)

/-- What is marked in a function that is not the entry function. -/
theorem finds_checkOther {d : FunctionDecl} (hname : d.name ≠ entryPoint) {r : Ty}
    (hr : resultType d.result = .ok r) :
    Check.Gives (checkFunction (some r) scopes d.params d.body) (Stmt.spansOfAll d.body.statements)
      fun _ x => x.Matches (d.slots entryPoint scopes) := by
  refine (Expr.finds_checkFunction _ _ (finds.ofStmts d.body.statements)).mono fun _ x hx => ?_
  rw [FunctionDecl.slots, if_neg hname, hr]
  exact hx.matches

/-- **What is marked in the functions of a program.** No results are noted before the entry function
is checked, which is the only one of its name. -/
theorem floats_of_checkFunctions {entry r : Option Ty} {functions : List FunctionDecl}
    (hnodup : (functions.map (·.name)).Nodup)
    (hn : entryPoint ∈ functions.map (·.name) → n.results = [])
    (h : checkFunctions entryPoint scopes entry functions n = .ok (r, n')) (s : Span) :
    s ∈ n'.floats ↔
      s ∈ n.floats ∨ Marked (functions.flatMap (FunctionDecl.slots entryPoint scopes)) s := by
  induction functions generalizing entry n with
  | nil =>
    cases h
    simp
  | cons d functions ih =>
    rw [List.map_cons, List.nodup_cons] at hnodup
    rw [List.flatMap_cons, Slot.marked_append, ← or_assoc]
    obtain ⟨hentry, t, n₁, hrun, h⟩ | ⟨hother, t, n₁, hr, hrun, h⟩ := checkFunctions_cons_parts h
    · -- Results that it notes are in no other function's way, as no other one is the entry.
      rw [ih hnodup.2 (fun hmem => absurd (hentry ▸ hmem) hnodup.1) h,
        floats_of_checkEntry hentry hrun (hn (hentry ▸ List.mem_cons_self))]
    · obtain ⟨x, htakes, -, hx⟩ := finds_checkOther hother hr n () n₁ hrun
      rw [ih hnodup.2 (fun hmem => ?_) h, htakes.floats, hx.marks]
      rw [htakes.results, hx.results, List.nil_append]
      exact hn (List.mem_cons_of_mem _ hmem)

end Functions

/-! ## Programs -/

/-- **What is marked in a program is what becomes a floating-point number in its slots.** -/
theorem Program.mem_floats_iff {p : Program} {entryPoint : String} {types : TypeInfo}
    (h : p.check entryPoint = .ok types) (s : Span) :
    s ∈ types.floats ↔ Marked (p.slots entryPoint) s := by
  obtain ⟨taken, scopes, scopes', notes, himports, hnames, hbodies, hfloats⟩ :=
    Program.check_eq_ok h
  have hscopes : scopes' = p.declaredScopes entryPoint := by
    rw [eq_of_checkNames hnames, eq_of_checkImports himports]
    rfl
  have hnodup := nodup_functions (nodup_of_checkNames hnames).1
  rw [hfloats, slots, ← hscopes, Slot.marked_append]
  obtain ⟨scopes'', n, hvars, hfunctions⟩ := checkBodies_parts hbodies
  obtain ⟨x, htakes, -, rfl, hx⟩ := finds_checkVars scopes' p.vars {} scopes'' n hvars
  -- Variables note no results, so those of the entry function are the only ones.
  have hresults : n.results = [] := by rw [htakes.results, hx.results]; rfl
  rw [floats_of_checkFunctions hnodup (fun _ => hresults) hfunctions, htakes.floats, hx.marks]
  simp

end Formula
