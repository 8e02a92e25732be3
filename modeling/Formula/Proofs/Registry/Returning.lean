import Formula.Proofs.Artifact.Honest
import Formula.Proofs.Registry.Entry
import Formula.Proofs.Registry.Running
import Formula.Proofs.Typing.Bodies

/-!
# Declared values come through

Declarations whose formula returns one of their inputs are written as a text, which is scanned,
parsed, checked and run. The value that the input was declared with comes out at the end, whichever
it is.

## Main definitions

* `Variable.survivor`: what is left of the value that an input is declared with
* `Registry.Returns r v`: the formula of `r` returns its input `v`

## Main results

* `Registry.exists_program`: the program that such declarations are read as
* `Registry.check_program`, `Registry.run_program`: its types, and what it returns
* `Registry.declared_values_survive`: the whole way
-/

namespace Formula

open Text Parse

/-! ## The checker -/

theorem checkImports_eq {imports : List ImportDecl} {taken : List String} (scopes : Scoped Ty)
    (hpaths : ∀ i ∈ imports, i.path ∈ Package.paths) (hnodup : (imports.map ImportDecl.binding).Nodup)
    (hfree : ∀ i ∈ imports, i.binding ∉ taken) :
    checkImports taken scopes imports = .ok ((imports.map ImportDecl.binding).reverse ++ taken,
      imports.foldl (fun s i => s.declare i.binding (.package i.path)) scopes) := by
  induction imports generalizing taken scopes with
  | nil => rfl
  | cons i imports ih =>
    obtain ⟨hnot, hnodup⟩ := List.nodup_cons.mp hnodup
    rw [checkImports, if_neg (not_not.mpr (hpaths i List.mem_cons_self)),
      if_neg (hfree i List.mem_cons_self),
      ih _ (fun j hj => hpaths j (List.mem_cons_of_mem i hj)) hnodup]
    · simp
    · intro j hj
      simp only [List.mem_cons, not_or]
      exact ⟨fun heq => hnot (heq ▸ List.mem_map_of_mem hj), hfree j (List.mem_cons_of_mem i hj)⟩

/-- No name of variables and of the entry function is declared twice. -/
theorem checkNames_eq {vs : List VarDecl} {d : FunctionDecl} {taken : List String}
    {scopes : Scoped Ty} (hd : d.name = defaultEntryPoint) (hnodup : (vs.map VarDecl.name).Nodup)
    (hfree : ∀ w ∈ vs, w.name ∉ taken ∧ w.name ≠ defaultEntryPoint)
    (hentry : defaultEntryPoint ∉ taken) :
    checkNames defaultEntryPoint taken scopes (vs.map Item.var ++ [.function d]) = .ok scopes := by
  induction vs generalizing taken with
  | nil =>
    simp only [List.map_nil, List.nil_append, checkNames, Item.name, hd, hentry, if_false, if_true]
  | cons w vs ih =>
    obtain ⟨hnot, hnodup⟩ := List.nodup_cons.mp hnodup
    obtain ⟨hw, hne⟩ := hfree w List.mem_cons_self
    rw [List.map_cons, List.cons_append, checkNames]
    simp only [Item.name, hw, if_false]
    refine ih hnodup (fun u hu => ?_) ?_
    · obtain ⟨hu', hune⟩ := hfree u (List.mem_cons_of_mem w hu)
      refine ⟨?_, hune⟩
      simp only [List.mem_cons, not_or]
      exact ⟨fun heq => hnot (heq ▸ List.mem_map_of_mem hu), hu'⟩
    · simp only [List.mem_cons, not_or]
      exact ⟨hne.symm, hentry⟩

theorem find?_declareVars_of_notMem {vars : List Variable} {scopes : Scoped Ty} (hs : scopes ≠ [])
    {name : String} (h : ∀ v ∈ vars, v.name ≠ name) :
    (declareVars vars scopes).find? name = scopes.find? name := by
  induction vars generalizing scopes with
  | nil => rfl
  | cons v vars ih =>
    have hs' := Scoped.declare_ne_nil hs v.name (.ofScalar v.type)
    have hrest := ih hs' fun w hw => h w (List.mem_cons_of_mem v hw)
    rw [Scoped.find?_declare hs, if_neg (h v List.mem_cons_self)] at hrest
    exact hrest

/-- An input is found with its type. -/
theorem find?_declareVars {vars : List Variable} {scopes : Scoped Ty} (hs : scopes ≠ [])
    (hnodup : (vars.map Variable.name).Nodup) {v : Variable} (hv : v ∈ vars) :
    (declareVars vars scopes).find? v.name = some (.ofScalar v.type) := by
  induction vars generalizing scopes with
  | nil => cases hv
  | cons w vars ih =>
    obtain ⟨hnot, hnodup⟩ := List.nodup_cons.mp hnodup
    have hs' := Scoped.declare_ne_nil hs w.name (.ofScalar w.type)
    rcases List.mem_cons.mp hv with rfl | hv
    · have hne : ∀ u ∈ vars, u.name ≠ v.name := fun u hu heq =>
        hnot (heq ▸ List.mem_map_of_mem hu)
      have hrest := find?_declareVars_of_notMem hs' hne
      rw [Scoped.find?_declare hs, if_pos rfl] at hrest
      exact hrest
    · exact ih hs' hnodup hv

theorem vars_of_items {p : Program} {vs : List VarDecl} {d : FunctionDecl}
    (h : p.items = vs.map Item.var ++ [.function d]) : p.vars = vs ∧ p.functions = [d] := by
  constructor
  · rw [Program.vars, h, List.filterMap_append, List.filterMap_map]
    simp [Function.comp_def, Item.var?]
  · rw [Program.functions, h, List.filterMap_append, List.filterMap_map]
    simp [Function.comp_def, Item.function?]

/-- The result of an entry function that returns a variable is of the type of the variable. -/
theorem checkEntry_returns {scopes : Scoped Ty} {d : FunctionDecl} {v : Variable}
    (hd : d.Returns v.name) (hfind : scopes.push.find? v.name = some (.ofScalar v.type)) :
    ∃ results, checkEntry scopes d {} = .ok (.ofScalar v.type, ⟨[], results⟩) := by
  obtain ⟨-, hparams, hresult, s, t, u, hbody⟩ := hd
  have hused : ∀ e : Expr, usedType e (.ofScalar v.type) = .ok (.ofScalar v.type) := by
    intro e
    cases v.type <;> rfl
  have hexpr : valueType (.identifier v.name s) (checkExpr scopes.push (.identifier v.name s)) {} =
      .ok (.ofScalar v.type, {}) := by
    rw [checkExpr, hfind]
    change (liftM (usedType _ _) : Check Ty) {} = _
    rw [hused]
    rfl
  have hstmt : checkStmt ⟨none, false⟩ scopes.push (.ret (some (.identifier v.name s)) t) {} =
      .ok (scopes.push, ⟨[], [⟨.ofScalar v.type, s, []⟩]⟩) := by
    change (valueType _ _ >>= fun t => Check.addResult ⟨t, s, []⟩ >>= fun _ => pure _) {} = _
    simp only [bind, StateT.bind, hexpr, Except.bind]
    rfl
  have hfunction : checkFunction none scopes [] d.body {} =
      .ok ((), ⟨[], [⟨.ofScalar v.type, s, []⟩]⟩) := by
    rw [hbody, checkFunction]
    simp only [Block.statements_mk, checkStmts, declareParams]
    change ((checkStmt _ _ _ >>= fun _ => pure ()) >>= fun _ => checkEnd _ _) {} = _
    simp only [bind, StateT.bind, hstmt, Except.bind]
    rfl
  -- One result is of the same type as all of them.
  refine ⟨[⟨.ofScalar v.type, s, []⟩], ?_⟩
  rw [checkEntry, hparams, hresult]
  simp only [bind, StateT.bind, hfunction, Except.bind]
  change unifyResults d.name d.span [⟨.ofScalar v.type, s, []⟩] _ = _
  have hsame : [(⟨.ofScalar v.type, s, []⟩ : InferredResult)].find?
      (fun r => decide (r.type ≠ .ofScalar v.type)) = none := by simp
  rw [unifyResults, hsame]
  rfl

/-- **The checker finds the type of the variable that is returned**, and has nothing to note. -/
theorem checkBodies_returns {p : Program} {vars : List Variable} {vs : List VarDecl}
    {d : FunctionDecl} {v : Variable} (hitems : p.items = vs.map Item.var ++ [.function d])
    (hvs : List.Forall₂ (fun v d => VarDecl.Declares d v) vars vs) (hd : d.Returns v.name)
    (htypes : ∀ v ∈ vars, v.initialValue.type = v.type) (hnodup : (vars.map Variable.name).Nodup)
    (hv : v ∈ vars) {scopes : Scoped Ty} (hs : scopes ≠ []) :
    ∃ results, checkBodies p defaultEntryPoint scopes {} =
      .ok (some (.ofScalar v.type), ⟨[], results⟩) := by
  obtain ⟨hvars, hfunctions⟩ := vars_of_items hitems
  have hchecked : checkVars scopes vs {} = .ok (declareVars vars scopes, {}) :=
    List.append_nil vs ▸ checkVars_of_declares hvs htypes [] scopes {}
  obtain ⟨results, hentry⟩ := checkEntry_returns hd (find?_declareVars hs hnodup hv)
  refine ⟨results, ?_⟩
  rw [checkBodies, hvars, hfunctions]
  simp only [bind, StateT.bind, hchecked, Except.bind, List.any_cons, hd.name_eq, beq_self_eq_true,
    Bool.true_or, Bool.not_true, Bool.false_eq_true, if_false, checkFunctions, if_true, hentry]
  rfl

/-! ## The run -/

namespace Setting

/-- **The entry function returns what the variable holds**, in two steps. -/
theorem apply_returns (s : Setting) {d : FunctionDecl} {name : String} (hd : d.Returns name)
    (hdepth : 0 < s.config.maxDepth) (hsteps : ∀ n, s.config.maxSteps = some n → 2 ≤ n)
    {m : Machine} (hm : m.steps = 0) {v : Value} (hv : m.globals.get? name = some v) :
    ∃ m', s.apply s.enterTop (.closure d.closure) [] m = .ok v m' := by
  obtain ⟨entry, params, result, body, span⟩ := d
  obtain ⟨-, rfl, -, t, u, w, rfl⟩ := hd
  obtain ⟨depth, hmax⟩ := Nat.exists_eq_add_one.mpr hdepth
  -- one step for the call and one for its only statement, both within the limit
  have hfirst := s.tick_eq (m := m) (fun n hn => by have := hsteps n hn; omega)
    (by simp [hm, clockInterval])
  have hsecond := s.tick_eq (m := { m with steps := m.steps + 1 })
    (fun n hn => by have := hsteps n hn; simp only [hm]; omega) (by simp [hm, clockInterval])
  have hlookup : Run.lookup (Scoped.push .empty) name { m with steps := m.steps + 1 + 1 } =
      .ok v { m with steps := m.steps + 1 + 1 } := by
    simp only [Run.lookup, hv]
    rfl
  have hexec : s.exec (s.enter depth) (Scoped.push .empty) (.ret (some (.identifier name t)) u)
      { m with steps := m.steps + 1 } =
      .ok (Scoped.push .empty, .returns v) { m with steps := m.steps + 1 + 1 } := by
    rw [exec_ret, Run.bind_of_ok hsecond, evalOr, eval, Run.bind_of_ok hlookup]
    rfl
  have hbody : s.execAll (s.enter depth) (Scoped.push .empty)
      [.ret (some (.identifier name t)) u] { m with steps := m.steps + 1 } =
      .ok (.returns v) { m with steps := m.steps + 1 + 1 } := by
    rw [execAll_cons, Run.bind_of_ok hexec]
    rfl
  refine ⟨{ m with steps := m.steps + 1 + 1 }, ?_⟩
  rw [apply, Run.bind_of_ok hfirst]
  change s.enterTop _ _ _ = _
  rw [enterTop, hmax]
  change (s.execAll _ _ _ >>= _) _ = _
  rw [FunctionDecl.closure, Block.statements_mk, Run.bind_of_ok hbody]
  rfl

end Setting

/-! ## The whole way -/

/-- What is left of the value that an input is declared with: numbers without a source text are not
written. -/
def Variable.survivor (v : Variable) : Scalar :=
  match v.default with
  | none => v.type.zero
  | some (.float x) => if Decimal.isFinite x then .float x else .float 0
  | some value => value

/-- **Declarations whose formula returns an input.** They pass validation, what they import is there,
and their names are no reserved words, not taken twice, and not taken by an import or by the entry
function. -/
structure Registry.Returns (r : Registry) (v : Variable) : Prop where
  valid : r.validate = .ok ()
  oneLine : '\n' ∉ (trim r.name).toList
  paths : ∀ path ∈ r.imports, path ∈ Package.paths
  distinctImports : r.imports.Nodup
  distinctNames : (r.vars.map Variable.name).Nodup
  names : ∀ w ∈ r.vars, IsName w.name ∧ w.name ≠ defaultEntryPoint ∧
    ∀ i : ImportDecl, i.path ∈ r.imports → i.binding ≠ w.name
  helpers : r.helpers = []
  mem : v ∈ r.vars
  formula : r.formula = "return " ++ v.name

namespace Registry

/-- What an input holds at first is what is left of its value. -/
theorem startValue_eq {r : Registry} (h : r.validate = .ok ()) {v : Variable} (hv : v ∈ r.vars) :
    v.startValue = v.survivor := by
  have htype := type_initialValue h hv
  unfold Variable.startValue Variable.survivor
  unfold Variable.initialValue at htype ⊢
  -- without a value both are the zero of the type, and with one only a number can be left out
  cases hdefault : v.default with
  | none =>
    cases v.type <;> rfl
  | some value =>
    simp only [hdefault, Option.getD_some] at htype ⊢
    cases value with
    | float x =>
      rw [← htype]
      cases hx : Decimal.isFinite x <;> simp [Scalar.literal?, hx, Scalar.type, ScalarType.zero]
    | int n =>
      have : (Scalar.literal? (.int n)).isSome = true := by
        simp only [Scalar.literal?]
        split <;> rfl
      simp [this]
    | _ => rfl

/-- The program of declarations whose formula returns an input. -/
theorem exists_program {r : Registry} {v : Variable} (h : r.Returns v) :
    ∃ p vs d, (SourceFile.ofText 0 "" r.assemble).program = .ok p ∧
      p.imports.map ImportDecl.path = r.imports ∧ p.items = vs.map Item.var ++ [.function d] ∧
      List.Forall₂ (fun v d => VarDecl.Declares d v) r.vars vs ∧ d.Returns v.name := by
  obtain ⟨kinds, hwritten, hheader⟩ := exists_lines_header h.oneLine fun w hw => (h.names w hw).1
  have hpiece : r.piece = "func " ++ defaultEntryPoint ++ "() \x7b\n" ++
      trimLines ("return " ++ v.name) ++ "\n\x7d\n" := by
    simp [piece, h.helpers, h.formula, String.join]
  have hlines := hheader.append (lines_entry (h.names v h.mem).1)
  rw [← hpiece, ← String.toList_append, ← assemble_eq] at hlines
  obtain ⟨tokens, hscan, hkinds⟩ := @Lines.scan _ (SourceFile.ofText 0 "" r.assemble) hlines
  -- the tokens are those of the lines, and the mark of the end
  obtain ⟨c, hc, hcursor⟩ : ∃ c, Cursor.ofTokens? tokens = some c ∧ c.kinds =
      (r.imports.flatMap importKinds ++ r.vars.flatMap fun v => v.lineKinds (kinds v)) ++
        (entryKinds v.name ++ [.eof]) := by
    cases tokens with
    | nil => simp [entryKinds] at hkinds
    | cons t ts => exact ⟨⟨.nowhere, t, ts⟩, rfl, by rw [← List.append_assoc, ← hkinds]; rfl⟩
  obtain ⟨is, ds, c₁, his, hds, hc₁, hdeclarations⟩ :=
    declarations_of_header hwritten (by simp [entryKinds]) hcursor
  obtain ⟨d, c₂, hentry, hd⟩ := declarations_of_entryKinds hc₁.kinds_eq
  obtain ⟨decls, hpaths, himports⟩ := programOf_imports his (ds ++ [.item (.function d)])
  obtain ⟨vs, hvs, hitems⟩ := programOf_vars hds [.item (.function d)]
  refine ⟨⟨decls, vs.map Item.var ++ [.function d]⟩, vs, d, ?_, hpaths, rfl, hvs, hd⟩
  rw [SourceFile.program, hscan]
  simp only [Program.ofTokens, hc, hdeclarations, hentry, Except.map, List.append_assoc, himports,
    hitems]
  refine congrArg Except.ok ?_
  simp [programOf]

theorem binding_injOn : ∀ i j : ImportDecl, i.path ∈ Package.paths → j.path ∈ Package.paths →
    i.binding = j.binding → i.path = j.path := by
  have hpaths : ∀ p ∈ Package.paths, ∀ q ∈ Package.paths,
      lastSegment p.toList = lastSegment q.toList → p = q := by
    decide +kernel
  intro i j hi hj heq
  exact hpaths i.path hi j.path hj (String.ofList_injective heq)

/-- The names of the imported packages are all different. -/
theorem nodup_bindings {imports : List ImportDecl} (hpaths : ∀ i ∈ imports, i.path ∈ Package.paths)
    (hnodup : (imports.map ImportDecl.path).Nodup) : (imports.map ImportDecl.binding).Nodup := by
  rw [List.Nodup, List.pairwise_map] at hnodup ⊢
  exact hnodup.imp_of_mem fun hi hj hne heq =>
    hne (binding_injOn _ _ (hpaths _ hi) (hpaths _ hj) heq)

theorem map_name_of_declares {vars : List Variable} {vs : List VarDecl}
    (h : List.Forall₂ (fun v d => VarDecl.Declares d v) vars vs) :
    vs.map VarDecl.name = vars.map Variable.name := by
  induction h with
  | nil => rfl
  | cons hd _ ih => rw [List.map_cons, List.map_cons, hd.name, ih]

/-- The types of the program: the result has that of the input, and no integer becomes a
floating-point number. -/
theorem check_program {r : Registry} {v : Variable} (h : r.Returns v) {p : Program}
    {vs : List VarDecl} {d : FunctionDecl} (hpaths : p.imports.map ImportDecl.path = r.imports)
    (hitems : p.items = vs.map Item.var ++ [.function d])
    (hvs : List.Forall₂ (fun v d => VarDecl.Declares d v) r.vars vs) (hd : d.Returns v.name) :
    p.check defaultEntryPoint = .ok ⟨.ofScalar v.type, []⟩ := by
  have himported : ∀ i ∈ p.imports, i.path ∈ r.imports := fun i hi =>
    hpaths ▸ List.mem_map_of_mem hi
  have hknown : ∀ i ∈ p.imports, i.path ∈ Package.paths := fun i hi => h.paths _ (himported i hi)
  have hbindings := nodup_bindings hknown (hpaths ▸ h.distinctImports)
  -- no library is bound under the name of the entry function
  have hentry : ∀ i ∈ p.imports, i.binding ≠ defaultEntryPoint := by
    have hall : ∀ path ∈ Package.paths, lastSegment path.toList ≠ defaultEntryPoint.toList := by
      decide +kernel
    intro i hi heq
    exact hall i.path (hknown i hi) (by rw [← heq, ImportDecl.binding, String.toList_ofList])
  have hnames := map_name_of_declares hvs
  have hfree : ∀ w ∈ vs, w.name ∉ (p.imports.map ImportDecl.binding).reverse ++ [] ∧
      w.name ≠ defaultEntryPoint := by
    intro w hw
    have hmem : w.name ∈ r.vars.map Variable.name := hnames ▸ List.mem_map_of_mem hw
    obtain ⟨u, hu, heq⟩ := List.mem_map.mp hmem
    obtain ⟨-, hne, hnot⟩ := h.names u hu
    rw [← heq]
    refine ⟨fun hmem => ?_, hne⟩
    obtain ⟨i, hi, hbinding⟩ := List.mem_map.mp (by simpa using hmem)
    exact hnot i (himported i hi) hbinding
  have hentry' : defaultEntryPoint ∉ (p.imports.map ImportDecl.binding).reverse ++ [] := by
    simp only [List.append_nil, List.mem_reverse]
    intro hmem
    obtain ⟨i, hi, hbinding⟩ := List.mem_map.mp hmem
    exact hentry i hi hbinding
  -- declaring the libraries leaves the scopes they are declared in
  have hscopes : ∀ (imports : List ImportDecl) (s : Scoped Ty), s ≠ [] →
      imports.foldl (fun s i => s.declare i.binding (.package i.path)) s ≠ [] := by
    intro imports
    induction imports with
    | nil => exact fun _ hs => hs
    | cons i imports ih =>
      intro s hs
      exact ih _ (Scoped.declare_ne_nil hs i.binding (.package i.path))
  obtain ⟨results, hbodies⟩ := checkBodies_returns hitems hvs hd
    (fun w hw => type_initialValue h.valid hw) h.distinctNames h.mem
    (hscopes p.imports universeScopes (by simp [universeScopes, Scoped.push]))
  refine Program.check_of_stages (checkImports_eq universeScopes hknown hbindings (by simp)) ?_ hbodies
  rw [hitems]
  exact checkNames_eq hd.name_eq (hnames ▸ h.distinctNames) hfree hentry'

/-- A run of the program ends in what is left of the value of the input. -/
theorem run_program {r : Registry} {v : Variable} (h : r.Returns v) {p : Program}
    {vs : List VarDecl} {d : FunctionDecl} (hitems : p.items = vs.map Item.var ++ [.function d])
    (hvs : List.Forall₂ (fun v d => VarDecl.Declares d v) r.vars vs) (hd : d.Returns v.name)
    {config : Config} (hentry : config.entryPoint = defaultEntryPoint) (hdepth : 0 < config.maxDepth)
    (hsteps : ∀ n, config.maxSteps = some n → 2 ≤ n) (world : World) (fuel : Nat) (result : Ty) :
    Compilation.run ⟨p, ⟨result, []⟩⟩ config world [] fuel = .value (.scalar v.survivor) := by
  obtain ⟨hvars, hfunctions⟩ := vars_of_items hitems
  obtain ⟨s, hs⟩ : ∃ s : Setting, s = ⟨⟨result, []⟩, config, world, fuel⟩ := ⟨_, rfl⟩
  obtain ⟨m, hm⟩ : ∃ m : Machine, m = ⟨#[], p.initialGlobals, 0, 0⟩ := ⟨_, rfl⟩
  have hinit := s.initVars_of_declares hvs (fun _ _ _ _ _ _ => by subst hs; rfl) [] m
  rw [List.append_nil, ← hvars, hm] at hinit
  -- the entry function is bound before the variables are, and no input has its name
  have hglobals : p.initialGlobals.get? defaultEntryPoint = some (.closure d.closure) := by
    rw [Program.initialGlobals, hfunctions]
    simp only [List.foldl_cons, List.foldl_nil, hd.name_eq, Bindings.get?_set_self]
  have hfound : (setVars r.vars m).globals.get? s.config.entryPoint = some (.closure d.closure) := by
    rw [hs, hentry, get?_setVars_of_notMem fun w hw => (h.names w hw).2.1, hm]
    exact hglobals
  have hvalue := get?_setVars h.distinctNames h.mem m
  rw [startValue_eq h.valid h.mem] at hvalue
  have hzero : (setVars r.vars m).steps = 0 := by rw [steps_setVars, hm]
  obtain ⟨m', happly⟩ := s.apply_returns hd (hs ▸ hdepth) (hs ▸ hsteps) hzero hvalue
  have hexecute : s.execute p [] {} = .ok (.scalar v.survivor) m' := by
    rw [s.execute_of_ready (m := setVars r.vars m) (hm ▸ hinit) rfl, Setting.callEntry, hfound]
    exact happly
  rw [hs] at hexecute
  simp only [Compilation.run, EStateM.run, hexecute]

/-- **Declared values come through.** Declarations whose formula returns an input compile. The
program imports the declared packages in order, and has the inputs in order as its package-level
variables, each with its type. A run that puts no values in, and may take two steps and open one
call, ends in the value that the input was declared with: each integer, truth value and text, and
each finite number with all its bits. Where it was declared without a value, or with a number that is
not finite, the run ends in the zero of its type. -/
theorem declared_values_survive (r : Registry) (v : Variable) (h : r.Returns v) (config : Config)
    (hentry : config.entryPoint = defaultEntryPoint) (hdepth : 0 < config.maxDepth)
    (hsteps : ∀ n, config.maxSteps = some n → 2 ≤ n) (world : World) (fuel : Nat) :
    ∃ c, compileText r.assemble = .ok c ∧
      c.program.imports.map ImportDecl.path = r.imports ∧
      List.Forall₂ (fun w d => d.name = w.name ∧ ∃ e, d.type = some e ∧
        e.resolve = .ok (.ofScalar w.type)) r.vars c.program.vars ∧
      c.types.result = .ofScalar v.type ∧
      c.run config world [] fuel = .value (.scalar v.survivor) := by
  obtain ⟨p, vs, d, hprogram, hpaths, hitems, hvs, hd⟩ := exists_program h
  refine ⟨⟨p, ⟨.ofScalar v.type, []⟩⟩, ?_, hpaths, ?_, rfl,
    run_program h hitems hvs hd hentry hdepth hsteps world fuel _⟩
  · rw [compileText, SourceFile.compile, hprogram]
    simp only [check_program h hpaths hitems hvs hd]
  · rw [(vars_of_items hitems).1]
    refine hvs.imp fun w d hw => ⟨hw.name, ?_⟩
    obtain ⟨s, htype⟩ := hw.type
    exact ⟨_, htype, resolve_type w.type s⟩

/-- Declarations that return the least integer, beside a text that looks like source text. -/
def least : Registry where
  name := "limit"
  imports := ["math"]
  vars := [⟨"note", .string, some (.string "\"\\\n// var\x00")⟩,
    ⟨"limit", .int, some (.int Int64.minValue)⟩]
  formula := "return limit"

theorem declared_values_survive_least :
    least.Returns ⟨"limit", .int, some (.int Int64.minValue)⟩ ∧
      ∃ c, compileText least.assemble = .ok c ∧ c.types.result = .int ∧
        c.run {} .regular [] 0 = .value (.scalar (.int Int64.minValue)) := by
  have hreturns : least.Returns ⟨"limit", .int, some (.int Int64.minValue)⟩ := by
    refine ⟨by decide +kernel, by decide +kernel, by decide, by decide, by decide, ?_, rfl, ?_, rfl⟩
    · have hbinding : ∀ i : ImportDecl, i.path ∈ least.imports → i.binding = "math" := by
        intro i hi
        rw [ImportDecl.binding, List.mem_singleton.mp hi]
        rfl
      intro w hw
      simp only [least, List.mem_cons, List.not_mem_nil, or_false] at hw
      rcases hw with rfl | rfl
      · exact ⟨⟨by decide, by decide +kernel⟩, by decide, fun i hi => by rw [hbinding i hi]; decide⟩
      · exact ⟨⟨by decide, by decide +kernel⟩, by decide, fun i hi => by rw [hbinding i hi]; decide⟩
    · exact List.mem_cons_of_mem _ List.mem_cons_self
  obtain ⟨c, hcompile, -, -, hresult, hrun⟩ := declared_values_survive least _ hreturns {} rfl
    (by decide) (fun _ h => nomatch h) .regular 0
  exact ⟨hreturns, c, hcompile, hresult, hrun⟩

end Registry

end Formula
