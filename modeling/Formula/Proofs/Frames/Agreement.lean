import Formula.Proofs.Frames.Discipline

/-!
# Frames in the state are scopes that are passed down

A machine with frames does what a run does that passes the scopes down: it ends in the same way,
with the same value and the same variables. The scopes behind a statement are the frames that it
leaves, and how many calls may still be opened follows from how many are open.

## Main definitions

* `Stacked.Agrees`: a computation with frames does what another one does in given scopes.

## Main results

* `Stacked.agreeCases`, `Stacked.agrees_call`: expressions, statements and functions do the same.
* `Stacked.agrees_execute`: programs do the same.
-/

namespace Formula.Stacked

variable {α β γ δ : Type}

/-- **A computation with frames does what another one does**, started in the same scopes while so
many calls are open: both succeed, with results that are related, or both fail alike. -/
def Agrees (env : Env) (depth : Nat) (R : Env → α → β → Prop) (x : Stacked α) (y : Run β) : Prop :=
  ∀ k, k.env = env → k.depth = depth →
    match x k, y k.machine with
    | .ok a k', .ok b m => R k'.env a b ∧ k'.machine = m ∧ k'.depth = depth
    | .error e k', .error e' m => e' = e ∧ k'.machine = m
    | _, _ => False

/-- The same result, whatever the scopes are. -/
def SameResult (_ : Env) (a b : α) : Prop := b = a

/-- The same result, in the same scopes. -/
def SameIn (env env' : Env) (a b : α) : Prop := env' = env ∧ b = a

/-- The same end of a statement, with the scopes behind it. -/
def SameEnd (env' : Env) (flow : Flow) (r : Env × Flow) : Prop := r = (env', flow)

/-- The same end of a round, with the scopes of the next one if there is one. -/
def SameRound (env' : Env) (next : Option Flow) (r : Env ⊕ Flow) : Prop :=
  match next with
  | none => r = .inl env'
  | some flow => r = .inr flow

namespace Agrees

variable {env : Env} {depth limit : Nat} {R : Env → α → β → Prop} {R' : Env → γ → δ → Prop}
  {x : Stacked α} {y : Run β} {f : α → Stacked γ} {g : β → Run δ}

/-- The two end with results that are related, or both with the same failure. -/
theorem ends_alike (h : Agrees env depth R x y) {k : Stack} (henv : k.env = env)
    (hdepth : k.depth = depth) :
    (∃ a b k', x k = .ok a k' ∧ y k.machine = .ok b k'.machine ∧ R k'.env a b ∧ k'.depth = depth) ∨
      ∃ e k', x k = .error e k' ∧ y k.machine = .error e k'.machine := by
  have hk := h k henv hdepth
  cases hx : x k with
  | ok a k' =>
    cases hy : y k.machine with
    | ok b m =>
      rw [hx, hy] at hk
      obtain ⟨hab, rfl, hdepth'⟩ := hk
      exact .inl ⟨a, b, k', rfl, rfl, hab, hdepth'⟩
    | error e m =>
      rw [hx, hy] at hk
      exact hk.elim
  | error e k' =>
    cases hy : y k.machine with
    | ok b m =>
      rw [hx, hy] at hk
      exact hk.elim
    | error e' m =>
      rw [hx, hy] at hk
      obtain ⟨rfl, rfl⟩ := hk
      exact .inr ⟨e', k', rfl, rfl⟩

theorem pure {a : α} {b : β} (h : R env a b) : Agrees env depth R (pure a) (pure b) := by
  rintro k rfl rfl
  exact ⟨h, rfl, rfl⟩

theorem throw (e : Stop) : Agrees env depth R (throw e) (throw e) :=
  fun _ _ _ => ⟨rfl, rfl⟩

theorem bind (h : Agrees env depth R x y)
    (hf : ∀ env' a b, R env' a b → Agrees env' depth R' (f a) (g b)) :
    Agrees env depth R' (x >>= f) (y >>= g) := by
  intro k henv hdepth
  simp only [Bind.bind, EStateM.bind]
  obtain ⟨a, b, k', hx, hy, hab, hdepth'⟩ | ⟨e, k', hx, hy⟩ := h.ends_alike henv hdepth
  · -- What comes second starts in the scopes and with the machine that the first one left.
    rw [hx, hy]
    exact hf k'.env a b hab k' rfl hdepth'
  · rw [hx, hy]
    exact ⟨rfl, rfl⟩

/-- What comes behind a computation that leaves the scopes. -/
theorem bind_same {y : Run α} {g : α → Run δ} (h : Agrees env depth (SameIn env) x y)
    (hf : ∀ a, Agrees env depth R' (f a) (g a)) : Agrees env depth R' (x >>= f) (y >>= g) := by
  refine bind h ?_
  rintro _ a _ ⟨rfl, rfl⟩
  exact hf _

/-- Where one fails, the other one fails, whatever would come behind. -/
theorem bind_fail {e : RunError} (h : Agrees env depth R x (Run.fail e)) :
    Agrees env depth R' (x >>= f) (Run.fail e) := by
  intro k henv hdepth
  simp only [Bind.bind, EStateM.bind]
  obtain ⟨a, b, k', -, hy, -⟩ | ⟨e', k', hx, hy⟩ := h.ends_alike henv hdepth
  · cases hy
  · obtain ⟨rfl, hmachine⟩ := EStateM.Result.error.inj hy
    rw [hx]
    exact ⟨rfl, hmachine.symm⟩

/-- What leaves the scopes is the end of a statement behind which they are the same. -/
theorem ends {x : Stacked Flow} {y : Run Flow} (h : Agrees env depth (SameIn env) x y) :
    Agrees env depth SameEnd x (y >>= fun flow => Pure.pure (env, flow)) := by
  rw [← bind_pure x]
  exact bind_same h fun _ => pure rfl

theorem ite {c : Prop} [Decidable c] {x' : Stacked α} {y' : Run β} (h : Agrees env depth R x y)
    (h' : Agrees env depth R x' y') :
    Agrees env depth R (if c then x else x') (if c then y else y') := by
  split
  · exact h
  · exact h'

/-! ## The operations of the machine -/

theorem here (z : Env → Run α) : Agrees env depth (SameIn env) (here z) (z env) := by
  rintro k rfl rfl
  unfold Stacked.here
  cases z k.env k.machine with
  | ok a m => exact ⟨⟨rfl, rfl⟩, rfl, rfl⟩
  | error e m => exact ⟨rfl, rfl⟩

theorem lift (z : Run α) : Agrees env depth (SameIn env) (lift z) z :=
  here fun _ => z

theorem declare (name : String) (v : Value) :
    Agrees env depth (fun env' _ b => b = env') (declare name v) (Run.declare env name v) := by
  rintro k rfl rfl
  exact ⟨rfl, rfl, rfl⟩

theorem condition {value : Stacked Value} {value' : Run Value}
    (h : Agrees env depth (SameIn env) value value') :
    Agrees env depth (SameIn env) (condition value) (Run.condition value') := by
  have hparts : Run.condition value' = value' >>= fun v => Run.condition (Pure.pure v) := by
    simp only [Run.condition, pure_bind]
  rw [hparts]
  exact bind_same h fun v => lift _

/-- The scopes that were open are there again, since no more was closed than was opened. -/
theorem inScope {y : Run α} (h : Agrees env.push depth SameResult x y) (hx : Grows limit x) :
    Agrees env depth (SameIn env) (inScope x) y := by
  rintro k rfl rfl
  have hkept := hx { k with env := k.env.push }
  simp only [Stacked.inScope, behind]
  obtain ⟨a, b, k', hrun, hy, hab, hdepth⟩ | ⟨e, k', hrun, hy⟩ :=
    h.ends_alike (k := { k with env := k.env.push }) rfl rfl
  · rw [hrun] at hkept
    rw [hrun, hy]
    exact ⟨⟨hkept.below, hab⟩, rfl, hdepth⟩
  · rw [hrun, hy]
    exact ⟨rfl, rfl⟩

/-- A call that may still be opened. -/
theorem opened {binding : Run Env} {y : Env → Run α} (hdepth : depth < limit)
    (h : ∀ inner, Agrees inner (depth + 1) SameResult x (y inner)) :
    Agrees env depth (SameIn env) (opened limit binding x) (binding >>= y) := by
  have hcalled (inner : Env) : Agrees env depth (SameIn env) (called inner x) (y inner) := by
    rintro k rfl rfl
    -- The scopes of the caller come back from where they were put aside, whatever is left open.
    simp only [called, behind]
    obtain ⟨a, b, k', hrun, hy, hab, hinner⟩ | ⟨e, k', hrun, hy⟩ :=
      (h inner).ends_alike (k := { k with
        env := inner, depth := k.depth + 1, deepest := max k.deepest (k.depth + 1) }) rfl rfl
    · rw [hrun, hy]
      exact ⟨⟨rfl, hab⟩, rfl, by simp [hinner]⟩
    · rw [hrun, hy]
      exact ⟨rfl, rfl⟩
  intro k henv hk
  have hopen : Stacked.opened limit binding x k =
      (Stacked.lift binding >>= fun inner => called inner x) k := by
    have hnot : ¬limit ≤ k.depth := hk ▸ Nat.not_le_of_lt hdepth
    rw [Stacked.opened_apply, if_neg hnot]
  rw [hopen]
  exact bind_same (lift binding) hcalled k henv hk

/-- A call that may not be opened any more. -/
theorem opened_fail {binding : Run Env} (hdepth : limit ≤ depth) :
    Agrees env depth (SameIn env) (Stacked.opened limit binding x) (Run.fail (.callDepth limit)) := by
  intro k henv hk
  have hfail : Stacked.opened limit binding x k =
      Stacked.lift (Run.fail (.callDepth limit) : Run α) k := by
    have hle : limit ≤ k.depth := hk ▸ hdepth
    rw [Stacked.opened_apply, if_pos hle]
  rw [hfail]
  exact lift (Run.fail (.callDepth limit) : Run α) k henv hk

/-- A loop goes through the same rounds; scopes are handed from each to the next. -/
theorem iterate {step : Stacked (Option Flow)} {step' : Env → Run (Env ⊕ Flow)}
    (h : ∀ env, Agrees env depth SameRound step (step' env)) (n : Nat) (env : Env) :
    Agrees env depth SameResult (iterate step n) (Formula.iterate step' n env) := by
  induction n generalizing env with
  | zero => exact throw _
  | succ n ih =>
    refine bind (h env) ?_
    rintro env' next r hr
    cases next with
    | none =>
      cases hr
      exact ih env'
    | some flow =>
      cases hr
      exact pure rfl

end Agrees

/-! ## Expressions, statements and blocks -/

section Forms

variable {s : Setting} {enter : StackedEntry} {enter' : Entry} {env : Env} {depth limit : Nat}

/-- Functions are run alike, in whichever scopes they are called. -/
def EntryAgrees (depth : Nat) (enter : StackedEntry) (enter' : Entry) : Prop :=
  ∀ env c args, Agrees env depth (SameIn env) (enter c args) (enter' c args)

theorem agrees_apply (henter : EntryAgrees depth enter enter') (callee : Value) (args : List Value) :
    Agrees env depth (SameIn env) (apply s enter callee args) (s.apply enter' callee args) := by
  cases callee with
  | closure c =>
    refine .bind_same (.lift _) fun _ => .ite ?_ ?_
    · exact henter env c args
    · exact .lift _
  | _ => exact .lift _

theorem agrees_evalOr {value : Option Expr}
    (h : ∀ e ∈ value, Agrees env depth (SameIn env) (eval s enter e) (s.eval enter' env e))
    (other : Run Value) :
    Agrees env depth (SameIn env) (evalOr s enter other value) (s.evalOr enter' env other value) := by
  cases value with
  | none => exact .lift _
  | some e => exact h e rfl

theorem agrees_holds {test : Option Expr}
    (h : ∀ c ∈ test, Agrees env depth (SameIn env) (eval s enter c) (s.eval enter' env c)) :
    Agrees env depth (SameIn env) (holds s enter test) (s.holds enter' env test) := by
  cases test with
  | none => exact .pure ⟨rfl, rfl⟩
  | some c => exact .condition (h c rfl)

theorem agrees_execIn {statement : Option Stmt}
    (h : ∀ i ∈ statement, Agrees env depth SameEnd (exec s enter i) (s.exec enter' env i)) :
    Agrees env depth (fun env' _ b => b = env') (execIn s enter statement)
      (s.execIn enter' env statement) := by
  cases statement with
  | none => exact .pure rfl
  | some i =>
    rw [execIn, Setting.execIn, map_eq_pure_bind]
    refine .bind (h i rfl) ?_
    rintro env' flow _ rfl
    exact .pure rfl

theorem agrees_block {b : Block} (hgrows : Grows limit (execAll s enter b.statements))
    (h : ∀ env, Agrees env depth SameResult (execAll s enter b.statements)
      (s.execAll enter' env b.statements)) :
    Agrees env depth (SameIn env) (block s enter b) (s.execAll enter' env.push b.statements) :=
  .inScope (h env.push) hgrows

theorem agrees_round {test : Option Expr} {post : Option Stmt} {body : Block}
    (htest : ∀ c ∈ test, ∀ env, Agrees env depth (SameIn env) (eval s enter c) (s.eval enter' env c))
    (hpost : ∀ p ∈ post, ∀ env, Agrees env depth SameEnd (exec s enter p) (s.exec enter' env p))
    (hgrows : Grows limit (execAll s enter body.statements))
    (hbody : ∀ env, Agrees env depth SameResult (execAll s enter body.statements)
      (s.execAll enter' env body.statements)) :
    Agrees env depth SameRound (round s enter test post body)
      (s.round enter' env test post body.statements) := by
  refine .bind_same (.lift _) fun _ => ?_
  refine .bind_same (agrees_holds fun c hc => htest c hc env) fun goesOn => .ite ?_ ?_
  · refine .bind_same (agrees_block hgrows hbody) fun flow => ?_
    cases flow.leaves? with
    | some flow => exact .pure rfl
    | none =>
      refine .bind (agrees_execIn fun p hp => hpost p hp env) ?_
      rintro env' - _ rfl
      exact .pure rfl
  · exact .pure rfl

/-- A loop, with the scope around all of it. -/
theorem agrees_loop (hkeeps : ∀ c args, Restores limit (enter c args)) {init post : Option Stmt}
    {test : Option Expr} {statements : List Stmt} (bodySpan span : Span)
    (hinit : ∀ i ∈ init, ∀ env, Agrees env depth SameEnd (exec s enter i) (s.exec enter' env i))
    (htest : ∀ c ∈ test, ∀ env, Agrees env depth (SameIn env) (eval s enter c) (s.eval enter' env c))
    (hpost : ∀ p ∈ post, ∀ env, Agrees env depth SameEnd (exec s enter p) (s.exec enter' env p))
    (hbody : ∀ env, Agrees env depth SameResult (execAll s enter statements)
      (s.execAll enter' env statements)) (env : Env) :
    Agrees env depth SameEnd (exec s enter (.loop init test post (.mk statements bodySpan) span))
      (s.exec enter' env (.loop init test post (.mk statements bodySpan) span)) := by
  have hcases := keepCases (s := s) hkeeps
  have hround (env : Env) : Agrees env depth SameRound
      (round s enter test post (.mk statements bodySpan)) (s.round enter' env test post statements) :=
    agrees_round htest hpost (hcases.ofStmts _) hbody
  have hgrows : Grows limit (do
      execIn s enter init
      iterate (round s enter test post (.mk statements bodySpan)) s.fuel) := by
    refine .bind_grows (grows_execIn fun i _ => hcases.ofStmt i) fun _ => grows_iterate ?_ _
    exact grows_round (fun c _ => hcases.ofExpr c) (fun p _ => hcases.ofStmt p) (hcases.ofStmts _)
  have hloop : Agrees env.push depth SameResult (do
      execIn s enter init
      iterate (round s enter test post (.mk statements bodySpan)) s.fuel) (do
      let start ← s.execIn enter' env.push init
      Formula.iterate (fun inner => s.round enter' inner test post statements) s.fuel start) := by
    refine .bind (agrees_execIn fun i hi => hinit i hi env.push) ?_
    rintro env' - _ rfl
    exact .iterate hround _ _
  -- Both open a scope around the whole loop, but one hands it on and the other leaves it open.
  have hends := (hloop.inScope hgrows).ends
  rw [bind_assoc] at hends
  rw [exec_loop, Setting.exec_loop]
  exact .bind_same (.lift _) fun _ => hends

/-- **Expressions and statements do the same**, if the functions that they call do. -/
theorem agreeCases (henter : EntryAgrees depth enter enter')
    (hkeeps : ∀ c args, Restores limit (enter c args)) :
    SyntaxCases
      (fun e => ∀ env, Agrees env depth (SameIn env) (eval s enter e) (s.eval enter' env e))
      (fun es => ∀ env, Agrees env depth (SameIn env) (evalAll s enter es) (s.evalAll enter' env es))
      (fun st => ∀ env, Agrees env depth SameEnd (exec s enter st) (s.exec enter' env st))
      fun ss => ∀ env, Agrees env depth SameResult (execAll s enter ss) (s.execAll enter' env ss) where
  literal value span env := by
    rw [eval, Setting.eval]
    exact .pure ⟨rfl, rfl⟩
  identifier name span env := by
    rw [eval, Setting.eval]
    exact .here _
  binary op left right span hl hr env := by
    -- the right operand of these two may not be reached
    by_cases hand : op = .and
    · subst hand
      rw [eval, Setting.eval_and]
      refine .bind_same (.condition (hl env)) fun _ => .ite ?_ (.pure ⟨rfl, rfl⟩)
      exact .bind_same (.condition (hr env)) fun _ => .pure ⟨rfl, rfl⟩
    by_cases hor : op = .or
    · subst hor
      rw [eval, Setting.eval_or]
      refine .bind_same (.condition (hl env)) fun _ => .ite (.pure ⟨rfl, rfl⟩) ?_
      exact .bind_same (.condition (hr env)) fun _ => .pure ⟨rfl, rfl⟩
    rw [eval_binary s enter hand hor, s.eval_binary enter' env hand hor]
    refine .bind_same (hl env) fun _ => .bind_same (hr env) fun _ => ?_
    exact .bind_same (.lift _) fun _ => .pure ⟨rfl, rfl⟩
  unary op operand span ho env := by
    rw [eval, Setting.eval]
    exact .bind_same (ho env) fun _ => .lift _
  call function arguments span hf ha env := by
    rw [eval, Setting.eval]
    refine .bind_same (hf env) fun _ => .bind_same (ha env) fun _ => ?_
    exact agrees_apply henter _ _
  selector target member span env := by
    rw [eval, Setting.eval]
    exact .bind_same (.here _) fun _ => .lift _
  function params result statements bodySpan span _ env := by
    rw [eval, Setting.eval]
    exact .here _
  noArguments env := by
    rw [evalAll, Setting.evalAll]
    exact .pure ⟨rfl, rfl⟩
  argument e es he hes env := by
    rw [evalAll, Setting.evalAll]
    exact .bind_same (he env) fun _ => .bind_same (hes env) fun _ => .pure ⟨rfl, rfl⟩
  define name value span hv env := by
    rw [exec, Setting.exec]
    refine .bind_same (.lift _) fun _ => .bind_same (hv env) fun v => .bind (.declare name v) ?_
    rintro env' - _ rfl
    exact .pure rfl
  var name type value span hv env := by
    rw [exec_var, Setting.exec_var]
    refine .bind_same (.lift _) fun _ => .bind_same (agrees_evalOr (fun e he => hv e he env) _)
      fun v => .bind (.declare name v) ?_
    rintro env' - _ rfl
    exact .pure rfl
  assign target op value span hv env := by
    rw [exec, Setting.exec]
    refine .bind_same (.lift _) fun _ => .bind_same (hv env) fun v => ?_
    cases op with
    | none =>
      refine .bind_same (.pure ⟨rfl, rfl⟩) fun _ => ?_
      exact .bind_same (.here fun env => Run.store env target _) fun _ => .pure rfl
    | some op =>
      refine .bind_same (.here fun env => Run.lookup env target) fun _ => ?_
      refine .bind_same (.lift _) fun _ => ?_
      exact .bind_same (.here fun env => Run.store env target _) fun _ => .pure rfl
  increment target up span env := by
    rw [exec, Setting.exec]
    refine .bind_same (.lift _) fun _ => .bind_same (.here fun env => Run.lookup env target) fun _ => ?_
    refine .bind_same (.lift _) fun _ => ?_
    exact .bind_same (.here fun env => Run.store env target _) fun _ => .pure rfl
  expr value hv env := by
    rw [exec, Setting.exec]
    exact .bind_same (.lift _) fun _ => .bind_same (hv env) fun _ => .pure rfl
  ret value span hv env := by
    rw [exec_ret, Setting.exec_ret]
    refine .bind_same (.lift _) fun _ => ?_
    exact .bind_same (agrees_evalOr (fun e he => hv e he env) _) fun _ => .pure rfl
  breakLoop span env := by
    rw [exec, Setting.exec]
    exact .bind_same (.lift _) fun _ => .pure rfl
  continueLoop span env := by
    rw [exec, Setting.exec]
    exact .bind_same (.lift _) fun _ => .pure rfl
  cond condition thenStatements thenSpan elseBlock span hc ht he env := by
    -- the statements of a block leave the frames below it as they were
    have hgrows := (keepCases (s := s) hkeeps).ofStmts
    rw [exec_cond, Setting.exec_cond]
    refine .bind_same (.lift _) fun _ => .ends ?_
    refine .bind_same (.condition (hc env)) fun _ => .ite ?_ ?_
    · exact agrees_block (b := .mk thenStatements thenSpan) (hgrows _) ht
    · cases elseBlock with
      | none => exact .pure ⟨rfl, rfl⟩
      | some b => exact agrees_block (hgrows _) (he b rfl)
  loop _ _ _ _ bodySpan span hi hc hp hs env := agrees_loop hkeeps bodySpan span hi hc hp hs env
  block statements span hs env := by
    rw [exec, Setting.exec]
    have hgrows := (keepCases (s := s) hkeeps).ofStmts statements
    exact .bind_same (.lift _) fun _ => .ends (.inScope (hs env.push) hgrows)
  noStatements env := by
    rw [execAll, Setting.execAll]
    exact .pure rfl
  statement st ss hst hss env := by
    rw [execAll_cons, Setting.execAll_cons]
    refine .bind (hst env) ?_
    rintro env' flow _ rfl
    cases flow with
    | normal => exact hss env'
    | breaks | continues | returns _ => exact .pure rfl

end Forms

/-! ## Functions -/

/-- **Functions do the same**: as many calls may still be opened as the limit allows. -/
theorem agrees_call (s : Setting) {left depth : Nat} (h : depth + left = s.config.maxDepth) :
    EntryAgrees depth (call s (left + 1)) (s.enter left) := by
  induction left generalizing depth with
  | zero =>
    intro env c args
    -- As many calls are open as may be, so both refuse this one.
    rw [Setting.enter]
    exact .bind_fail (.opened_fail (Nat.le_of_eq h.symm))
  | succ left ih =>
    intro env c args
    have hdeeper : EntryAgrees (depth + 1) (call s (left + 1)) (s.enter left) := ih (by omega)
    have hinner := agreeCases (s := s) hdeeper (restores_call s _)
    rw [Setting.enter, ← bind_assoc]
    refine .bind_same (.opened (by omega) fun inner => hinner.ofStmts _ inner) fun flow => ?_
    cases flow with
    | normal | breaks | continues | returns _ => exact .pure ⟨rfl, rfl⟩

/-! ## Programs -/

theorem agrees_callTop (s : Setting) : EntryAgrees 0 (callTop s) s.enterTop :=
  agrees_call s (Nat.zero_add _)

theorem agrees_initVars (s : Setting) (vars : List VarDecl) :
    Agrees .empty 0 (SameIn .empty) (initVars s vars) (s.initVars vars) := by
  induction vars with
  | nil => exact .pure ⟨rfl, rfl⟩
  | cons d vars ih =>
    have hcases := agreeCases (s := s) (agrees_callTop s) (restores_call s _)
    rw [initVars, Setting.initVars_cons]
    refine .bind_same (agrees_evalOr (fun e _ => hcases.ofExpr e .empty) _) fun v => ?_
    exact .bind_same (.lift _) fun _ => ih

theorem agrees_callEntry (s : Setting) (env : Env) :
    Agrees env 0 (SameIn env) (callEntry s) s.callEntry := by
  intro k henv hdepth
  unfold callEntry Setting.callEntry
  cases k.machine.globals.get? s.config.entryPoint with
  | some entry => exact agrees_apply (agrees_callTop s) entry [] k henv hdepth
  | none =>
    exact Agrees.lift (Run.fail (.noEntryPoint s.config.entryPoint) : Run Value) k henv hdepth

/-- **A program does the same** on a machine with frames, from one empty frame on. -/
theorem agrees_execute (s : Setting) (p : Program) (bindings : List (String × Scalar)) :
    Agrees .empty 0 (SameIn .empty) (execute s p bindings) (s.execute p bindings) := by
  unfold execute Setting.execute
  refine .bind_same (.lift _) fun _ => .bind_same (agrees_initVars s p.vars) fun _ => ?_
  exact .bind_same (.lift _) fun _ => agrees_callEntry s .empty

/-- A run of a program ends as it does on a machine with frames. -/
theorem run_eq_outcome (c : Compilation) (config : Config) (world : World)
    (bindings : List (String × Scalar)) (fuel : Nat) :
    c.run config world bindings fuel = (c.stacked config world bindings fuel).outcome {} := by
  have hagrees := agrees_execute ⟨c.types, config, world, fuel⟩ c.program bindings
  simp only [Compilation.run, Compilation.stacked, outcome, EStateM.run]
  obtain ⟨v, w, k, hx, hy, ⟨-, rfl⟩, -⟩ | ⟨e, k, hx, hy⟩ := hagrees.ends_alike (k := {}) rfl rfl
  · rw [hx, hy]
  · rw [hx, hy]
    cases e <;> rfl

end Formula.Stacked
