import Formula.Proofs.Frames.Stacked
import Formula.Proofs.Program.Induction

/-!
# What is opened is closed

Whatever a machine with frames runs, and however that ends, the frames behind it are those before
it. Only a statement that declares a name has an effect on them: the name is added to the innermost
frame. As many calls are open as before, and there were never more than may be.

## Main definitions

* `Stmt.declared?`: the name that a statement declares.
* `Stack.Kept`: the frames are there again, but for names in the innermost one.
* `Stacked.Keeps`, `Stacked.Restores`, `Stacked.Grows`: what a computation leaves of the frames.

## Main results

* `Stacked.restores_inScope`, `Stacked.restores_opened`: what is opened is closed.
* `Stacked.keepCases`: expressions, statements and blocks keep the frames.
* `Stacked.restores_call`: functions do, however deep the calls in them are.
-/

namespace Formula

/-- The name that a statement declares in the scope that it stands in. -/
def Stmt.declared? : Stmt → Option String
  | .define name _ _ | .var name _ _ _ => some name
  | _ => none

/-- **The frames of a stack are there again**: as many frames and open calls as before, the frames
below the innermost one as they were, and in that one other meanings at most of the given names. No
more calls were open in between than before or than the limit allows. -/
structure Stack.Kept (names : String → Prop) (limit : Nat) (k k' : Stack) : Prop where
  frames : k'.env.length = k.env.length
  below : k'.env.tail = k.env.tail
  top : ∀ name, ¬names name → (k'.env.headD []).get? name = (k.env.headD []).get? name
  same : (∀ name, ¬names name) → k'.env = k.env
  depth : k'.depth = k.depth
  deepest : k'.deepest ≤ max k.deepest limit

/-- No name at all. -/
def noName (_ : String) : Prop := False

/-- Any name. -/
def anyName (_ : String) : Prop := True

namespace Stack.Kept

variable {names names' : String → Prop} {limit : Nat} {k k' k'' : Stack}

theorem refl (names : String → Prop) (limit : Nat) (k : Stack) : k.Kept names limit k :=
  ⟨rfl, rfl, fun _ _ => rfl, fun _ => rfl, rfl, Nat.le_max_left ..⟩

theorem trans (h : k.Kept names limit k') (h' : k'.Kept names limit k'') :
    k.Kept names limit k'' where
  frames := h'.frames.trans h.frames
  below := h'.below.trans h.below
  top name hname := (h'.top name hname).trans (h.top name hname)
  same hnames := (h'.same hnames).trans (h.same hnames)
  depth := h'.depth.trans h.depth
  deepest := by
    have := h.deepest
    have := h'.deepest
    omega

theorem mono (h : k.Kept names limit k') (hnames : ∀ name, names name → names' name) :
    k.Kept names' limit k' where
  frames := h.frames
  below := h.below
  top name hname := h.top name fun hn => hname (hnames name hn)
  same hall := h.same fun name hn => hall name (hnames name hn)
  depth := h.depth
  deepest := h.deepest

theorem env_eq (h : k.Kept noName limit k') : k'.env = k.env :=
  h.same fun _ => id

end Stack.Kept

namespace Stacked

variable {α β : Type}

/-- **What a computation leaves of the frames**: other meanings of some names in the innermost frame
if it succeeds, and of some others if it fails. -/
def Keeps (names failing : String → Prop) (limit : Nat) (x : Stacked α) : Prop :=
  ∀ k, match x k with
    | .ok _ k' => k.Kept names limit k'
    | .error _ k' => k.Kept failing limit k'

/-- A computation leaves the frames as they were. -/
abbrev Restores (limit : Nat) (x : Stacked α) : Prop :=
  Keeps noName noName limit x

/-- A computation leaves all frames but the innermost one as they were. -/
abbrev Grows (limit : Nat) (x : Stacked α) : Prop :=
  Keeps anyName anyName limit x

variable {names names' failing failing' : String → Prop} {limit : Nat} {x y : Stacked α}
  {f : α → Stacked β}

namespace Keeps

theorem mono (h : Keeps names failing limit x) (hnames : ∀ name, names name → names' name)
    (hfailing : ∀ name, failing name → failing' name) : Keeps names' failing' limit x := by
  intro k
  have hk := h k
  cases hx : x k with
  | ok a k' =>
    rw [hx] at hk
    exact hk.mono hnames
  | error e k' =>
    rw [hx] at hk
    exact hk.mono hfailing

theorem grows (h : Keeps names failing limit x) : Grows limit x :=
  h.mono (fun _ _ => trivial) fun _ _ => trivial

theorem of_restores (h : Restores limit x) : Keeps names failing limit x :=
  h.mono (fun _ => False.elim) fun _ => False.elim

/-- The frames behind a computation, however it ends. -/
theorem kept_after (h : Keeps names failing limit x) (hfailing : ∀ name, failing name → names name)
    (k : Stack) : k.Kept names limit (x.after k) := by
  have hk := h k
  unfold after
  cases hx : x k with
  | ok a k' =>
    rw [hx] at hk
    exact hk
  | error e k' =>
    rw [hx] at hk
    exact hk.mono hfailing

/-- To leave the frames is to leave those behind which there is a run, however it ends. -/
theorem restores_of_after (h : ∀ k : Stack, k.Kept noName limit (x.after k)) : Restores limit x := by
  intro k
  have hk := h k
  unfold after at hk
  cases hx : x k <;>
    · rw [hx] at hk
      exact hk

theorem pure (a : α) : Keeps names failing limit (pure a : Stacked α) :=
  fun k => .refl _ _ k

theorem throw (e : Stop) : Keeps names failing limit (throw e : Stacked α) :=
  fun k => .refl _ _ k

/-- What comes second may change as much as both may; what comes first may also have been done where
the second one fails. -/
theorem bind_of_le (h : Keeps names failing limit x) (hf : ∀ a, Keeps names' failing limit (f a))
    (hle : ∀ name, names name → names' name) (hfailing : ∀ name, names name → failing name) :
    Keeps names' failing limit (x >>= f) := by
  intro k
  have hk := h k
  simp only [Bind.bind, EStateM.bind]
  cases hx : x k with
  | error e k' =>
    rw [hx] at hk
    exact hk
  | ok a k' =>
    rw [hx] at hk
    have hk' := hf a k'
    -- Also where the second one fails, what the first one has declared is still there.
    dsimp only
    cases hy : f a k' with
    | ok b k'' =>
      rw [hy] at hk'
      exact (hk.mono hle).trans hk'
    | error e k'' =>
      rw [hy] at hk'
      exact (hk.mono hfailing).trans hk'

/-- A computation that leaves the frames comes first. -/
theorem bind (h : Restores limit x) (hf : ∀ a, Keeps names failing limit (f a)) :
    Keeps names failing limit (x >>= f) := by
  have hx : Keeps noName failing limit x := h.mono (fun _ => id) fun _ => False.elim
  exact bind_of_le hx hf (fun _ => False.elim) fun _ => False.elim

theorem bind_grows (h : Grows limit x) (hf : ∀ a, Grows limit (f a)) : Grows limit (x >>= f) :=
  bind_of_le h hf (fun _ => id) fun _ => id

/-- What comes second does nothing but give a result. -/
theorem bind_pure (h : Keeps names failing limit x) (g : α → β) :
    Keeps names failing limit (x >>= fun a => Pure.pure (g a)) := by
  intro k
  have hk := h k
  simp only [Bind.bind, EStateM.bind]
  cases hx : x k <;>
    · rw [hx] at hk
      exact hk

theorem ite {c : Prop} [Decidable c] (hx : Keeps names failing limit x)
    (hy : Keeps names failing limit y) : Keeps names failing limit (if c then x else y) := by
  split
  · exact hx
  · exact hy

end Keeps

/-! ## The operations of the machine -/

theorem restores_here (y : Env → Run α) : Restores limit (here y) := by
  intro k
  unfold here
  cases y k.env k.machine <;> exact ⟨rfl, rfl, fun _ _ => rfl, fun _ => rfl, rfl, Nat.le_max_left ..⟩

theorem restores_lift (y : Run α) : Restores limit (lift y) :=
  restores_here _

/-- A declaration adds one name to the innermost frame. -/
theorem keeps_declare (name : String) (v : Value) :
    Keeps (some name = some ·) noName limit (declare name v) := by
  rintro ⟨m, env, depth, deepest⟩
  refine ⟨Scoped.length_declare .., ?_, ?_, fun h => absurd rfl (h name), rfl, Nat.le_max_left ..⟩
  · cases env <;> rfl
  · intro other hother
    cases env with
    | nil => rfl
    | cons top below =>
      have hne : name ≠ other := fun heq => hother (congrArg some heq)
      -- A name that was in the frame before gets a new cell, but all others keep theirs.
      exact (Bindings.get?_set top name other m.cells.size).trans (if_neg hne)

/-- The scope that is closed is the one that was opened, with all that was declared in it. -/
theorem restores_inScope (h : Grows limit x) : Restores limit (inScope x) := by
  refine .restores_of_after fun k => ?_
  have hk := h.kept_after (fun _ => id) { k with env := k.env.push }
  -- Whatever was declared is in the frame that goes, and below it nothing has changed.
  have henv : (x.after { k with env := k.env.push }).env.pop = k.env := hk.below
  rw [after_inScope]
  exact ⟨congrArg List.length henv, congrArg List.tail henv, fun name _ => by rw [henv],
    fun _ => henv, hk.depth, hk.deepest⟩

/-- A call that may still be opened leaves the scopes of the caller, and is closed. -/
theorem kept_called (h : Grows limit x) (env : Env) {k : Stack} (hdepth : k.depth < limit) :
    k.Kept noName limit ((called env x).after k) := by
  let inner : Stack := { k with env, depth := k.depth + 1, deepest := max k.deepest (k.depth + 1) }
  have hk := h.kept_after (fun _ => id) inner
  have hsame : (x.after inner).depth = k.depth + 1 := hk.depth
  have hdeepest : (x.after inner).deepest ≤ max (max k.deepest (k.depth + 1)) limit := hk.deepest
  rw [after_called env x k rfl]
  -- The frames of the caller were put aside, so those of the callee need not even be in order.
  refine ⟨rfl, rfl, fun _ _ => rfl, fun _ => rfl, ?_, ?_⟩
  · simp [inner, hsame]
  · show (x.after inner).deepest ≤ max k.deepest limit
    omega

theorem restores_opened (h : Grows limit x) (env : Run Env) : Restores limit (opened limit env x) := by
  refine .restores_of_after fun k => ?_
  by_cases hdepth : limit ≤ k.depth
  · -- No more calls may be opened, so none is to be closed.
    have hrefused : Restores limit (lift (Run.fail (.callDepth limit)) : Stacked α) :=
      restores_lift _
    rw [after, opened_apply, if_pos hdepth]
    exact hrefused.kept_after (fun _ => id) k
  · have hrestores : Restores limit (lift env) := restores_lift env
    have hlift := hrestores k
    rw [after, opened_apply, if_neg hdepth]
    simp only [bind, EStateM.bind]
    cases henv : lift env k with
    | error e k' =>
      rw [henv] at hlift
      exact hlift
    | ok scopes k' =>
      rw [henv] at hlift
      -- The parameters are bound before the call is opened, while as many are open as before.
      have hlt : k'.depth < limit := hlift.depth ▸ Nat.lt_of_not_le hdepth
      exact hlift.trans (kept_called h scopes hlt)

theorem restores_condition {value : Stacked Value} (h : Restores limit value) :
    Restores limit (condition value) :=
  h.bind fun _ => restores_lift _

/-- The frames below the innermost one stay through all rounds of a loop. -/
theorem grows_iterate {step : Stacked (Option Flow)} (h : Grows limit step) (n : Nat) :
    Grows limit (iterate step n) := by
  induction n with
  | zero => exact .throw _
  | succ n ih =>
    refine .bind_grows h fun next => ?_
    cases next with
    | none => exact ih
    | some flow => exact .pure flow

/-! ## Expressions, statements and blocks -/

section Forms

variable {s : Setting} {enter : StackedEntry}

theorem restores_apply (henter : ∀ c args, Restores limit (enter c args)) (callee : Value)
    (args : List Value) : Restores limit (apply s enter callee args) := by
  cases callee with
  | closure c =>
    refine .bind (restores_lift _) fun _ => .ite ?_ ?_
    · exact henter c args
    · exact restores_lift _
  | _ => exact restores_lift _

theorem restores_evalOr {value : Option Expr} (h : ∀ e ∈ value, Restores limit (eval s enter e))
    (other : Run Value) : Restores limit (evalOr s enter other value) := by
  cases value with
  | none => exact restores_lift _
  | some e => exact h e rfl

theorem restores_holds {test : Option Expr} (h : ∀ c ∈ test, Restores limit (eval s enter c)) :
    Restores limit (holds s enter test) := by
  cases test with
  | none => exact .pure true
  | some c => exact restores_condition (h c rfl)

theorem grows_execIn {statement : Option Stmt}
    (h : ∀ i ∈ statement, Keeps (i.declared? = some ·) noName limit (exec s enter i)) :
    Grows limit (execIn s enter statement) := by
  cases statement with
  | none => exact .pure ()
  | some i => exact .bind_grows (h i rfl).grows fun _ => .pure ()

theorem restores_execElse {elseBlock : Option Block}
    (h : ∀ b ∈ elseBlock, Grows limit (execAll s enter b.statements)) :
    Restores limit (execElse s enter elseBlock) := by
  cases elseBlock with
  | none => exact .pure Flow.normal
  | some b => exact restores_inScope (h b rfl)

theorem grows_round {test : Option Expr} {post : Option Stmt} {body : Block}
    (htest : ∀ c ∈ test, Restores limit (eval s enter c))
    (hpost : ∀ p ∈ post, Keeps (p.declared? = some ·) noName limit (exec s enter p))
    (hbody : Grows limit (execAll s enter body.statements)) :
    Grows limit (round s enter test post body) := by
  refine .bind (restores_lift _) fun _ => .bind (restores_holds htest) fun goesOn => .ite ?_ ?_
  · refine .bind (restores_inScope hbody) fun flow => ?_
    cases flow.leaves? with
    | some flow => exact .pure (some flow)
    | none => exact .bind_grows (grows_execIn hpost) fun _ => .pure none
  · exact .pure _

/-- **Expressions and blocks leave the frames, and statements add to them what they declare**, if
the functions that they call leave them. -/
theorem keepCases (henter : ∀ c args, Restores limit (enter c args)) :
    SyntaxCases (fun e => Restores limit (eval s enter e)) (fun es => Restores limit (evalAll s enter es))
      (fun st => Keeps (st.declared? = some ·) noName limit (exec s enter st))
      fun ss => Grows limit (execAll s enter ss) where
  literal value span := by
    rw [eval]
    exact .pure _
  identifier name span := by
    rw [eval]
    exact restores_here _
  binary op left right span hl hr := by
    by_cases hand : op = .and
    · subst hand
      rw [eval]
      refine .bind (restores_condition hl) fun _ => .ite ?_ (.pure _)
      exact .bind (restores_condition hr) fun _ => .pure _
    by_cases hor : op = .or
    · subst hor
      rw [eval]
      refine .bind (restores_condition hl) fun _ => .ite (.pure _) ?_
      exact .bind (restores_condition hr) fun _ => .pure _
    rw [eval_binary s enter hand hor]
    exact .bind hl fun _ => .bind hr fun _ => .bind (restores_lift _) fun _ => .pure _
  unary op operand span ho := by
    rw [eval]
    exact .bind ho fun _ => restores_lift _
  call function arguments span hf ha := by
    rw [eval]
    exact .bind hf fun _ => .bind ha fun _ => restores_apply henter _ _
  selector target member span := by
    rw [eval]
    exact .bind (restores_here _) fun _ => restores_lift _
  function params result statements bodySpan span _ := by
    rw [eval]
    exact restores_here _
  noArguments := by
    rw [evalAll]
    exact .pure _
  argument e es he hes := by
    rw [evalAll]
    exact .bind he fun _ => .bind hes fun _ => .pure _
  define name value span hv := by
    rw [exec]
    refine .bind (restores_lift _) fun _ => .bind hv fun v => ?_
    exact (keeps_declare name v).bind_pure fun _ => Flow.normal
  var name type value span hv := by
    rw [exec_var]
    refine .bind (restores_lift _) fun _ => .bind (restores_evalOr hv _) fun v => ?_
    exact (keeps_declare name v).bind_pure fun _ => Flow.normal
  assign target op value span hv := by
    rw [exec]
    refine .bind (restores_lift _) fun _ => .bind hv fun v => ?_
    cases op with
    | none => exact .bind (.pure v) fun _ => .bind (restores_here _) fun _ => .pure _
    | some op =>
      refine .bind (restores_here _) fun _ => .bind (restores_lift _) fun _ => ?_
      exact .bind (restores_here _) fun _ => .pure _
  increment target up span := by
    rw [exec]
    refine .bind (restores_lift _) fun _ => .bind (restores_here _) fun _ => ?_
    exact .bind (restores_lift _) fun _ => .bind (restores_here _) fun _ => .pure _
  expr value hv := by
    rw [exec]
    exact .bind (restores_lift _) fun _ => .bind hv.of_restores fun _ => .pure _
  ret value span hv := by
    rw [exec_ret]
    exact .bind (restores_lift _) fun _ => .bind (restores_evalOr hv _) fun _ => .pure _
  breakLoop span := by
    rw [exec]
    exact .bind (restores_lift _) fun _ => .pure _
  continueLoop span := by
    rw [exec]
    exact .bind (restores_lift _) fun _ => .pure _
  cond condition thenStatements thenSpan elseBlock span hc ht he := by
    rw [exec_cond]
    refine .bind (restores_lift _) fun _ => .bind (restores_condition hc) fun _ => .ite ?_ ?_
    · exact (restores_inScope ht).of_restores
    · exact (restores_execElse he).of_restores
  loop init condition post statements bodySpan span hi hc hp hs := by
    rw [exec_loop]
    -- The variable of the loop is declared in the scope around the rounds, which goes with them.
    refine .bind (restores_lift _) fun _ => .of_restores (restores_inScope ?_)
    refine .bind_grows (grows_execIn hi) fun _ => ?_
    have hround : Grows limit (round s enter condition post (.mk statements bodySpan)) :=
      grows_round hc hp hs
    exact grows_iterate hround _
  block statements span hs := by
    rw [exec]
    exact .bind (restores_lift _) fun _ => (restores_inScope hs).of_restores
  noStatements := by
    rw [execAll]
    exact .pure _
  statement st ss hst hss := by
    rw [execAll_cons]
    refine .bind_grows hst.grows fun flow => ?_
    cases flow with
    | normal => exact hss
    | breaks | continues | returns _ => exact .pure _

end Forms

/-- **Functions leave the frames**, however deep the calls in them are. -/
theorem restores_call (s : Setting) (n : Nat) (c : Closure) (args : List Value) :
    Restores s.config.maxDepth (call s n c args) := by
  induction n generalizing c args with
  | zero => exact .throw _
  | succ n ih =>
    -- The calls in the body may be less deep by one, and of them this is known.
    refine .bind (restores_opened ((keepCases ih).ofStmts _) _) fun flow => ?_
    cases flow with
    | normal | breaks | continues | returns _ => exact .pure _

theorem restores_initVars (s : Setting) (vars : List VarDecl) :
    Restores s.config.maxDepth (initVars s vars) := by
  induction vars with
  | nil => exact .pure ()
  | cons d vars ih =>
    refine .bind (restores_evalOr (fun e _ => ?_) _) fun _ => .bind (restores_lift _) fun _ => ih
    exact (keepCases (restores_call s _)).ofExpr e

theorem restores_callEntry (s : Setting) : Restores s.config.maxDepth (callEntry s) := by
  intro k
  unfold callEntry
  cases k.machine.globals.get? s.config.entryPoint with
  | some entry => exact restores_apply (restores_call s _) entry [] k
  | none => exact restores_lift (Run.fail (.noEntryPoint s.config.entryPoint) : Run Value) k

/-- A run of a program leaves the frames that it starts with. -/
theorem restores_execute (s : Setting) (p : Program) (bindings : List (String × Scalar)) :
    Restores s.config.maxDepth (execute s p bindings) := by
  refine .bind (restores_lift _) fun _ => .bind (restores_initVars s p.vars) fun _ => ?_
  exact .bind (restores_lift _) fun _ => restores_callEntry s

end Stacked

end Formula
