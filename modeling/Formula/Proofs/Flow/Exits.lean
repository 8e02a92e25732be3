import Formula.Proofs.Machine.Equations
import Formula.Proofs.Program.Induction

/-!
# How statements end

Statements end normally, at a `break` or `continue` of the loop around them, or at a `return`. Which
of these ends they can have is seen from their form, and no run of them has another one. A `return`
ends the statements around it with the value that its expression has at that moment.

## Main definitions

* `Stmt.continuesOut`, `Block.continuesOut`: a `continue` can leave a statement or block.
* `Stmt.returned`, `Block.returned`: what stands behind the `return`s of a statement or block.
* `Exits`: the ends that a form allows.
* `Exits.Has`: an end of a run is one of those.
* `Run.Ensures`: what holds of each result of a computation.

## Main results

* `Run.Ensures.iterate`: the round that ends a loop tells how it ends.
* `Setting.exec_has`, `Setting.execAll_has`: runs end as the form allows.
-/

namespace Formula

/-! ## Ends, by the form -/

mutual

/-- Whether a `continue` within the statement goes on with the loop around it. -/
def Stmt.continuesOut : Stmt → Bool
  | .continueLoop _ => true
  | .block b => b.continuesOut
  | .cond _ thenBlock none _ => thenBlock.continuesOut
  | .cond _ thenBlock (some elseBlock) _ => thenBlock.continuesOut || elseBlock.continuesOut
  | _ => false

/-- Whether a `continue` within the block goes on with the loop around it. -/
def Block.continuesOut : Block → Bool
  | .mk statements _ => anyContinuesOut statements

/-- Whether a `continue` within one of the statements goes on with the loop around them. -/
def anyContinuesOut : List Stmt → Bool
  | [] => false
  | s :: ss => s.continuesOut || anyContinuesOut ss

end

mutual

/-- What stands behind the `return`s of a statement, without those of function literals. What a loop
does before and behind its rounds cannot return. -/
def Stmt.returned : Stmt → List (Option Expr)
  | .ret value _ => [value]
  | .block b => b.returned
  | .cond _ thenBlock none _ => thenBlock.returned
  | .cond _ thenBlock (some elseBlock) _ => thenBlock.returned ++ elseBlock.returned
  | .loop _ _ _ b _ => b.returned
  | _ => []

/-- What stands behind the `return`s of a block. -/
def Block.returned : Block → List (Option Expr)
  | .mk statements _ => returnedAll statements

/-- What stands behind the `return`s of several statements. -/
def returnedAll : List Stmt → List (Option Expr)
  | [] => []
  | s :: ss => s.returned ++ returnedAll ss

end

/-- The ends that statements of a form can have. -/
structure Exits where
  /-- Control goes on behind the statements. -/
  ends : Bool
  /-- A `break` leaves the statements. -/
  breaks : Bool
  /-- A `continue` leaves the statements. -/
  continues : Bool
  /-- What stands behind the `return`s. -/
  returned : List (Option Expr)

/-- The ends of a statement. -/
def Stmt.exits (s : Stmt) : Exits :=
  ⟨!s.terminates, s.breaksOut, s.continuesOut, s.returned⟩

/-- The ends of statements, one behind the other. -/
def Exits.ofAll (ss : List Stmt) : Exits :=
  ⟨!lastTerminates ss, anyBreaksOut ss, anyContinuesOut ss, returnedAll ss⟩

/-- The ends of a block. -/
abbrev Block.exits (b : Block) : Exits :=
  .ofAll b.statements

namespace Exits

/-- **The end of a run is one that the form allows**: a value is that of an expression behind a
`return`, and the machine is the one behind that expression. -/
def Has (s : Setting) (enter : Entry) (x : Exits) (flow : Flow) (m : Machine) : Prop :=
  match flow with
  | .normal => x.ends
  | .breaks => x.breaks
  | .continues => x.continues
  | .returns v => ∃ value ∈ x.returned, ∃ env m₁, s.evalOr enter env (pure .nil) value m₁ = .ok v m

/-- The second form allows all ends of the first one. -/
structure Le (x y : Exits) : Prop where
  ends : x.ends → y.ends
  breaks : x.breaks → y.breaks
  continues : x.continues → y.continues
  returned : ∀ value ∈ x.returned, value ∈ y.returned

variable {s : Setting} {enter : Entry} {x y : Exits} {flow : Flow} {m : Machine}

theorem Has.mono (h : x.Has s enter flow m) (hle : x.Le y) : y.Has s enter flow m := by
  cases flow with
  | normal => exact hle.ends h
  | breaks => exact hle.breaks h
  | continues => exact hle.continues h
  | returns v =>
    obtain ⟨value, hvalue, hrun⟩ := h
    exact ⟨value, hle.returned value hvalue, hrun⟩

variable (condition : Expr) (thenStatements statements : List Stmt) (thenSpan bodySpan span : Span)

theorem block_eq : (Stmt.block (.mk statements span)).exits = ofAll statements := by
  rw [Stmt.exits, Stmt.terminates, Block.terminates, Stmt.breaksOut, Block.breaksOut,
    Stmt.continuesOut, Block.continuesOut, Stmt.returned, Block.returned, ofAll]

theorem then_le (elseBlock : Option Block) :
    (ofAll thenStatements).Le
      (Stmt.cond condition (.mk thenStatements thenSpan) elseBlock span).exits := by
  rcases elseBlock with _ | ⟨elseStatements, elseSpan⟩ <;>
    constructor <;> simp +contextual [Stmt.exits, ofAll, Stmt.terminates, Block.terminates,
      Stmt.breaksOut, Block.breaksOut, Stmt.continuesOut, Block.continuesOut, Stmt.returned,
      Block.returned]

theorem else_le (elseStatements : List Stmt) (elseSpan : Span) :
    (ofAll elseStatements).Le (Stmt.cond condition (.mk thenStatements thenSpan)
      (some (.mk elseStatements elseSpan)) span).exits := by
  constructor <;> simp +contextual [Stmt.exits, ofAll, Stmt.terminates, Block.terminates,
    Stmt.breaksOut, Block.breaksOut, Stmt.continuesOut, Block.continuesOut, Stmt.returned,
    Block.returned]

/-- Behind a statement that does not end normally nothing is run. -/
theorem Has.cons {first : Stmt} (h : first.exits.Has s enter flow m) (hflow : flow ≠ .normal)
    (rest : List Stmt) : (ofAll (first :: rest)).Has s enter flow m := by
  cases flow with
  | normal => exact absurd rfl hflow
  | breaks =>
    have h : first.breaksOut = true := h
    simp [Has, ofAll, anyBreaksOut, h]
  | continues =>
    have h : first.continuesOut = true := h
    simp [Has, ofAll, anyContinuesOut, h]
  | returns v =>
    obtain ⟨value, hvalue, hrun⟩ := h
    exact ⟨value, by rw [ofAll, returnedAll]; exact List.mem_append_left _ hvalue, hrun⟩

/-- The last statement decides whether control goes on behind all of them. -/
theorem ofAll_le_cons (first second : Stmt) (rest : List Stmt) :
    (ofAll (second :: rest)).Le (ofAll (first :: second :: rest)) := by
  constructor <;> simp +contextual [ofAll, lastTerminates, anyBreaksOut, anyContinuesOut, returnedAll]

end Exits

/-! ## Runs -/

/-- **What holds of each result** of a computation, and of the machine behind it. -/
def Run.Ensures {α : Type} (P : α → Machine → Prop) (x : Run α) : Prop :=
  ∀ m a m', x m = .ok a m' → P a m'

namespace Run.Ensures

variable {α β : Type} {P : β → Machine → Prop} {x y : Run β}

theorem pure {b : β} (h : ∀ m, P b m) : Ensures P (pure b) := by
  intro m _ _ hrun
  cases hrun
  exact h m

/-- What comes last has the results. -/
theorem bind {x : Run α} {f : α → Run β} (h : ∀ a, Ensures P (f a)) : Ensures P (x >>= f) := by
  intro m b m' hrun
  obtain ⟨a, m₁, -, hlast⟩ := bind_eq_ok hrun
  exact h a m₁ b m' hlast

theorem ite {c : Prop} [Decidable c] (hx : c → Ensures P x) (hy : ¬ c → Ensures P y) :
    Ensures P (if c then x else y) := by
  split
  · exact hx ‹_›
  · exact hy ‹_›

theorem mono (h : Ensures P x) {Q : β → Machine → Prop} (hPQ : ∀ b m, P b m → Q b m) :
    Ensures Q x :=
  fun m b m' hrun => hPQ b m' (h m b m' hrun)

/-- The end of what stands in a statement is that of the statement. -/
theorem ends {Q : Flow → Machine → Prop} {z : Run Flow} (h : Ensures Q z) (env : Env) :
    Ensures (fun r : Env × Flow => Q r.2) (z >>= fun flow => Pure.pure (env, flow)) := by
  intro m _ m' hrun
  obtain ⟨flow, m₁, hz, hlast⟩ := bind_eq_ok hrun
  cases hlast
  exact h m _ _ hz

/-- **What holds of each round that ends a loop holds of the end of the loop**, however many rounds come
before it. -/
theorem iterate {step : Env → Run (Env ⊕ Flow)} {Q : Flow → Machine → Prop}
    (h : ∀ env, Ensures (fun next m => ∀ flow, next = .inr flow → Q flow m) (step env)) (n : Nat)
    (env : Env) : Ensures Q (Formula.iterate step n env) := by
  induction n generalizing env with
  | zero => exact fun _ _ _ hrun => nomatch hrun
  | succ n ih =>
    intro m flow m' hrun
    rw [Formula.iterate] at hrun
    obtain ⟨next, m₁, hnext, hlast⟩ := bind_eq_ok hrun
    cases next with
    | inl env' => exact ih env' m₁ flow m' hlast
    | inr flow' =>
      cases hlast
      exact h env m _ _ hnext _ rfl

end Run.Ensures

namespace Setting

variable {s : Setting} {enter : Entry} {env : Env} {m m' : Machine} {flow : Flow}

/-- A run of a statement ends as its form allows. -/
def Ends (s : Setting) (enter : Entry) (statement : Stmt) : Prop :=
  ∀ env m env' flow m', s.exec enter env statement m = .ok (env', flow) m' →
    statement.exits.Has s enter flow m'

/-- A run of statements ends as their form allows. -/
def AllEnd (s : Setting) (enter : Entry) (statements : List Stmt) : Prop :=
  ∀ env m flow m', s.execAll enter env statements m = .ok flow m' →
    (Exits.ofAll statements).Has s enter flow m'

/-- A statement ends as its form allows if each of its runs does. -/
theorem Ends.of_ensures {statement : Stmt}
    (h : ∀ env, Run.Ensures (fun r => statement.exits.Has s enter r.2) (s.exec enter env statement)) :
    s.Ends enter statement :=
  fun env m env' flow m' hrun => h env m (env', flow) m' hrun

/-- A round that ends a loop found its condition wrong, or its body left the loop. -/
theorem round_has {init : Option Stmt} {condition : Option Expr} {post : Option Stmt}
    {statements : List Stmt} {bodySpan span : Span} (hbody : s.AllEnd enter statements) (env : Env) :
    Run.Ensures (fun next m => ∀ flow, next = .inr flow →
        (Stmt.loop init condition post (.mk statements bodySpan) span).exits.Has s enter flow m)
      (s.round enter env condition post statements) := by
  rintro m _ m' h flow rfl
  obtain ⟨-, m₁, -, h⟩ := Run.bind_eq_ok h
  obtain ⟨goesOn, m₂, hcondition, h⟩ := Run.bind_eq_ok h
  cases goesOn with
  | false =>
    cases h
    -- Where there is no condition, each round goes on.
    cases condition with
    | none => cases hcondition
    | some c => rfl
  | true =>
    obtain ⟨ending, m₃, hrun, h⟩ := Run.bind_eq_ok h
    have hending := hbody _ _ _ _ hrun
    cases ending with
    | normal | continues =>
      -- The loop goes on with another round, so this is none of the rounds that end it.
      obtain ⟨_, _, -, h⟩ := Run.bind_eq_ok h
      cases h
    | breaks =>
      cases h
      have hbreaks : anyBreaksOut statements = true := hending
      cases condition <;> simp [Exits.Has, Stmt.exits, Stmt.terminates, Block.breaksOut, hbreaks]
    | returns v =>
      cases h
      obtain ⟨value, hvalue, hrun⟩ := hending
      exact ⟨value, by rwa [Stmt.exits, Stmt.returned, Block.returned], hrun⟩

theorem execElse_has {condition : Expr} {thenStatements : List Stmt} {thenSpan span : Span}
    {elseBlock : Option Block} (helse : ∀ b ∈ elseBlock, s.AllEnd enter b.statements) (env : Env) :
    Run.Ensures
      ((Stmt.cond condition (.mk thenStatements thenSpan) elseBlock span).exits.Has s enter)
      (s.execElse enter env elseBlock) := by
  rcases elseBlock with _ | ⟨elseStatements, elseSpan⟩
  · exact .pure fun _ => rfl
  · have hends : Run.Ensures ((Exits.ofAll elseStatements).Has s enter)
        (s.execAll enter env.push elseStatements) := helse _ rfl _
    exact hends.mono fun _ _ h => h.mono (Exits.else_le ..)

/-- Statements, one behind the other: the first one that does not end normally tells how all end. -/
theorem allEnd_cons {first : Stmt} {rest : List Stmt} (hfirst : s.Ends enter first)
    (hrest : s.AllEnd enter rest) : s.AllEnd enter (first :: rest) := by
  intro env m flow m' h
  rw [execAll_cons] at h
  obtain ⟨⟨env₁, flow₁⟩, m₁, hrun, h⟩ := Run.bind_eq_ok h
  have hends := hfirst _ _ _ _ _ hrun
  by_cases hnormal : flow₁ = .normal
  · subst hnormal
    -- The last statement alone decides whether the end is a normal one.
    cases rest with
    | nil =>
      cases h
      exact hends
    | cons second rest => exact (hrest _ _ _ _ h).mono (Exits.ofAll_le_cons ..)
  · have hflow : flow₁ = flow ∧ m₁ = m' := by
      cases flow₁ with
      | normal => exact absurd rfl hnormal
      | breaks | continues | returns _ =>
        cases h
        exact ⟨rfl, rfl⟩
    obtain ⟨rfl, rfl⟩ := hflow
    exact hends.cons hnormal rest

/-- Each run ends as the form allows. Expressions have no ends of their own, so only statements are told
of. -/
theorem endCases (s : Setting) (enter : Entry) :
    SyntaxCases (fun _ => True) (fun _ => True) (s.Ends enter) (s.AllEnd enter) where
  literal _ _ := trivial
  identifier _ _ := trivial
  binary _ _ _ _ _ _ := trivial
  unary _ _ _ _ := trivial
  call _ _ _ _ _ := trivial
  selector _ _ _ := trivial
  function _ _ _ _ _ _ := trivial
  noArguments := trivial
  argument _ _ _ _ := trivial
  define name value span _ := .of_ensures fun env => by
    rw [exec]
    exact .bind fun _ => .bind fun _ => .bind fun _ => .pure fun _ => rfl
  var name type value span _ := .of_ensures fun env => by
    rw [exec_var]
    exact .bind fun _ => .bind fun _ => .bind fun _ => .pure fun _ => rfl
  assign target op value span _ := .of_ensures fun env => by
    rw [exec]
    refine .bind fun _ => .bind fun _ => ?_
    cases op with
    | none => exact .bind fun _ => .bind fun _ => .pure fun _ => rfl
    | some op => exact .bind fun _ => .bind fun _ => .bind fun _ => .pure fun _ => rfl
  increment target up span := .of_ensures fun env => by
    rw [exec]
    exact .bind fun _ => .bind fun _ => .bind fun _ => .bind fun _ => .pure fun _ => rfl
  expr value _ := .of_ensures fun env => by
    rw [exec]
    exact .bind fun _ => .bind fun _ => .pure fun _ => rfl
  ret value span _ := by
    intro env m env' flow m' h
    rw [exec_ret] at h
    obtain ⟨-, m₁, -, h⟩ := Run.bind_eq_ok h
    obtain ⟨v, m₂, hv, h⟩ := Run.bind_eq_ok h
    cases h
    -- This is the one place where a value gets in; all other forms only pass one on.
    exact ⟨value, List.mem_singleton_self _, env, m₁, hv⟩
  breakLoop span := .of_ensures fun env => by
    rw [exec]
    exact .bind fun _ => .pure fun _ => rfl
  continueLoop span := .of_ensures fun env => by
    rw [exec]
    exact .bind fun _ => .pure fun _ => rfl
  cond condition thenStatements thenSpan elseBlock span _ hthen helse := .of_ensures fun env => by
    have hends : Run.Ensures ((Exits.ofAll thenStatements).Has s enter)
        (s.execAll enter env.push thenStatements) := hthen _
    rw [exec_cond]
    refine .bind fun _ => .ends (.bind fun holds => .ite (fun _ => ?_) fun _ => ?_) env
    · exact hends.mono fun _ _ h => h.mono (Exits.then_le ..)
    · exact execElse_has helse env
  loop init condition post statements bodySpan span _ _ _ hbody := .of_ensures fun env => by
    rw [exec_loop]
    exact .bind fun _ => .bind fun start => .ends (.iterate (round_has hbody) _ start) env
  block statements span hstatements := .of_ensures fun env => by
    have hends : Run.Ensures ((Exits.ofAll statements).Has s enter)
        (s.execAll enter env.push statements) := hstatements _
    rw [exec, Exits.block_eq]
    exact .bind fun _ => .ends hends env
  noStatements := by
    intro env m flow m' h
    rw [execAll] at h
    cases h
    rfl
  statement _ _ := allEnd_cons

/-- **A statement ends as its form allows.** -/
theorem exec_has {statement : Stmt} {env' : Env}
    (h : s.exec enter env statement m = .ok (env', flow) m') :
    statement.exits.Has s enter flow m' :=
  (s.endCases enter).ofStmt statement _ _ _ _ _ h

/-- **Statements end as their form allows.** -/
theorem execAll_has {statements : List Stmt}
    (h : s.execAll enter env statements m = .ok flow m') :
    (Exits.ofAll statements).Has s enter flow m' :=
  (s.endCases enter).ofStmts statements _ _ _ _ h

end Setting

end Formula
