import Formula.Proofs.Program.Induction
import Formula.Proofs.Typing.Safety

/-!
# Well-typed programs are safe

What is well typed is evaluated and executed safely: values have the types of their expressions, scopes
stay those that the checker saw, and a statement that never lets control go on does not end normally.

## Main definitions

* `Flow.Suits`: how a statement may end
* `Expr.Sound`, `Stmt.Sound`: what is well typed is evaluated and executed safely

## Main results

* `Setting.sound`: all expressions and statements are sound
* `Setting.enter_safe`: functions are entered safely
-/

namespace Formula

/-- **How a statement may end** in a function with the result type `result`, within a loop or not:
not normally if control never goes on behind it, and by leaving the loop only if it says so. -/
def Flow.Suits (H : StoreTy) (result : Ty) (inLoop terminates breaksOut : Bool) : Flow → Prop
  | normal => terminates = false
  | breaks => inLoop = true ∧ breaksOut = true
  | continues => inLoop = true
  | returns v => ∃ t, result.accepts t = true ∧ v.HasType H t

/-- A statement around another one ends as that one may, if it lets control go on where that one does,
and is left where that one is. -/
theorem Flow.Suits.weaken {H : StoreTy} {result : Ty} {inLoop terminates breaksOut : Bool}
    {flow : Flow} (h : flow.Suits H result inLoop terminates breaksOut) {terminates' : Bool}
    (ht : terminates' = true → terminates = true) {breaksOut' : Bool}
    (hb : breaksOut = true → breaksOut' = true) :
    flow.Suits H result inLoop terminates' breaksOut' := by
  cases flow with
  | normal => exact Bool.eq_false_iff.mpr fun htrue => Bool.eq_false_iff.mp h (ht htrue)
  | breaks => exact ⟨h.1, hb h.2⟩
  | continues => exact h
  | returns v => exact h

section Sound

variable (s : Setting) (enter : Entry) (initial : Bindings Value)

/-- A store on which functions are entered safely, and on which integers become floating-point
numbers where the types of the run say so. -/
structure Setting.Ready (H : StoreTy) : Prop where
  floats : H.floats = s.types.floats
  entry : Setting.SafeEntry initial H enter

/-- **An expression is sound**: if it is well typed, it is evaluated safely and to a value of its
type. -/
def Expr.Sound (e : Expr) : Prop :=
  ∀ H env scopes t, s.Ready enter initial H → Env.Typed H env scopes →
    e.Typed s.types.floats scopes t →
      Run.Safe initial H (s.eval enter env e) fun H' v => v.HasType H' t

/-- **A statement is sound**: if it is well typed, it is executed safely, the scopes behind it are
those of the checker, and it ends as it may. -/
def Stmt.Sound (st : Stmt) : Prop :=
  ∀ H env scopes scopes' result inLoop, s.Ready enter initial H → Env.Typed H env scopes →
    st.Typed s.types.floats result inLoop scopes scopes' →
      Run.Safe initial H (s.exec enter env st) fun H' r => Env.Typed H' r.1 scopes' ∧
        r.2.Suits H' result inLoop st.terminates st.breaksOut

/-- Statements are sound. -/
def Stmt.AllSound (sts : List Stmt) : Prop :=
  ∀ H env scopes result inLoop, s.Ready enter initial H → Env.Typed H env scopes →
    Stmt.AllTyped s.types.floats result inLoop scopes sts →
      Run.Safe initial H (s.execAll enter env sts) fun H' flow =>
        flow.Suits H' result inLoop (lastTerminates sts) (anyBreaksOut sts)

variable {s enter initial}

theorem Setting.Ready.mono {H H' : StoreTy} (h : s.Ready enter initial H) (hgrows : H.Grows H') :
    s.Ready enter initial H' :=
  ⟨hgrows.floats ▸ h.floats, h.entry.mono hgrows⟩

open Run.Safe

namespace Expr

theorem sound_binary {op : BinaryOp} {left right : Expr} {span : Span}
    (hl : left.Sound s enter initial) (hr : right.Sound s enter initial) :
    (binary op left right span).Sound s enter initial := by
  intro H env scopes t hready henv ht
  cases ht with
  | @binary _ _ _ _ _ l r t hleft hright hop =>
    -- The right operands of `and` and `or` are evaluated in one case only.
    have hconditions (h : op = .and ∨ op = .or) : l = .bool ∧ r = .bool ∧ t = .bool := by
      obtain ⟨rfl, hdefined, rfl⟩ := operationType_eq_ok hop
      rcases h with rfl | rfl <;> (simp only [BinaryOp.isDefinedOn, decide_eq_true_eq] at hdefined
                                   exact ⟨hdefined, hdefined, hdefined⟩)
    have hbool : Ty.bool.computedAt s.types.floats span = .bool := if_neg fun h => nomatch h.1
    by_cases hand : op = .and
    · obtain ⟨rfl, rfl, rfl⟩ := hconditions (.inl hand)
      subst hand
      rw [Setting.eval_and, hbool]
      refine (condition (hl H env scopes _ hready henv hleft)).bind fun H' b hgrows _ => ?_
      cases b with
      | false => exact .pure (.scalar (.bool _))
      | true =>
        refine (condition (hr H' env scopes _ (hready.mono hgrows) (henv.mono hgrows.le)
          hright)).bind fun _ _ _ _ => ?_
        exact .pure (.scalar (.bool _))
    by_cases hor : op = .or
    · obtain ⟨rfl, rfl, rfl⟩ := hconditions (.inr hor)
      subst hor
      rw [Setting.eval_or, hbool]
      refine (condition (hl H env scopes _ hready henv hleft)).bind fun H' b hgrows _ => ?_
      cases b with
      | true => exact .pure (.scalar (.bool _))
      | false =>
        refine (condition (hr H' env scopes _ (hready.mono hgrows) (henv.mono hgrows.le)
          hright)).bind fun _ _ _ _ => ?_
        exact .pure (.scalar (.bool _))
    rw [Setting.eval_binary _ _ _ hand hor]
    refine (hl H env scopes _ hready henv hleft).bind fun H' v hgrows hv => ?_
    have hready := hready.mono hgrows
    refine (hr H' env scopes _ hready (henv.mono hgrows.le) hright).bind fun H'' w hgrows hw => ?_
    have hresults := operate_results hop (hv.mono hgrows.le) hw
    refine (Run.Safe.ofExcept hresults).bind fun H''' u hgrows' hu => .pure ?_
    have hfloats := (hready.mono (hgrows.trans hgrows')).floats
    rw [← hfloats]
    exact hu.computed hfloats span

theorem sound_unary {op : UnaryOp} {operand : Expr} {span : Span}
    (ho : operand.Sound s enter initial) : (unary op operand span).Sound s enter initial := by
  intro H env scopes t hready henv ht
  cases ht with
  | unary hoperand hop =>
    rw [Setting.eval]
    refine (ho H env scopes _ hready henv hoperand).bind fun H' v _ hv => ?_
    exact .ofExcept (operateUnary_results hop hv)

/-- Arguments are evaluated to values that fit the parameters. -/
theorem evalAll_safe {arguments : List Expr} (h : ∀ a ∈ arguments, a.Sound s enter initial)
    {H : StoreTy} {env : Env} {scopes : Scoped Ty} {variadic : Option Ty} {params : List Ty}
    (hready : s.Ready enter initial H) (henv : Env.Typed H env scopes)
    (ht : ArgumentsTyped s.types.floats scopes variadic params arguments) :
    Run.Safe initial H (s.evalAll enter env arguments) fun H' vs =>
      Value.AllHaveTypes H' variadic params vs := by
  induction arguments generalizing H params with
  | nil =>
    cases ht
    rw [Setting.evalAll]
    exact .pure .nil
  | cons a arguments ih =>
    obtain ⟨ha, harguments⟩ := List.forall_mem_cons.mp h
    rw [Setting.evalAll]
    cases ht with
    | param hargument haccepts hrest =>
      refine (ha H env scopes _ hready henv hargument).bind fun H' v hgrows hv => ?_
      refine (ih harguments (hready.mono hgrows) (henv.mono hgrows.le) hrest).bind
        fun H'' vs hgrows' hvs => ?_
      exact .pure (.param (hv.mono hgrows'.le) haccepts hvs)
    | further hargument haccepts hrest =>
      -- an argument behind the parameters is one more for the last of them
      refine (ha H env scopes _ hready henv hargument).bind fun H' v hgrows hv => ?_
      refine (ih harguments (hready.mono hgrows) (henv.mono hgrows.le) hrest).bind
        fun H'' vs hgrows' hvs => ?_
      exact .pure (.further (hv.mono hgrows'.le) haccepts hvs)

theorem sound_call {function : Expr} {arguments : List Expr} {span : Span}
    (hf : function.Sound s enter initial) (ha : ∀ a ∈ arguments, a.Sound s enter initial) :
    (call function arguments span).Sound s enter initial := by
  intro H env scopes t hready henv ht
  rw [Setting.eval]
  cases ht with
  | @builtin _ _ argument _ b _ _ hfunction hargument hresult =>
    refine (hf H env scopes _ hready henv hfunction).bind fun H' v hgrows hv => ?_
    rw [Setting.evalAll, Setting.evalAll, bind_assoc]
    -- a value of the type of a predeclared function is that function
    obtain rfl := hv.builtin_eq
    refine (ha argument List.mem_cons_self H' env scopes _ (hready.mono hgrows)
      (henv.mono hgrows.le) hargument).bind fun H'' w hgrows' hw => ?_
    simp only [pure_bind]
    exact Setting.apply_builtin_safe s hresult hw
  | call hfunction harguments =>
    refine (hf H env scopes _ hready henv hfunction).bind fun H' v hgrows hv => ?_
    refine (evalAll_safe ha (hready.mono hgrows) (henv.mono hgrows.le) harguments).bind
      fun H'' vs hgrows' hvs => ?_
    exact Setting.apply_safe s ((hready.mono hgrows).mono hgrows').entry (hv.mono hgrows'.le) hvs

theorem sound_selector {target member : String} {span : Span} :
    (selector target member span).Sound s enter initial := by
  intro H env scopes t hready henv ht
  cases ht with
  | @selector _ _ _ _ path n found hmember =>
    rw [Setting.eval]
    refine (lookup henv found).bind fun H' v _ hv => ?_
    obtain rfl := hv.package_eq
    refine .ofExcept ?_
    rw [selectMember, hmember]
    exact .native n

theorem sound_function {params : List Parameter} {result : Option TypeExpr}
    {statements : List Stmt} {bodySpan span : Span} :
    (function params result (.mk statements bodySpan) span).Sound s enter initial := by
  intro H env scopes t hready henv ht
  cases ht with
  | function hparams hresult hinner hbody hend =>
    rw [Setting.eval]
    refine .pure (.closure (c := ⟨"func literal", params, .mk statements bodySpan, env⟩) henv hparams
      (isProper_of_resultType hresult) hinner ?_ hend)
    rwa [hready.floats]

end Expr

/-! ## Parts of statements -/

section Parts

variable {H : StoreTy} {env : Env} {scopes : Scoped Ty} (hready : s.Ready enter initial H)
  (henv : Env.Typed H env scopes)

include hready henv

/-- A variable gets a value of its type. -/
theorem evalOr_safe {type : Option TypeExpr} {value : Option Expr} {t : Ty}
    (hvalue : ∀ e ∈ value, e.Sound s enter initial)
    (ht : Expr.Declared s.types.floats scopes type value t) :
    Run.Safe initial H (s.evalOr enter env (Run.ofExcept (zeroOf type)) value) fun H' v =>
      v.HasType H' t := by
  cases ht with
  | both _ ht => exact hvalue _ rfl H env scopes t hready henv ht
  | value ht _ => exact hvalue _ rfl H env scopes t hready henv ht
  | @type _ e t hresolve =>
    refine .ofExcept ?_
    rw [zeroOf, hresolve]
    -- types of values have a first value; functions are unset
    have hproper := TypeExpr.isProper_of_resolve hresolve
    have hvalue := TypeExpr.isValue_of_resolve hresolve
    cases t with
    | int => exact .scalar (.int 0)
    | float => exact .scalar (.float 0)
    | bool => exact .scalar (.bool false)
    | string => exact .scalar (.string "")
    | function => exact .unset
    | void | package | builtin => cases hvalue
    | any => cases hproper

/-- A condition that may be missing fails only if it is there. -/
theorem holds_safe {condition : Option Expr} (hc : ∀ c ∈ condition, c.Sound s enter initial)
    (ht : ∀ c ∈ condition, c.Typed s.types.floats scopes .bool) :
    Run.Safe initial H (s.holds enter env condition) fun _ b =>
      b = false → condition.isSome = true := by
  cases condition with
  | none => exact .pure nofun
  | some c =>
    exact (condition (hc c rfl H env scopes .bool hready henv (ht c rfl))).weaken
      fun _ _ _ _ _ => rfl

/-- What is done before the rounds of a loop, or after each of them. -/
theorem execIn_safe {statement : Option Stmt} {inner : Scoped Ty} {result : Ty} {inLoop : Bool}
    (hs : ∀ st ∈ statement, st.Sound s enter initial)
    (ht : ∀ st ∈ statement, st.Typed s.types.floats result inLoop scopes inner)
    (hnone : statement = none → inner = scopes) :
    Run.Safe initial H (s.execIn enter env statement) fun H' env' => Env.Typed H' env' inner := by
  cases statement with
  | none =>
    rw [hnone rfl]
    exact .pure henv
  | some st =>
    rw [Setting.execIn, map_eq_pure_bind]
    refine (hs st rfl H env scopes inner result inLoop hready henv (ht st rfl)).bind
      fun H' r _ hr => .pure hr.1

theorem execElse_safe {elseBlock : Option Block} {result : Ty} {inLoop : Bool}
    (hs : ∀ b ∈ elseBlock, Stmt.AllSound s enter initial b.statements)
    (ht : ∀ b : Block, b ∈ elseBlock →
      Stmt.AllTyped s.types.floats result inLoop scopes.push b.statements) :
    Run.Safe initial H (s.execElse enter env elseBlock) fun H' flow => flow.Suits H' result inLoop
      ((elseBlock.map Block.terminates).getD false)
      ((elseBlock.map Block.breaksOut).getD false) := by
  rcases elseBlock with _ | ⟨statements, span⟩
  · exact .pure rfl
  · exact hs _ rfl H env.push scopes.push result inLoop hready henv.push (ht _ rfl)

end Parts

/-! ## Statements -/

namespace Stmt

theorem sound_define {name : String} {value : Expr} {span : Span}
    (hv : value.Sound s enter initial) : (define name value span).Sound s enter initial := by
  intro H env scopes scopes' result inLoop hready henv ht
  cases ht with
  | define hvalue _ =>
    rw [Setting.exec]
    refine (tick s).bind fun H₁ _ h₁ _ => ?_
    refine (hv H₁ env scopes _ (hready.mono h₁) (henv.mono h₁.le) hvalue).bind fun H₂ v h₂ hv => ?_
    refine (declare (henv.mono (h₁.trans h₂).le) hv).bind fun H₃ env' _ henv' => ?_
    exact .pure ⟨henv', rfl⟩

theorem sound_var {name : String} {type : Option TypeExpr} {value : Option Expr} {span : Span}
    (hv : ∀ e ∈ value, e.Sound s enter initial) :
    (var name type value span).Sound s enter initial := by
  intro H env scopes scopes' result inLoop hready henv ht
  cases ht with
  | var hdeclared =>
    rw [Setting.exec_var]
    refine (tick s).bind fun H₁ _ h₁ _ => ?_
    refine (evalOr_safe (hready.mono h₁) (henv.mono h₁.le) hv hdeclared).bind fun H₂ v h₂ hv => ?_
    refine (declare (henv.mono (h₁.trans h₂).le) hv).bind fun H₃ env' _ henv' => ?_
    exact .pure ⟨henv', rfl⟩

theorem sound_assign {target : String} {op : Option BinaryOp} {value : Expr} {span : Span}
    (hv : value.Sound s enter initial) : (assign target op value span).Sound s enter initial := by
  intro H env scopes scopes' result inLoop hready henv ht
  rw [Setting.exec]
  refine (tick s).bind fun H₁ _ h₁ _ => ?_
  have henv₁ := henv.mono h₁.le
  cases ht with
  | assign found hvalue =>
    refine (hv H₁ env scopes _ (hready.mono h₁) henv₁ hvalue).bind fun H₂ v h₂ hv => ?_
    have henv₂ := henv₁.mono h₂.le
    -- only the value under the name changes, by one of the same type
    refine (store henv₂ found hv).bind fun H₃ _ h₃ _ => ?_
    exact .pure ⟨henv₂.mono h₃.le, rfl⟩
  | update found hvalue hop =>
    refine (hv H₁ env scopes _ (hready.mono h₁) henv₁ hvalue).bind fun H₂ v h₂ hv => ?_
    have henv₂ := henv₁.mono h₂.le
    refine (lookup henv₂ found).bind fun H₃ w h₃ hw => ?_
    refine (ofExcept (operate_results hop hw (hv.mono h₃.le))).bind fun H₄ u h₄ hu => ?_
    have henv₄ := henv₂.mono (h₃.trans h₄).le
    refine (store henv₄ found hu).bind fun H₅ _ h₅ _ => ?_
    exact .pure ⟨henv₄.mono h₅.le, rfl⟩

theorem sound_increment {target : String} {up : Bool} {span : Span} :
    (increment target up span).Sound s enter initial := by
  intro H env scopes scopes' result inLoop hready henv ht
  cases ht with
  | increment found hnumeric =>
    rw [Setting.exec]
    refine (tick s).bind fun H₁ _ h₁ _ => ?_
    have henv₁ := henv.mono h₁.le
    refine (lookup henv₁ found).bind fun H₂ v h₂ hv => ?_
    refine (ofExcept (stepNumber_results hnumeric hv)).bind fun H₃ u h₃ hu => ?_
    have henv₃ := henv₁.mono (h₂.trans h₃).le
    refine (store henv₃ found hu).bind fun H₄ _ h₄ _ => ?_
    exact .pure ⟨henv₃.mono h₄.le, rfl⟩

theorem sound_expr {value : Expr} (hv : value.Sound s enter initial) :
    (expr value).Sound s enter initial := by
  intro H env scopes scopes' result inLoop hready henv ht
  cases ht with
  | expr hvalue =>
    rw [Setting.exec]
    refine (tick s).bind fun H₁ _ h₁ _ => ?_
    refine (hv H₁ env scopes _ (hready.mono h₁) (henv.mono h₁.le) hvalue).bind fun H₂ _ h₂ _ => ?_
    exact .pure ⟨henv.mono (h₁.trans h₂).le, rfl⟩

theorem sound_ret {value : Option Expr} {span : Span}
    (hv : ∀ e ∈ value, e.Sound s enter initial) : (ret value span).Sound s enter initial := by
  intro H env scopes scopes' result inLoop hready henv ht
  rw [Setting.exec_ret]
  refine (tick s).bind fun H₁ _ h₁ _ => ?_
  have henv₁ := henv.mono h₁.le
  cases ht with
  | ret hvalue haccepts =>
    refine (hv _ rfl H₁ env scopes _ (hready.mono h₁) henv₁ hvalue).bind fun H₂ v h₂ hv => ?_
    exact .pure ⟨henv₁.mono h₂.le, _, haccepts, hv⟩
  | retVoid => exact .pure ⟨henv₁, _, rfl, .void⟩

theorem sound_breakLoop {span : Span} : (breakLoop span).Sound s enter initial := by
  intro H env scopes scopes' result inLoop hready henv ht
  cases ht
  rw [Setting.exec]
  exact (tick s).bind fun H₁ _ h₁ _ => .pure ⟨henv.mono h₁.le, rfl, rfl⟩

theorem sound_continueLoop {span : Span} : (continueLoop span).Sound s enter initial := by
  intro H env scopes scopes' result inLoop hready henv ht
  cases ht
  rw [Setting.exec]
  exact (tick s).bind fun H₁ _ h₁ _ => .pure ⟨henv.mono h₁.le, rfl⟩

theorem sound_cond {test : Expr} {thenStatements : List Stmt} {thenSpan : Span}
    {elseBlock : Option Block} {span : Span} (hc : test.Sound s enter initial)
    (ht : AllSound s enter initial thenStatements)
    (he : ∀ b ∈ elseBlock, AllSound s enter initial b.statements) :
    (cond test (.mk thenStatements thenSpan) elseBlock span).Sound s enter initial := by
  intro H env scopes scopes' result inLoop hready henv htyped
  cases htyped with
  | cond hcondition hthen helse =>
    rw [Setting.exec_cond]
    refine (tick s).bind fun H₁ _ h₁ _ => ?_
    have henv₁ := henv.mono h₁.le
    have hready₁ := hready.mono h₁
    -- What holds of the way one branch ends is weakened to what is said of both of them.
    have hbranch : Run.Safe initial H₁ (s.branch enter env test thenStatements elseBlock)
        fun H' flow => flow.Suits H' result inLoop
          (cond test (.mk thenStatements thenSpan) elseBlock span).terminates
          (cond test (.mk thenStatements thenSpan) elseBlock span).breaksOut := by
      refine (condition (hc H₁ env scopes _ hready₁ henv₁ hcondition)).bind fun H₂ b h₂ _ => ?_
      have henv₂ := henv₁.mono h₂.le
      have hready₂ := hready₁.mono h₂
      cases b with
      | true =>
        refine (ht H₂ env.push scopes.push result inLoop hready₂ henv₂.push hthen).weaken
          fun H₃ flow _ hflow => hflow.weaken ?_ ?_
        · cases elseBlock <;> simp +contextual [terminates, Block.terminates]
        · cases elseBlock <;> simp +contextual [breaksOut, Block.breaksOut]
      | false =>
        refine (execElse_safe hready₂ henv₂ he helse).weaken
          fun H₃ flow _ hflow => hflow.weaken ?_ ?_
        · cases elseBlock <;> simp +contextual [terminates]
        · cases elseBlock <;> simp +contextual [breaksOut]
    exact hbranch.bind fun H₂ flow h₂ hflow => .pure ⟨henv₁.mono h₂.le, hflow⟩

/-- A round of a loop leads to another round in scopes of the same types, or out of the loop. -/
theorem round_safe {test : Option Expr} {post : Option Stmt} {statements : List Stmt}
    {H : StoreTy} {env : Env} {scopes : Scoped Ty} {result : Ty} {inLoop : Bool}
    (hready : s.Ready enter initial H) (henv : Env.Typed H env scopes)
    (hc : ∀ c ∈ test, c.Sound s enter initial) (hp : ∀ p ∈ post, p.Sound s enter initial)
    (hs : AllSound s enter initial statements)
    (htest : ∀ c ∈ test, c.Typed s.types.floats scopes .bool)
    (hpost : ∀ p ∈ post, p.Typed s.types.floats result inLoop scopes scopes)
    (hbody : AllTyped s.types.floats result true scopes.push statements) :
    Run.Safe initial H (s.round enter env test post statements) fun H' r => match r with
      | .inl env => Env.Typed H' env scopes
      | .inr flow => flow.Suits H' result inLoop (test.isNone && !anyBreaksOut statements)
          false := by
  refine (tick s).bind fun H₁ _ h₁ _ => ?_
  have henv₁ := henv.mono h₁.le
  have hready₁ := hready.mono h₁
  refine (holds_safe hready₁ henv₁ hc htest).bind fun H₂ b h₂ hb => ?_
  have henv₂ := henv₁.mono h₂.le
  have hready₂ := hready₁.mono h₂
  cases b with
  | false =>
    refine .pure ?_
    obtain ⟨c, rfl⟩ := Option.isSome_iff_exists.mp (hb rfl)
    exact rfl
  | true =>
    refine (hs H₂ env.push scopes.push result true hready₂ henv₂.push hbody).bind
      fun H₃ flow h₃ hflow => ?_
    have hnext : Run.Safe initial H₃ (s.execIn enter env post) fun H' env' =>
        Env.Typed H' env' scopes :=
      execIn_safe (hready₂.mono h₃) (henv₂.mono h₃.le) hp hpost fun _ => rfl
    cases flow with
    | normal => exact hnext.bind fun _ _ _ henv' => .pure henv'
    | continues => exact hnext.bind fun _ _ _ henv' => .pure henv'
    | returns v => exact .pure hflow
    | breaks =>
      -- Only a loop that can be left by a `break` is left so.
      refine .pure ?_
      show (test.isNone && !anyBreaksOut statements) = false
      rw [hflow.2, Bool.not_true, Bool.and_false]

theorem sound_loop {init : Option Stmt} {test : Option Expr} {post : Option Stmt}
    {statements : List Stmt} {bodySpan span : Span} (hi : ∀ i ∈ init, i.Sound s enter initial)
    (hc : ∀ c ∈ test, c.Sound s enter initial) (hp : ∀ p ∈ post, p.Sound s enter initial)
    (hs : AllSound s enter initial statements) :
    (loop init test post (.mk statements bodySpan) span).Sound s enter initial := by
  intro H env scopes scopes' result inLoop hready henv ht
  cases ht with
  | loop hinit hnone htest hpost _ hbody =>
    rw [Setting.exec_loop]
    refine (tick s).bind fun H₁ _ h₁ _ => ?_
    have henv₁ := henv.mono h₁.le
    have hready₁ := hready.mono h₁
    refine (execIn_safe hready₁ henv₁.push hi hinit hnone).bind fun H₂ start h₂ hstart => ?_
    have hready₂ := hready₁.mono h₂
    refine (Run.Safe.iterate (fun H' env' hgrows henv' => round_safe (hready₂.mono hgrows) henv' hc hp
      hs htest hpost hbody) s.fuel hstart).bind fun H₃ flow h₃ hflow =>
        .pure ⟨henv₁.mono (h₂.trans h₃).le, ?_⟩
    -- a loop without a test and without a break does not end by itself
    refine hflow.weaken ?_ nofun
    cases test <;> simp [terminates, Block.breaksOut]

theorem sound_block {statements : List Stmt} {span : Span}
    (hs : AllSound s enter initial statements) :
    (block (.mk statements span)).Sound s enter initial := by
  intro H env scopes scopes' result inLoop hready henv ht
  cases ht with
  | block hbody =>
    rw [Setting.exec]
    refine (tick s).bind fun H₁ _ h₁ _ => ?_
    refine (hs H₁ env.push scopes.push result inLoop (hready.mono h₁) (henv.mono h₁.le).push
      hbody).bind fun H₂ flow h₂ hflow => ?_
    exact .pure ⟨henv.mono (h₁.trans h₂).le, hflow⟩

theorem allSound_nil : AllSound s enter initial [] := by
  intro H env scopes result inLoop _ _ _
  rw [Setting.execAll]
  exact .pure rfl

theorem allSound_cons {st : Stmt} {sts : List Stmt} (hst : st.Sound s enter initial)
    (hsts : AllSound s enter initial sts) : AllSound s enter initial (st :: sts) := by
  intro H env scopes result inLoop hready henv ht
  cases ht with
  | cons hs hss =>
    rw [Setting.execAll_cons]
    refine (hst H env scopes _ result inLoop hready henv hs).bind fun H₁ r h₁ hr => ?_
    obtain ⟨env', flow⟩ := r
    obtain ⟨henv', hflow⟩ := hr
    -- Only if control goes on does it matter what comes next.
    cases flow with
    | normal =>
      refine (hsts H₁ env' _ result inLoop (hready.mono h₁) henv' hss).weaken
        fun H₂ flow _ hflow' => hflow'.weaken ?_ ?_
      · cases sts with
        | nil => exact fun hterminates => nomatch hflow.symm.trans hterminates
        | cons => exact id
      · simp +contextual [anyBreaksOut]
    | breaks => exact .pure ⟨hflow.1, by simp [anyBreaksOut, hflow.2]⟩
    | continues => exact .pure hflow
    | returns v => exact .pure hflow

end Stmt

/-- **All expressions and statements are sound.** -/
theorem Setting.sound (s : Setting) (enter : Entry) (initial : Bindings Value) :
    SyntaxCases (Expr.Sound s enter initial) (fun es => ∀ e ∈ es, e.Sound s enter initial)
      (Stmt.Sound s enter initial) (Stmt.AllSound s enter initial) where
  literal value span H env scopes t hready henv ht := by
    cases ht
    rw [Setting.eval, ← hready.floats]
    exact .pure ((Value.HasType.scalar value).computed hready.floats span)
  identifier name span H env scopes t hready henv ht := by
    cases ht with
    | identifier found =>
      rw [Setting.eval]
      exact lookup henv found
  binary _ _ _ _ := Expr.sound_binary
  unary _ _ _ := Expr.sound_unary
  call _ _ _ := Expr.sound_call
  selector _ _ _ := Expr.sound_selector
  function _ _ _ _ _ _ := Expr.sound_function
  noArguments := nofun
  argument _ _ he hes := List.forall_mem_cons.mpr ⟨he, hes⟩
  define _ _ _ := Stmt.sound_define
  var _ _ _ _ := Stmt.sound_var
  assign _ _ _ _ := Stmt.sound_assign
  increment _ _ _ := Stmt.sound_increment
  expr _ := Stmt.sound_expr
  ret _ _ := Stmt.sound_ret
  breakLoop _ := Stmt.sound_breakLoop
  continueLoop _ := Stmt.sound_continueLoop
  cond _ _ _ _ _ := Stmt.sound_cond
  loop _ _ _ _ _ _ := Stmt.sound_loop
  block _ _ := Stmt.sound_block
  noStatements := Stmt.allSound_nil
  statement _ _ := Stmt.allSound_cons

end Sound

/-! ## Functions -/

variable {initial : Bindings Value}

/-- Parameters stand for arguments of their types. -/
theorem bindParams_safe {params : List Parameter} {ps : List Ty} {args : List Value} {H : StoreTy}
    {env : Env} {scopes inner : Scoped Ty} (henv : Env.Typed H env scopes)
    (hparams : TypeExpr.resolveAll (params.map (·.type)) = .ok ps)
    (hinner : declareParams scopes params = .ok inner) (hargs : Value.AllHaveTypes H none ps args) :
    Run.Safe initial H (Setting.bindParams env params args) fun H' env' =>
      Env.Typed H' env' inner := by
  induction params generalizing ps args H env scopes with
  | nil =>
    cases hparams
    cases hinner
    cases hargs
    exact .pure henv
  | cons p params ih =>
    obtain ⟨t, ts, ht, hts, rfl⟩ := TypeExpr.resolveAll_cons_eq_ok hparams
    obtain ⟨v, rest, rfl, hv, hrest⟩ := hargs.of_cons (TypeExpr.isProper_of_resolve ht)
    rw [declareParams, ht] at hinner
    -- the checker declares parameters in the same order, and none of them twice
    split at hinner
    · cases hinner
    · refine (Run.Safe.declare henv hv).bind fun H' env' hgrows henv' => ?_
      exact ih henv' hts hinner (hrest.mono hgrows.le)

/-- **Functions are entered safely**, however many calls may still be opened. -/
theorem Setting.enter_safe (s : Setting) (depth : Nat) {H : StoreTy}
    (hfloats : H.floats = s.types.floats) : SafeEntry initial H (s.enter depth) := by
  induction depth generalizing H with
  | zero =>
    intro H' c params result args _ _ _
    exact .fail rfl
  | succ depth ih =>
    intro H' c params result args hgrows hc hargs
    cases hc with
    | closure henv hparams hproper hinner hbody hend =>
      refine (bindParams_safe henv.push hparams hinner hargs).bind fun H₁ env h₁ henv' => ?_
      have hfloats₁ : H₁.floats = s.types.floats :=
        (h₁.floats.symm.trans hgrows.floats.symm).trans hfloats
      have hready : s.Ready (s.enter depth) initial H₁ := ⟨hfloats₁, ih hfloats₁⟩
      rw [h₁.floats, hfloats₁] at hbody
      refine ((s.sound (s.enter depth) initial).ofStmts c.body.statements H₁ env _ result false
        hready henv' hbody).bind fun H₂ flow _ hflow => ?_
      cases flow with
      | normal =>
        -- at its end a function without a result gives nothing, and no other one comes there
        rcases hend with rfl | hterminates
        · exact .pure .void
        · exact nomatch hterminates.symm.trans hflow
      | breaks => exact nomatch hflow.1
      | continues => exact nomatch hflow
      | returns v =>
        obtain ⟨t, haccepts, hv⟩ := hflow
        obtain rfl := Ty.eq_of_accepts hproper haccepts
        exact .pure hv

end Formula
