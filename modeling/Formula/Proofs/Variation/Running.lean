import Formula.Proofs.Budget.Threshold
import Formula.Proofs.Machine.Alike
import Formula.Proofs.Variation.Trees

/-!
# Running variants of a program

A run of a variant does what a run of the program does, on values that are the same but for the bodies of
functions, which are variants. The second run may go another way in three places: where it comes to a
package-level name that stands for nothing in it; where both runs fail because an operation that
is written out looks up its target before it looks at the other operand; and where an increment that is
written out finds something else than a number of the type of its one.

## Main definitions

* `Closure.Variant`, `Value.Variant`, `Machine.Variant`: values and machines of the two runs
* `Stop.Variant`, `Stop.Strays`: how the second run may stop
* `Run.Varies V W x y`: `y` does what `x` does, or stops as it may
* `Setting.Variant`: settings of the two runs
* `Outcome.Variant`, `Outcome.Strays`: how the two runs end

## Main results

* `Run.Varies.bind`, `Run.Varies.iterate`: sequences and loops
* `Setting.Variant.operation`, `Setting.Variant.one`: what is written out
* `Setting.Variant.runs`: expressions and statements
* `Setting.Variant.execute`: whole runs
-/

namespace Formula

variable {V : Variation} {α β γ δ : Type} {W : α → β → Prop} {W' : γ → δ → Prop}

/-! ## Machines -/

/-- A variant of a function. -/
structure Closure.Variant (V : Variation) (c c' : Closure) : Prop where
  name : c'.name = c.name
  params : c'.params = c.params
  body : c.body.Variant V c'.body
  env : c'.env = c.env

/-- **Values that are the same** but for the bodies of functions, which are variants. -/
abbrev Value.Variant (V : Variation) : Value → Value → Prop :=
  Value.Rel (Closure.Variant V)

theorem Closure.Variant.names (c c' : Closure) (h : c.Variant V c') : c'.name = c.name :=
  h.name

theorem Closure.Variant.eq (hold : ∀ span, V.Old span) (c c' : Closure) (h : c.Variant V c') :
    c' = c := by
  obtain ⟨name, params, body, env⟩ := c
  obtain ⟨name', params', body', env'⟩ := c'
  obtain ⟨rfl, rfl, hbody, rfl⟩ := h
  obtain rfl := Block.Variant.eq hold hbody
  rfl

/-- What a package-level name stands for in the two runs. -/
inductive Variation.Stands (V : Variation) (name : String) : Option Value → Option Value → Prop where
  | none : Stands V name none none
  | some {v v' : Value} (h : v.Variant V v') : Stands V name (some v) (some v')
  | gap {v : Option Value} (h : V.gaps name) : Stands V name v none

/-- **The machines of the two runs.** -/
structure Machine.Variant (V : Variation) (m m' : Machine) : Prop where
  size : m'.cells.size = m.cells.size
  cells : ∀ a, (m.cells.getD a .nil).Variant V (m'.cells.getD a .nil)
  globals : ∀ name, V.sees name → V.Stands name (m.globals.get? name) (m'.globals.get? name)
  steps : m'.steps = m.steps
  drawn : m'.drawn = m.drawn

/-- How a statement ends in the two runs. -/
inductive Flow.Variant (V : Variation) : Flow → Flow → Prop where
  | normal : Flow.Variant V .normal .normal
  | breaks : Flow.Variant V .breaks .breaks
  | continues : Flow.Variant V .continues .continues
  | returns {v v' : Value} (h : v.Variant V v') : Flow.Variant V (.returns v) (.returns v')

theorem Flow.Variant.leaves? {flow flow' : Flow} (h : flow.Variant V flow') :
    Option.Rel (Flow.Variant V) flow.leaves? flow'.leaves? := by
  cases h with
  | normal | continues => exact .none
  | breaks => exact .some .normal
  | returns h => exact .some (.returns h)

/-- The scopes behind a statement, and how it ends, in the two runs. -/
structure Flow.VariantIn (V : Variation) (r r' : Env × Flow) : Prop where
  env : r'.1 = r.1
  flow : r.2.Variant V r'.2

/-! ## Computations -/

/-- **Why the two runs may stop.** Where an operation is written out, the second one may not find its
target, while in the first one the other operand is at fault. -/
inductive Stop.Variant (V : Variation) : Stop → Stop → Prop where
  | same (e : Stop) : Stop.Variant V e e
  | operation {target : String} {span : Span} (h : V.operations target span) (f : Fault) :
    Stop.Variant V (.error (.fault f)) (.error (.fault (.undefinedName target)))

/-- **Why the second run may stop** where the first one goes on or stops: a package-level name stands
for nothing, or an increment that is written out finds no number of the type of its one. -/
inductive Stop.Strays (V : Variation) : Stop → Prop where
  | gap {name : String} (h : V.gaps name) : Stop.Strays V (.error (.fault (.undefinedName name)))
  | one {span : Span} (h : V.ones span) (up : Bool) {k k' : Kind} (hnumber : k' = .int ∨ k' = .float)
    (hk : k ≠ k') : Stop.Strays V (.error (.fault (.operands k (if up then .add else .sub) k')))

/-- What is left of the two runs. -/
inductive Run.Ends (V : Variation) (W : α → β → Prop) :
    EStateM.Result Stop Machine α → EStateM.Result Stop Machine β → Prop where
  | ok {a : α} {b : β} {m m' : Machine} (h : W a b) (hm : m.Variant V m') :
    Run.Ends V W (.ok a m) (.ok b m')
  | error {e e' : Stop} {m m' : Machine} (h : e.Variant V e') : Run.Ends V W (.error e m) (.error e' m')
  | strays {r : EStateM.Result Stop Machine α} {e' : Stop} {m' : Machine} (h : e'.Strays V) :
    Run.Ends V W r (.error e' m')

namespace Run.Ends

theorem of_ok {a : α} {b : β} {m m' : Machine} (h : Run.Ends V W (.ok a m) (.ok b m')) :
    W a b ∧ m.Variant V m' := by
  cases h with
  | ok h hm => exact ⟨h, hm⟩

/-- Where the second run alone stops, it may do so whatever the first one does. -/
theorem stray {a : α} {e' : Stop} {m m' : Machine} (h : Run.Ends V W (.ok a m) (.error e' m'))
    (r : EStateM.Result Stop Machine γ) : Run.Ends V W' r (.error e' m') := by
  cases h with
  | strays h => exact .strays h

/-- What comes behind a computation that goes on in the first run. -/
theorem bind_right {a : α} {m m' : Machine} {y : Run β} {g : β → Run δ}
    {r : EStateM.Result Stop Machine γ} (h : Run.Ends V W (.ok a m) (y m'))
    (hg : ∀ b m₁', W a b → m.Variant V m₁' → Run.Ends V W' r (g b m₁')) :
    Run.Ends V W' r ((y >>= g) m') := by
  cases hy : y m' with
  | ok b m₁' =>
    rw [hy] at h
    rw [bind_of_ok hy]
    exact hg b m₁' h.of_ok.1 h.of_ok.2
  | error e' m₁' =>
    rw [hy] at h
    rw [bind_of_error hy]
    exact h.stray r

/-- What comes behind a computation that stops in the first run. -/
theorem bind_error {e : Stop} {m m₁ m' : Machine} {y : Run β}
    (h : Run.Ends V W (EStateM.Result.error e m : EStateM.Result Stop Machine α) (y m'))
    (g : β → Run δ) :
    Run.Ends V W' (EStateM.Result.error e m₁ : EStateM.Result Stop Machine γ) ((y >>= g) m') := by
  cases hy : y m' with
  | ok b m₁' =>
    rw [hy] at h
    cases h
  | error e' m₁' =>
    rw [hy] at h
    rw [bind_of_error hy]
    cases h with
    | error h => exact .error h
    | strays h => exact .strays h

end Run.Ends

/-- **A computation does what another one does**, or stops as it may. -/
def Run.Varies (V : Variation) (W : α → β → Prop) (x : Run α) (y : Run β) : Prop :=
  ∀ m m', m.Variant V m' → Run.Ends V W (x m) (y m')

namespace Run.Varies

theorem pure {a : α} {b : β} (h : W a b) : Varies V W (pure a) (pure b) :=
  fun _ _ hm => .ok h hm

theorem fail (e : RunError) : Varies V W (Run.fail e) (Run.fail e) :=
  fun _ _ _ => .error (.same _)

theorem bind {x : Run α} {y : Run β} {f : α → Run γ} {g : β → Run δ} (h : Varies V W x y)
    (hf : ∀ a b, W a b → Varies V W' (f a) (g b)) : Varies V W' (x >>= f) (y >>= g) := by
  intro m m' hm
  have hxy := h m m' hm
  cases hx : x m with
  | error e m₁ =>
    rw [hx] at hxy
    rw [bind_of_error hx f]
    exact hxy.bind_error g
  | ok a m₁ =>
    rw [hx] at hxy
    rw [bind_of_ok hx f]
    exact hxy.bind_right fun b m₁' hab hm₁ => hf a b hab m₁ m₁' hm₁

theorem map {x : Run α} {y : Run β} (h : Varies V W x y) {f : α → γ} {g : β → δ}
    (hfg : ∀ a b, W a b → W' (f a) (g b)) : Varies V W' (f <$> x) (g <$> y) := by
  rw [map_eq_pure_bind, map_eq_pure_bind]
  exact h.bind fun a b hab => .pure (hfg a b hab)

theorem ite {c : Prop} [Decidable c] {x x' : Run α} {y y' : Run β} (h : Varies V W x y)
    (h' : Varies V W x' y') : Varies V W (if c then x else x') (if c then y else y') := by
  split
  · exact h
  · exact h'

/-- Operations whose results are no functions of the program. -/
theorem ofExcept {r r' : Except Fault Value} (h : r' = r) (hplain : Value.Plain r) :
    Varies V (Value.Variant V) (Run.ofExcept r) (Run.ofExcept r') := by
  rw [h]
  cases r with
  | ok v => exact .pure (.plain hplain)
  | error f => exact .fail _

theorem condition {x y : Run Value} (h : Varies V (Value.Variant V) x y) :
    Varies V Eq (Run.condition x) (Run.condition y) := by
  refine h.bind fun v v' hv => ?_
  cases hv with
  | closure => exact .fail _
  | plain =>
    rcases v with (_ | _ | _ | b) | _ | c | _ | _ | _
    case scalar.bool => exact .pure rfl
    all_goals exact .fail _

theorem alloc {v v' : Value} (hv : v.Variant V v') : Varies V Eq (Run.alloc v) (Run.alloc v') := by
  intro m m' hm
  refine .ok hm.size.symm ⟨by simp [hm.size], fun a => ?_, hm.globals, hm.steps, hm.drawn⟩
  have ha := hm.cells a
  -- Both runs have used as many cells, so the new ones have the same number.
  simp only [Array.getD_eq_getD_getElem?, Array.getElem?_push, hm.size] at ha ⊢
  split
  · exact hv
  · exact ha

theorem declare (env : Env) (name : String) {v v' : Value} (hv : v.Variant V v') :
    Varies V Eq (Run.declare env name v) (Run.declare env name v') :=
  (alloc hv).bind fun _ _ ha => .pure (ha ▸ rfl)

theorem lookup (env : Env) {name : String} (hname : V.sees name) :
    Varies V (Value.Variant V) (Run.lookup env name) (Run.lookup env name) := by
  intro m m' hm
  simp only [Run.lookup]
  cases env.find? name with
  | some a => exact .ok (hm.cells a) hm
  | none =>
    -- Only a package-level name may stand for nothing in the second run alone.
    have hstands := hm.globals name hname
    generalize m.globals.get? name = v at hstands ⊢
    generalize m'.globals.get? name = v' at hstands ⊢
    cases hstands with
    | none => exact .error (.same _)
    | some h => exact .ok h hm
    | gap h => exact .strays (.gap h)

theorem setGlobal (name : String) {v v' : Value} (hv : v.Variant V v') :
    Varies V Eq (Run.setGlobal name v) (Run.setGlobal name v') := by
  intro m m' hm
  refine .ok rfl ⟨hm.size, hm.cells, fun other hother => ?_, hm.steps, hm.drawn⟩
  rw [Bindings.get?_set, Bindings.get?_set]
  split
  · exact .some hv
  · exact hm.globals other hother

theorem store (env : Env) {name : String} (hname : V.sees name) {v v' : Value}
    (hv : v.Variant V v') : Varies V Eq (Run.store env name v) (Run.store env name v') := by
  intro m m' hm
  simp only [Run.store]
  cases env.find? name with
  | some a =>
    refine .ok rfl ⟨by simp [hm.size], fun b => ?_, hm.globals, hm.steps, hm.drawn⟩
    have hb := hm.cells b
    simp only [Array.getD_eq_getD_getElem?, Array.getElem?_setIfInBounds, hm.size] at hb ⊢
    split
    · split
      · exact hv
      · exact .nil
    · exact hb
  | none =>
    -- where the second run has a gap, it stops, and has strayed
    have hset := setGlobal name hv m m' hm
    have hstands := hm.globals name hname
    generalize m.globals.get? name = w at hstands ⊢
    generalize m'.globals.get? name = w' at hstands ⊢
    cases hstands with
    | none => exact .error (.same _)
    | some => exact hset
    | gap h => exact .strays (.gap h)

/-- **Loops whose rounds do what others do.** -/
theorem iterate {f g : Env → Run (Env ⊕ Flow)}
    (h : ∀ env, Varies V (Sum.LiftRel Eq (Flow.Variant V)) (f env) (g env)) (n : Nat) (env : Env) :
    Varies V (Flow.Variant V) (Formula.iterate f n env) (Formula.iterate g n env) := by
  induction n generalizing env with
  | zero => exact fun _ _ _ => .error (.same _)
  | succ n ih =>
    rw [Formula.iterate, Formula.iterate]
    refine (h env).bind fun r r' hr => ?_
    cases hr with
    | inl henv => exact henv ▸ ih _
    | inr hflow => exact .pure hflow

end Run.Varies

/-! ## What calls nothing -/

/-- A name is found, or it is undefined. -/
theorem Run.lookup_cases (env : Env) (name : String) (m : Machine) :
    (∃ v, Run.lookup env name m = .ok v m) ∨
      Run.lookup env name m = .error (.error (.fault (.undefinedName name))) m := by
  simp only [Run.lookup]
  split
  · exact .inl ⟨_, rfl⟩
  · split
    · exact .inl ⟨_, rfl⟩
    · exact .inr rfl

/-- A computation changes nothing, and stops only because an operation is not defined. -/
def Run.Still (x : Run α) : Prop :=
  ∀ m, (∃ a, x m = .ok a m) ∨ ∃ f, x m = .error (.error (.fault f)) m

namespace Run.Still

theorem pure (a : α) : Still (pure a) :=
  fun _ => .inl ⟨a, rfl⟩

theorem ofExcept (r : Except Fault α) : Still (Run.ofExcept r) := by
  intro m
  cases r with
  | ok a => exact .inl ⟨a, rfl⟩
  | error f => exact .inr ⟨f, rfl⟩

theorem bind {x : Run α} {f : α → Run β} (hx : Still x) (hf : ∀ a, Still (f a)) :
    Still (x >>= f) := by
  intro m
  rcases hx m with ⟨a, ha⟩ | ⟨e, he⟩
  · rw [Run.bind_of_ok ha]
    exact hf a m
  · exact .inr ⟨e, Run.bind_of_error he f⟩

theorem lookup (env : Env) (name : String) : Still (Run.lookup env name) :=
  fun m => (lookup_cases env name m).imp_right fun h => ⟨_, h⟩

theorem condition {x : Run Value} (hx : Still x) : Still (Run.condition x) := by
  refine hx.bind fun v => ?_
  split
  · exact .pure _
  · exact .ofExcept (.error _)

end Run.Still

/-- **Where no function is called, an expression changes nothing.** -/
theorem Setting.still_eval (s : Setting) (enter : Entry) (env : Env) :
    (e : Expr) → e.isCallFree = true → Run.Still (s.eval enter env e)
  | .literal _ _, _ => by
    rw [Setting.eval]
    exact .pure _
  | .identifier name _, _ => by
    rw [Setting.eval]
    exact .lookup env name
  | .selector target member _, _ => by
    rw [Setting.eval]
    exact (Run.Still.lookup env target).bind fun v => .ofExcept _
  | .function params result body span, _ => by
    rw [Setting.eval]
    exact .pure _
  | .unary op operand _, h => by
    rw [Setting.eval]
    exact (s.still_eval enter env operand h).bind fun v => .ofExcept _
  | .binary op left right span, h => by
    obtain ⟨hl, hr⟩ := Bool.and_eq_true_iff.mp h
    have hleft := s.still_eval enter env left hl
    have hright := s.still_eval enter env right hr
    by_cases hand : op = .and
    · subst hand
      rw [eval_and]
      refine hleft.condition.bind fun b => ?_
      cases b with
      | true => exact hright.condition.bind fun _ => .pure _
      | false => exact .pure _
    by_cases hor : op = .or
    · subst hor
      rw [eval_or]
      refine hleft.condition.bind fun b => ?_
      cases b with
      | true => exact .pure _
      | false => exact hright.condition.bind fun _ => .pure _
    rw [eval_binary _ _ _ hand hor]
    refine hleft.bind fun l => hright.bind fun r => ?_
    exact (Run.Still.ofExcept _).bind fun v => .pure _

/-! ## Settings -/

open Run (Varies)

namespace Setting

/-- What a run does from the names that are there at the start. -/
def start (s : Setting) (vars : List VarDecl) (bindings : List (String × Scalar)) : Run Value := do
  s.initVars vars
  bindings.forM fun (name, value) => Run.setGlobal name (.scalar value)
  s.callEntry

theorem execute_eq (s : Setting) (p : Program) (bindings : List (String × Scalar)) :
    s.execute p bindings {} = s.start p.vars bindings { globals := p.initialGlobals } := rfl

/-- **Settings for the two runs.** The same integers become floating-point numbers but for what is written
out, and no operation that is written out becomes one. -/
structure Variant (V : Variation) (s s' : Setting) : Prop where
  floats : ∀ span, V.Old span → s'.types.isFloat span = s.types.isFloat span
  operations : ∀ target span, V.operations target span → s'.types.isFloat span = false
  config : s'.config = s.config
  world : s'.world = s.world
  fuel : s'.fuel = s.fuel

namespace Variant

variable {s s' : Setting}

theorem computed (h : Variant V s s') (v : Value) {span : Span} (hold : V.Old span) :
    s'.computed v span = s.computed v span := by
  simp only [Setting.computed, h.floats span hold]

theorem computed_plain {v : Value} (hv : ∀ c, v ≠ .closure c) (span : Span) :
    (s.computed v span).Variant V (s.computed v span) := by
  rcases v with (_ | _ | _ | _) | _ | c | _ | _ | _
  case scalar.int =>
    simp only [Setting.computed]
    split <;> exact .scalar _
  case closure => exact absurd rfl (hv c)
  all_goals exact .plain (by rintro _ ⟨⟩)

theorem tick (h : Variant V s s') : Varies V Eq s.tick s'.tick := by
  intro m m' hm
  -- both clocks are the same, and so are both limits
  have hlate : s'.isLate = s.isLate := by
    funext step
    simp only [isLate, h.config, h.world]
  have hnext : Machine.Variant V { m with steps := m.steps + 1 } { m' with steps := m'.steps + 1 } :=
    ⟨hm.size, hm.cells, hm.globals, by rw [hm.steps], hm.drawn⟩
  simp only [Setting.tick, h.config, hlate, hm.steps] at hnext ⊢
  cases s.config.maxSteps with
  | none =>
    dsimp only
    cases s.isLate (m.steps + 1) with
    | true => exact .error (.same _)
    | false => exact .ok rfl hnext
  | some limit =>
    dsimp only
    by_cases hlimit : limit < m.steps + 1
    · rw [if_pos hlimit, if_pos hlimit]
      exact .error (.same _)
    · rw [if_neg hlimit, if_neg hlimit]
      cases s.isLate (m.steps + 1) with
      | true => exact .error (.same _)
      | false => exact .ok rfl hnext

theorem callNative (h : Variant V s s') (n : Native) {args args' : List Value}
    (hargs : List.Forall₂ (Value.Variant V) args args') :
    Varies V (Value.Variant V) (s.callNative n args) (s'.callNative n args') := by
  have hget : Varies V (fun m m' : Machine => m'.drawn = m.drawn) get get :=
    fun _ _ hm => .ok hm.drawn hm
  refine hget.bind fun m m' hdrawn => ?_
  rw [hdrawn, h.world]
  refine (Varies.ofExcept (n.call_rel Closure.Variant.names _ hargs) (n.call_plain _ _)).bind
    fun v v' hv => ?_
  refine Varies.ite ?_ (.pure hv)
  have hdraw : Varies V Eq (modify fun m : Machine => { m with drawn := m.drawn + 1 })
      (modify fun m : Machine => { m with drawn := m.drawn + 1 }) :=
    fun _ _ hm => .ok rfl ⟨hm.size, hm.cells, hm.globals, hm.steps, congrArg (· + 1) hm.drawn⟩
  exact hdraw.bind fun _ _ _ => .pure hv

section Parts

variable {enter enter' : Entry}

/-- A call does what a call does, if the bodies of functions do. -/
theorem apply (h : Variant V s s')
    (he : ∀ c c' args args', c.Variant V c' → List.Forall₂ (Value.Variant V) args args' →
      Varies V (Value.Variant V) (enter c args) (enter' c' args'))
    {callee callee' : Value} (hcallee : callee.Variant V callee') {args args' : List Value}
    (hargs : List.Forall₂ (Value.Variant V) args args') :
    Varies V (Value.Variant V) (s.apply enter callee args) (s'.apply enter' callee' args') := by
  refine h.tick.bind fun _ _ _ => ?_
  cases hcallee with
  | closure hc =>
    simp only [hc.name, hc.params, ← hargs.length_eq]
    exact .ite (he _ _ _ _ hc hargs) (.fail _)
  | plain hplain =>
    cases callee with
    | closure c => exact absurd rfl (hplain c)
    | native n => exact h.callNative n hargs
    | builtin b => exact .ofExcept (b.call_rel Closure.Variant.names hargs) (b.call_plain args)
    | nil | scalar | package => exact .fail _

/-! ### What is written out -/

/-- The result of an operation that is written out does not become a floating-point number. -/
theorem computed_of_written (h : Variant V s s') {target : String} {span : Span}
    (hnew : V.operations target span) (v : Value) : s'.computed v span = v := by
  rcases v with (_ | _ | _ | _) | _ | _ | _ | _ | _
  case scalar.int => simp [Setting.computed, h.operations target span hnew]
  all_goals rfl

/-- **An operation that is written out** looks up its target first, which changes nothing, as nothing is
called in the other operand. -/
theorem operation (h : Variant V s s') {env : Env} {target : String} (hsees : V.sees target)
    {op : BinaryOp} (hop : op.isArithmetic = true) {value value' : Expr}
    (hfree : value.isCallFree = true) {opSpan : Span} (hnew : V.operations target opSpan)
    (nameSpan span span' : Span)
    (hv : Varies V (Value.Variant V) (s.eval enter env value) (s'.eval enter' env value')) :
    Varies V (Flow.VariantIn V) (s.exec enter env (.assign target (some op) value span))
      (s'.exec enter' env
        (.assign target none (.binary op (.identifier target nameSpan) value' opSpan) span')) := by
  have hand : op ≠ .and := by
    rintro rfl
    cases hop
  have hor : op ≠ .or := by
    rintro rfl
    cases hop
  rw [exec, exec, eval_binary _ _ _ hand hor, eval]
  refine h.tick.bind fun _ _ _ => ?_
  simp only [bind_assoc, pure_bind, h.computed_of_written hnew]
  have hrest {l l' v v' : Value} (hl : l.Variant V l') (hv : v.Variant V v') :
      Varies V (Flow.VariantIn V)
        (Run.ofExcept (operate op l v) >>= fun r => Run.store env target r >>= fun _ => pure (env, .normal))
        (Run.ofExcept (operate op l' v') >>= fun r =>
          Run.store env target r >>= fun _ => pure (env, .normal)) :=
    (Varies.ofExcept (operate_rel Closure.Variant.names op hl hv) (operate_plain op l v)).bind
      fun _ _ hr => (Varies.store env hsees hr).bind fun _ _ _ => .pure ⟨rfl, .normal⟩
  intro m m' hm
  have hlookup := Varies.lookup env hsees m m' hm
  have hvalue := hv m m' hm
  -- The first run looks the target up behind the other operand and the second one in front of it. As that
  -- operand calls nothing, both find the same, and only if both the target is undefined and the operand
  -- fails, they fail in different ways.
  rcases Run.lookup_cases env target m' with ⟨l', hl'⟩ | hl' <;> rw [hl'] at hlookup
  · rw [Run.bind_of_ok hl']
    rcases Run.lookup_cases env target m with ⟨l, hl⟩ | hl <;> rw [hl] at hlookup
    · obtain ⟨hll, -⟩ := hlookup.of_ok
      rcases s.still_eval enter env value hfree m with ⟨v, hx⟩ | ⟨f, hx⟩
      · rw [hx] at hvalue
        rw [Run.bind_of_ok hx, Run.bind_of_ok hl]
        exact hvalue.bind_right fun v' m₁' hv hm₁ => hrest hll hv m m₁' hm₁
      · rw [hx] at hvalue
        rw [Run.bind_of_error hx]
        exact hvalue.bind_error _
    · cases hlookup
  · rw [Run.bind_of_error hl']
    rcases Run.lookup_cases env target m with ⟨l, hl⟩ | hl <;> rw [hl] at hlookup
    · exact hlookup.stray _
    · rcases s.still_eval enter env value hfree m with ⟨v, hx⟩ | ⟨f, hx⟩
      · rw [Run.bind_of_ok hx, Run.bind_of_error hl]
        exact .error (.same _)
      · rw [Run.bind_of_error hx]
        exact .error (.operation hnew f)

/-- The one that an increment is written out with. -/
theorem operate_one (up : Bool) (v : Value) {one : Value} (hone : one = .int 1 ∨ one = .float floatOne) :
    operate (if up then .add else .sub) v one = stepNumber up v ∨
      (one.kind = .int ∨ one.kind = .float) ∧ v.kind ≠ one.kind ∧
        operate (if up then .add else .sub) v one =
          .error (.operands v.kind (if up then .add else .sub) one.kind) := by
  rcases hone with rfl | rfl
  · rcases v with (_ | _ | _ | _) | _ | _ | _ | _ | _
    case scalar.int => cases up <;> exact .inl rfl
    all_goals cases up <;> exact .inr ⟨.inl rfl, by rintro ⟨⟩, rfl⟩
  · rcases v with (_ | _ | _ | _) | _ | _ | _ | _ | _
    case scalar.float => cases up <;> exact .inl rfl
    all_goals cases up <;> exact .inr ⟨.inr rfl, by rintro ⟨⟩, rfl⟩

/-- **An increment that is written out** is one, if its target holds a number of the type of the one. -/
theorem one (h : Variant V s s') {env : Env} {target : String} (hsees : V.sees target) (up : Bool)
    {oneSpan : Span} (hnew : V.ones oneSpan) (span span' : Span) :
    Varies V (Flow.VariantIn V) (s.exec enter env (.increment target up span))
      (s'.exec enter' env (.assign target (some (if up then .add else .sub))
        (.literal (.int 1) oneSpan) span')) := by
  rw [exec, exec, eval]
  refine h.tick.bind fun _ _ _ => ?_
  simp only [pure_bind]
  -- Which one it is depends on what the checker has found of the target.
  obtain ⟨one, hone, heq⟩ : ∃ one, (one = .int 1 ∨ one = .float floatOne) ∧
      s'.computed (.int 1) oneSpan = one := by
    refine ⟨_, ?_, rfl⟩
    simp only [Setting.computed]
    split
    · exact .inr rfl
    · exact .inl rfl
  rw [heq]
  refine (Varies.lookup env hsees).bind fun v v' hv => ?_
  have hstep : Varies V (Value.Variant V) (Run.ofExcept (stepNumber up v))
      (Run.ofExcept (operate (if up then .add else .sub) v' one)) := by
    rcases operate_one up v' hone with heq | ⟨hnumber, hkind, heq⟩
    · exact .ofExcept (heq.trans (stepNumber_rel up hv)) (stepNumber_plain up v)
    · rw [heq]
      exact fun _ _ _ => .strays (.one hnew up hnumber hkind)
  exact hstep.bind fun w w' hw => (Varies.store env hsees hw).bind fun _ _ _ => .pure ⟨rfl, .normal⟩

/-! ### Expressions and statements -/

/-- An operation does what one does whose operands do. -/
theorem binary (h : Variant V s s') {op : BinaryOp} {left left' right right' : Expr} {span : Span}
    (hold : V.Old span) {env : Env}
    (hl : Varies V (Value.Variant V) (s.eval enter env left) (s'.eval enter' env left'))
    (hr : Varies V (Value.Variant V) (s.eval enter env right) (s'.eval enter' env right')) :
    Varies V (Value.Variant V) (s.eval enter env (.binary op left right span))
      (s'.eval enter' env (.binary op left' right' span)) := by
  -- The right operands of `and` and `or` are evaluated in one case only.
  have hcondition : Varies V (Value.Variant V)
      (do return .bool (← Run.condition (s.eval enter env right)))
      (do return .bool (← Run.condition (s'.eval enter' env right'))) :=
    hr.condition.bind fun _ _ hb => .pure (hb ▸ .scalar _)
  by_cases hand : op = .and
  · subst hand
    rw [eval_and, eval_and]
    refine hl.condition.bind fun b b' hb => ?_
    subst hb
    exact .ite hcondition (.pure (.scalar _))
  by_cases hor : op = .or
  · subst hor
    rw [eval_or, eval_or]
    refine hl.condition.bind fun b b' hb => ?_
    subst hb
    exact .ite (.pure (.scalar _)) hcondition
  rw [eval_binary _ _ _ hand hor, eval_binary _ _ _ hand hor]
  refine hl.bind fun l l' hll => hr.bind fun r r' hrr => ?_
  rw [operate_rel Closure.Variant.names op hll hrr]
  have hplain := operate_plain op l r
  generalize operate op l r = result at hplain ⊢
  cases result with
  | error f => exact .fail _
  | ok v =>
    -- A place that is in both programs is marked in both or in none.
    refine .pure ?_
    rw [h.computed v hold]
    exact computed_plain hplain span

/-- The value of an expression that may be missing. -/
theorem evalOr {value value' : Option Expr} (hrel : Option.Rel (Expr.Variant V) value value')
    (hv : ∀ e ∈ value, ∀ e', e.Variant V e' → ∀ env,
      Varies V (Value.Variant V) (s.eval enter env e) (s'.eval enter' env e'))
    {other other' : Run Value} (hother : Varies V (Value.Variant V) other other') (env : Env) :
    Varies V (Value.Variant V) (s.evalOr enter env other value)
      (s'.evalOr enter' env other' value') := by
  cases hrel with
  | none => exact hother
  | some he => exact hv _ rfl _ he env

/-- What is done around the rounds of a loop, if anything is. -/
theorem execIn {post post' : Option Stmt} (hrel : Option.Rel (Stmt.Variant V) post post')
    (hp : ∀ p ∈ post, ∀ p', p.Variant V p' → ∀ env,
      Varies V (Flow.VariantIn V) (s.exec enter env p) (s'.exec enter' env p')) (env : Env) :
    Varies V Eq (s.execIn enter env post) (s'.execIn enter' env post') := by
  cases hrel with
  | none => exact .pure rfl
  | some h => exact (hp _ rfl _ h env).map fun _ _ hr => hr.env.symm

/-- A variable gets what it got, if a value, or what an operation makes of it, is what it was. -/
theorem assign (h : Variant V s s') {target : String} (htarget : V.sees target)
    (op : Option BinaryOp) {value value' : Expr} (span : Span) {env : Env}
    (hv : Varies V (Value.Variant V) (s.eval enter env value) (s'.eval enter' env value')) :
    Varies V (Flow.VariantIn V) (s.exec enter env (.assign target op value span))
      (s'.exec enter' env (.assign target op value' span)) := by
  rw [exec, exec]
  refine h.tick.bind fun _ _ _ => hv.bind fun v v' hvv => ?_
  have hstore {u u' : Value} (hu : u.Variant V u') : Varies V (Flow.VariantIn V)
      (Run.store env target u >>= fun _ => pure (env, .normal))
      (Run.store env target u' >>= fun _ => pure (env, .normal)) :=
    (Varies.store env htarget hu).bind fun _ _ _ => .pure ⟨rfl, .normal⟩
  cases op with
  | none =>
    simp only [pure_bind]
    exact hstore hvv
  | some op =>
    refine (Varies.lookup env htarget).bind fun l l' hll => ?_
    exact (Varies.ofExcept (operate_rel Closure.Variant.names op hll hvv)
      (operate_plain op l v)).bind fun u u' hu => hstore hu

/-- The branches of a condition, one of which may be missing. -/
theorem branch {condition condition' : Expr} {thenStatements thenStatements' : List Stmt}
    {elseBlock elseBlock' : Option Block} {env : Env}
    (hc : Varies V (Value.Variant V) (s.eval enter env condition) (s'.eval enter' env condition'))
    (ht : ∀ env, Varies V (Flow.Variant V) (s.execAll enter env thenStatements)
      (s'.execAll enter' env thenStatements'))
    (hrel : Option.Rel (Block.Variant V) elseBlock elseBlock')
    (hb : ∀ b ∈ elseBlock, ∀ sts', List.Forall₂ (Stmt.Variant V) b.statements sts' → ∀ env,
      Varies V (Flow.Variant V) (s.execAll enter env b.statements) (s'.execAll enter' env sts')) :
    Varies V (Flow.Variant V) (s.branch enter env condition thenStatements elseBlock)
      (s'.branch enter' env condition' thenStatements' elseBlock') := by
  refine hc.condition.bind fun b b' hbb => ?_
  subst hbb
  refine .ite (ht _) ?_
  cases hrel with
  | none => exact .pure .normal
  | some helse => exact hb _ rfl _ helse.statements _

/-- A loop does what a loop does, if its parts do. -/
theorem rounds (h : Variant V s s') {condition condition' : Option Expr} {post post' : Option Stmt}
    {statements statements' : List Stmt}
    (hc : ∀ env, Varies V Eq (s.holds enter env condition) (s'.holds enter' env condition'))
    (hp : ∀ env, Varies V Eq (s.execIn enter env post) (s'.execIn enter' env post'))
    (hs : ∀ env, Varies V (Flow.Variant V) (s.execAll enter env statements)
      (s'.execAll enter' env statements')) (env : Env) :
    Varies V (Flow.Variant V)
      (iterate (fun env => s.round enter env condition post statements) s.fuel env)
      (iterate (fun env => s'.round enter' env condition' post' statements') s'.fuel env) := by
  rw [h.fuel]
  refine .iterate (fun env => ?_) _ env
  refine h.tick.bind fun _ _ _ => (hc env).bind fun b b' hb => ?_
  subst hb
  refine .ite ((hs _).bind fun flow flow' hflow => ?_) (.pure (.inr .normal))
  -- both rounds leave the loop, or neither does
  have hleaves := hflow.leaves?
  generalize flow.leaves? = next at hleaves ⊢
  generalize flow'.leaves? = next' at hleaves ⊢
  cases hleaves with
  | none => exact (hp env).bind fun _ _ henv => .pure (.inl henv)
  | some hflow => exact .pure (.inr hflow)

/-- A statement, and those behind it if it ends normally. -/
theorem statements {st st' : Stmt} {sts sts' : List Stmt} {env : Env}
    (hst : Varies V (Flow.VariantIn V) (s.exec enter env st) (s'.exec enter' env st'))
    (hsts : ∀ env, Varies V (Flow.Variant V) (s.execAll enter env sts)
      (s'.execAll enter' env sts')) :
    Varies V (Flow.Variant V) (s.execAll enter env (st :: sts))
      (s'.execAll enter' env (st' :: sts')) := by
  rw [execAll_cons, execAll_cons]
  refine hst.bind fun r r' hr => ?_
  obtain ⟨env₁, flow⟩ := r
  obtain ⟨env₁', flow'⟩ := r'
  obtain ⟨henv, hflow⟩ := hr
  dsimp only at henv hflow
  subst henv
  cases hflow with
  | normal => exact hsts _
  | breaks => exact .pure .breaks
  | continues => exact .pure .continues
  | returns hv => exact .pure (.returns hv)

/-- **Expressions and statements do what those do of which they are variants**, if the bodies of functions
do. -/
theorem runs (h : Variant V s s')
    (he : ∀ c c' args args', c.Variant V c' → List.Forall₂ (Value.Variant V) args args' →
      Varies V (Value.Variant V) (enter c args) (enter' c' args')) :
    SyntaxCases
      (fun e => ∀ e', e.Variant V e' → ∀ env,
        Varies V (Value.Variant V) (s.eval enter env e) (s'.eval enter' env e'))
      (fun es => ∀ es', List.Forall₂ (Expr.Variant V) es es' → ∀ env,
        Varies V (List.Forall₂ (Value.Variant V)) (s.evalAll enter env es) (s'.evalAll enter' env es'))
      (fun st => ∀ st', st.Variant V st' → ∀ env,
        Varies V (Flow.VariantIn V) (s.exec enter env st) (s'.exec enter' env st'))
      (fun sts => ∀ sts', List.Forall₂ (Stmt.Variant V) sts sts' → ∀ env,
        Varies V (Flow.Variant V) (s.execAll enter env sts) (s'.execAll enter' env sts')) where
  literal value span e' hvariant env := by
    cases hvariant with
    | literal hold =>
      rw [eval, eval, h.computed _ hold]
      have hplain (c : Closure) : Value.scalar value ≠ .closure c := by rintro ⟨⟩
      exact .pure (computed_plain hplain span)
  identifier name span e' hvariant env := by
    cases hvariant with
    | identifier hname =>
      rw [eval, eval]
      exact .lookup env hname
  binary op left right span hl hr e' hvariant env := by
    cases hvariant with
    | binary hold hleft hright => exact h.binary hold (hl _ hleft env) (hr _ hright env)
  unary op operand span ho e' hvariant env := by
    cases hvariant with
    | unary hoperand =>
      rw [eval, eval]
      exact (ho _ hoperand env).bind fun v v' hv =>
        .ofExcept (operateUnary_rel op hv) (operateUnary_plain op v)
  call function arguments span hf ha e' hvariant env := by
    cases hvariant with
    | call hfunction harguments =>
      rw [eval, eval]
      exact (hf _ hfunction env).bind fun f f' hff => (ha _ harguments env).bind
        fun args args' hargs => h.apply he hff hargs
  selector target member span e' hvariant env := by
    cases hvariant with
    | selector htarget =>
      rw [eval, eval]
      exact (Varies.lookup env htarget).bind fun v v' hv =>
        .ofExcept (selectMember_rel hv target member) (selectMember_plain v target member)
  function params result statements bodySpan span _ e' hvariant env := by
    cases hvariant with
    | function hbody =>
      -- The scopes that a function keeps hold the same cells, so they are equal.
      rw [eval, eval]
      exact .pure (.closure ⟨rfl, rfl, hbody, rfl⟩)
  noArguments es' hvariant env := by
    cases hvariant
    rw [evalAll, evalAll]
    exact .pure .nil
  argument e es hv hvs es' hvariant env := by
    cases hvariant with
    | cons hvariant hrest =>
      rw [evalAll, evalAll]
      exact (hv _ hvariant env).bind fun v v' hvv => (hvs _ hrest env).bind
        fun vs vs' hvvs => .pure (.cons hvv hvvs)
  define name value span hv st' hvariant env := by
    cases hvariant with
    | define hvalue =>
      rw [exec, exec]
      exact h.tick.bind fun _ _ _ => (hv _ hvalue env).bind fun v v' hvv =>
        (Varies.declare env name hvv).bind fun _ _ henv => .pure ⟨henv.symm, .normal⟩
  var name type value span hv st' hvariant env := by
    cases hvariant with
    | var hvalue =>
      rw [exec_var, exec_var]
      exact h.tick.bind fun _ _ _ =>
        (evalOr hvalue hv (.ofExcept rfl (zeroOf_plain type)) env).bind fun v v' hvv =>
          (Varies.declare env name hvv).bind fun _ _ henv => .pure ⟨henv.symm, .normal⟩
  assign target op value span hv st' hvariant env := by
    cases hvariant with
    | assign htarget hvalue => exact h.assign htarget op span (hv _ hvalue env)
    | operation htarget hnew hop hfree hvalue =>
      exact h.operation htarget hop hfree hnew _ _ _ (hv _ hvalue env)
  increment target up span st' hvariant env := by
    cases hvariant with
    | increment htarget =>
      rw [exec, exec]
      refine h.tick.bind fun _ _ _ => (Varies.lookup env htarget).bind fun v v' hv => ?_
      refine (Varies.ofExcept (stepNumber_rel up hv) (stepNumber_plain up v)).bind fun u u' hu => ?_
      exact (Varies.store env htarget hu).bind fun _ _ _ => .pure ⟨rfl, .normal⟩
    | one htarget hnew => exact h.one htarget up hnew _ _
  expr value hv st' hvariant env := by
    cases hvariant with
    | expr hvalue =>
      rw [exec, exec]
      exact h.tick.bind fun _ _ _ => (hv _ hvalue env).bind fun _ _ _ => .pure ⟨rfl, .normal⟩
  ret value span hv st' hvariant env := by
    cases hvariant with
    | ret hvalue =>
      rw [exec_ret, exec_ret]
      exact h.tick.bind fun _ _ _ => (evalOr hvalue hv (.pure .nil) env).bind
        fun v v' hvv => .pure ⟨rfl, .returns hvv⟩
  breakLoop span st' hvariant env := by
    cases hvariant
    rw [exec, exec]
    exact h.tick.bind fun _ _ _ => .pure ⟨rfl, .breaks⟩
  continueLoop span st' hvariant env := by
    cases hvariant
    rw [exec, exec]
    exact h.tick.bind fun _ _ _ => .pure ⟨rfl, .continues⟩
  cond condition thenStatements thenSpan elseBlock span hc ht hb st' hvariant env := by
    cases hvariant with
    | cond hcondition hthen helse =>
      cases hthen with
      | mk hthen =>
        rw [exec_cond, exec_cond]
        exact h.tick.bind fun _ _ _ => (branch (hc _ hcondition env) (ht _ hthen) helse hb).bind
          fun _ _ hflow => .pure ⟨rfl, hflow⟩
  loop init condition post statements bodySpan span hi hc hp hs st' hvariant env := by
    cases hvariant with
    | loop hinit hcondition hpost hbody =>
      cases hbody with
      | mk hbody =>
        rw [exec_loop, exec_loop]
        refine h.tick.bind fun _ _ _ => (execIn hinit hi _).bind fun start start' hstart => ?_
        subst hstart
        refine (h.rounds (fun env => ?_) (execIn hpost hp) (hs _ hbody) start).bind
          fun _ _ hflow => .pure ⟨rfl, hflow⟩
        cases hcondition with
        | none => exact .pure rfl
        | some hcondition => exact (hc _ rfl _ hcondition env).condition
  block statements span hs st' hvariant env := by
    cases hvariant with
    | block hbody =>
      cases hbody with
      | mk hbody =>
        rw [exec, exec]
        exact h.tick.bind fun _ _ _ => (hs _ hbody _).bind fun _ _ hflow => .pure ⟨rfl, hflow⟩
  noStatements sts' hvariant env := by
    cases hvariant
    rw [execAll, execAll]
    exact .pure .normal
  statement st sts hst hsts sts' hvariant env := by
    cases hvariant with
    | cons hvariant hrest => exact statements (hst _ hvariant env) (hsts _ hrest)

end Parts

/-! ### Calls and whole runs -/

theorem bindParams (params : List Parameter) (env : Env) {args args' : List Value}
    (hargs : List.Forall₂ (Value.Variant V) args args') :
    Varies V Eq (Setting.bindParams env params args) (Setting.bindParams env params args') := by
  induction params generalizing env args args' with
  | nil => exact .pure rfl
  | cons p params ih =>
    cases hargs with
    | nil => exact .pure rfl
    | cons hv hargs =>
      refine (Varies.declare env p.name hv).bind fun env₁ env₁' henv => ?_
      subst henv
      exact ih env₁ hargs

section Calls

variable (h : Variant V s s')
include h

/-- **The bodies of functions do what those do of which they are variants**, to any depth of calls. -/
theorem enter (depth : Nat) (c c' : Closure) (args args' : List Value) (hc : c.Variant V c')
    (hargs : List.Forall₂ (Value.Variant V) args args') :
    Varies V (Value.Variant V) (s.enter depth c args) (s'.enter depth c' args') := by
  induction depth generalizing c c' args args' with
  | zero =>
    rw [Setting.enter, Setting.enter, h.config]
    exact .fail _
  | succ depth ih =>
    rw [Setting.enter, Setting.enter, hc.env, hc.params]
    refine (bindParams c.params c.env.push hargs).bind fun env env' henv => ?_
    subst henv
    refine ((h.runs ih).ofStmts c.body.statements _ hc.body.statements env).bind
      fun flow flow' hflow => ?_
    cases hflow with
    | returns hv => exact .pure hv
    | normal | breaks | continues => exact .pure .nil

theorem enterTop (c c' : Closure) (args args' : List Value) (hc : c.Variant V c')
    (hargs : List.Forall₂ (Value.Variant V) args args') :
    Varies V (Value.Variant V) (s.enterTop c args) (s'.enterTop c' args') := by
  rw [Setting.enterTop, Setting.enterTop, h.config]
  exact h.enter _ c c' args args' hc hargs

/-- Package-level variables get what they got. -/
theorem initVars {vars vars' : List VarDecl} (hvars : List.Forall₂ (VarDecl.Variant V) vars vars') :
    Varies V Eq (s.initVars vars) (s'.initVars vars') := by
  induction hvars with
  | nil => exact .pure rfl
  | @cons d d' vars vars' hd _ ih =>
    rw [initVars_cons, initVars_cons, hd.name, hd.type]
    refine (evalOr hd.value (fun e _ => (h.runs h.enterTop).ofExpr e)
      (.ofExcept rfl (zeroOf_plain d.type)) .empty).bind fun v v' hv => ?_
    exact (Varies.setGlobal d.name hv).bind fun _ _ _ => ih

/-- The entry function is called as it was, if its name stands for what it did. -/
theorem callEntry (hsees : V.sees s.config.entryPoint) (hgaps : ¬ V.gaps s.config.entryPoint) :
    Varies V (Value.Variant V) s.callEntry s'.callEntry := by
  intro m m' hm
  have hstands := hm.globals _ hsees
  simp only [Setting.callEntry, h.config]
  generalize m.globals.get? s.config.entryPoint = f at hstands ⊢
  generalize m'.globals.get? s.config.entryPoint = f' at hstands ⊢
  cases hstands with
  | none => exact .error (.same _)
  | some hf => exact h.apply h.enterTop hf .nil m m' hm
  | gap hgap => exact absurd hgap hgaps

/-- Variables, values from outside, and the call of the entry function. -/
theorem start {vars vars' : List VarDecl} (hvars : List.Forall₂ (VarDecl.Variant V) vars vars')
    {bindings bindings' : List (String × Scalar)}
    (hbindings : Varies V Eq (bindings.forM fun (name, value) => Run.setGlobal name (.scalar value))
      (bindings'.forM fun (name, value) => Run.setGlobal name (.scalar value)))
    (hsees : V.sees s.config.entryPoint) (hgaps : ¬ V.gaps s.config.entryPoint) :
    Varies V (Value.Variant V) (s.start vars bindings) (s'.start vars' bindings') :=
  (h.initVars hvars).bind fun _ _ _ => hbindings.bind fun _ _ _ => h.callEntry hsees hgaps

/-- **The runs of two programs**, if names stand for the same at the start, and the values from outside
keep it so. -/
theorem execute {p p' : Program} (hvars : List.Forall₂ (VarDecl.Variant V) p.vars p'.vars)
    (hstart : ∀ name, V.sees name →
      V.Stands name (p.initialGlobals.get? name) (p'.initialGlobals.get? name))
    {bindings bindings' : List (String × Scalar)}
    (hbindings : Varies V Eq (bindings.forM fun (name, value) => Run.setGlobal name (.scalar value))
      (bindings'.forM fun (name, value) => Run.setGlobal name (.scalar value)))
    (hsees : V.sees s.config.entryPoint) (hgaps : ¬ V.gaps s.config.entryPoint) :
    Run.Ends V (Value.Variant V) (s.execute p bindings {}) (s'.execute p' bindings' {}) := by
  rw [execute_eq, execute_eq]
  exact h.start hvars hbindings hsees hgaps _ _ ⟨rfl, fun _ => .nil, hstart, rfl, rfl⟩

end Calls

end Variant

end Setting

/-! ## Where runs start, and how they end -/

/-- A name is related behind values that are set one after the other, and related. -/
theorem stands_foldl {κ : Type} {R : κ → κ → Prop} {key : κ → String} {value : κ → Value}
    (hR : ∀ a a', R a a' → key a' = key a ∧ (value a).Variant V (value a')) {as as' : List κ}
    (h : List.Forall₂ R as as') {b b' : Bindings Value} {name : String}
    (hb : V.Stands name (b.get? name) (b'.get? name)) :
    V.Stands name ((as.foldl (fun b a => b.set (key a) (value a)) b).get? name)
      ((as'.foldl (fun b a => b.set (key a) (value a)) b').get? name) := by
  induction h generalizing b b' with
  | nil => exact hb
  | cons ha _ ih =>
    obtain ⟨hkey, hvalue⟩ := hR _ _ ha
    refine ih ?_
    rw [Bindings.get?_set, Bindings.get?_set, hkey]
    split
    · exact .some hvalue
    · exact hb

/-- A name is related behind the same values, if no function of the program is among them. -/
theorem stands_foldl_self {κ : Type} (key : κ → String) (value : κ → Value)
    (hvalue : ∀ a c, value a ≠ .closure c) (as : List κ) {b b' : Bindings Value} {name : String}
    (hb : V.Stands name (b.get? name) (b'.get? name)) :
    V.Stands name ((as.foldl (fun b a => b.set (key a) (value a)) b).get? name)
      ((as.foldl (fun b a => b.set (key a) (value a)) b').get? name) :=
  stands_foldl (fun a _ heq => heq ▸ ⟨rfl, .plain (hvalue a)⟩) (List.forall₂_same.mpr fun _ _ => rfl) hb

/-- Names stand for variants of the same at the start. -/
theorem Program.Variant.stands {p p' : Program} (h : p.Variant V p') (name : String) :
    V.Stands name (p.initialGlobals.get? name) (p'.initialGlobals.get? name) := by
  have hbuiltin (f : Builtin) (c : Closure) : Value.builtin f ≠ .closure c := by rintro ⟨⟩
  have hpackage (i : ImportDecl) (c : Closure) : Value.package i.path ≠ .closure c := by rintro ⟨⟩
  rw [initialGlobals, initialGlobals, h.imports]
  refine stands_foldl (fun d d' hd => ?_) h.functions
    (stands_foldl_self _ _ hpackage _ (stands_foldl_self _ _ hbuiltin _ .none))
  exact ⟨hd.name, .closure ⟨hd.name, hd.params, hd.body, rfl⟩⟩

/-- Values from outside are set one after the other. -/
theorem Run.setGlobals_eq (bindings : List (String × Scalar)) (m : Machine) :
    (bindings.forM fun (name, value) => Run.setGlobal name (.scalar value)) m =
      .ok () { m with globals := bindings.foldl (fun b e => b.set e.1 (.scalar e.2)) m.globals } := by
  induction bindings generalizing m with
  | nil => rfl
  | cons b bindings ih => exact ih { m with globals := m.globals.set b.1 (.scalar b.2) }

/-- The same values from outside. -/
theorem Run.Varies.bindings (bindings : List (String × Scalar)) : Varies V Eq
    (bindings.forM fun (name, value) => Run.setGlobal name (.scalar value))
    (bindings.forM fun (name, value) => Run.setGlobal name (.scalar value)) := by
  intro m m' hm
  have hscalar (e : String × Scalar) (c : Closure) : Value.scalar e.2 ≠ .closure c := by rintro ⟨⟩
  rw [Run.setGlobals_eq, Run.setGlobals_eq]
  exact .ok rfl ⟨hm.size, hm.cells, fun name hname =>
    stands_foldl_self _ _ hscalar bindings (hm.globals name hname), hm.steps, hm.drawn⟩

/-- **How the two runs end**: with the same, but for the bodies of functions. Where an operation is
written out, both may fail: the second run does not find its target, while in the first one the other
operand is at fault. -/
inductive Outcome.Variant (V : Variation) : Outcome → Outcome → Prop where
  | value {v v' : Value} (h : v.Variant V v') : Outcome.Variant V (.value v) (.value v')
  | error (e : RunError) : Outcome.Variant V (.error e) (.error e)
  | outOfFuel : Outcome.Variant V .outOfFuel .outOfFuel
  | operation {target : String} {span : Span} (h : V.operations target span) (f : Fault) :
    Outcome.Variant V (.error (.fault f)) (.error (.fault (.undefinedName target)))

/-- **How the second run may end** whatever the first one does: a package-level name stands for nothing,
or an increment that is written out finds no number of the type of its one. -/
inductive Outcome.Strays (V : Variation) : Outcome → Prop where
  | gap {name : String} (h : V.gaps name) : Outcome.Strays V (.error (.fault (.undefinedName name)))
  | one {span : Span} (h : V.ones span) (up : Bool) {k k' : Kind} (hnumber : k' = .int ∨ k' = .float)
    (hk : k ≠ k') :
    Outcome.Strays V (.error (.fault (.operands k (if up then .add else .sub) k')))

/-- How runs end that are left in this way. -/
theorem Run.Ends.outcome {r r' : EStateM.Result Stop Machine Value}
    (h : Run.Ends V (Value.Variant V) r r') :
    (Outcome.ofResult r).Variant V (.ofResult r') ∨ (Outcome.ofResult r').Strays V := by
  cases h with
  | ok hv => exact .inl (.value hv)
  | @error e e' _ _ he =>
    cases he with
    | same =>
      cases e with
      | error e => exact .inl (.error e)
      | outOfFuel => exact .inl .outOfFuel
    | operation h f => exact .inl (.operation h f)
  | strays he =>
    cases he with
    | gap h => exact .inr (.gap h)
    | one h up hnumber hk => exact .inr (.one h up hnumber hk)

/-- Where nothing is written out, the two runs end in the same way, unless the second one comes to a name
that stands for nothing. -/
theorem Run.Ends.outcome_eq_or (hold : ∀ span, V.Old span) {r r' : EStateM.Result Stop Machine Value}
    (h : Run.Ends V (Value.Variant V) r r') : Outcome.ofResult r' = .ofResult r ∨
      ∃ name, V.gaps name ∧ Outcome.ofResult r' = .error (.fault (.undefinedName name)) := by
  rcases h.outcome with h | h
  · generalize Outcome.ofResult r = o at h
    generalize Outcome.ofResult r' = o' at h
    cases h with
    | value h => exact .inl (by rw [h.eq (Closure.Variant.eq hold)])
    | error | outOfFuel => exact .inl rfl
    | operation h => exact absurd h ((hold _).not_operation _)
  · generalize Outcome.ofResult r' = o' at h
    cases h with
    | gap h => exact .inr ⟨_, h, rfl⟩
    | one h => exact absurd h (hold _).not_one

/-- Where nothing is written out and all names are there, the two runs end in the same way. -/
theorem Run.Ends.outcome_eq (hold : ∀ span, V.Old span) (hgaps : ∀ name, ¬ V.gaps name)
    {r r' : EStateM.Result Stop Machine Value} (h : Run.Ends V (Value.Variant V) r r') :
    Outcome.ofResult r' = .ofResult r :=
  (h.outcome_eq_or hold).resolve_right fun ⟨name, hname, _⟩ => hgaps name hname

end Formula
