import Formula.Proofs.Variation.Checking
import Formula.Proofs.Variation.Early

/-!
# Assignments that are written out

`x op= e` may be written out as `x = x op e` if nothing is called in `e`, and `x++` as `x += 1`. The
program is accepted as before, and its runs end as before with two exceptions. The assignment evaluates
`e` before it looks up `x`, and the written-out one looks up `x` first; so where both fail, each fails in
its own way. And the increment steps whatever number `x` holds, while the one that it is written out with
has the type that `x` is declared with.

## Main definitions

* `Variation.writingOut`: where something is written out
* `Program.WrittenOut`: what is found of a program, and of one in which something is written out

## Main results

* `Program.Variant.simplePosts`, `Program.Variant.hasVar`: what a program and its variants have in common
* `Program.Variant.run`: how runs end
* `Program.checksAs_of_writtenOut`: programs in which assignments are written out
* `Program.run_ne_of_writtenOut`: the two exceptions
-/

namespace Formula

variable {V : Variation}

/-! ## What does not change -/

theorem forall_mem_of_rel {α : Type} {R : α → α → Prop} {P : α → Prop} {o o' : Option α}
    (hrel : Option.Rel R o o') (h : ∀ a ∈ o, P a) (hP : ∀ a ∈ o, ∀ a', R a a' → P a → P a') :
    ∀ a ∈ o', P a := by
  cases hrel with
  | none => rintro _ ⟨⟩
  | @some a a' hr =>
    rintro _ ⟨⟩
    exact hP a rfl a' hr (h a rfl)

theorem Stmt.Variant.isSimple_eq {s s' : Stmt} (h : s.Variant V s') : s'.isSimple = s.isSimple := by
  cases h <;> rfl

/-- What is done after the rounds of loops stays simple. -/
theorem simplePosts_of_variant : SyntaxCases
    (fun e => ∀ e', e.Variant V e' → e.SimplePosts → e'.SimplePosts)
    (fun es => ∀ es', List.Forall₂ (Expr.Variant V) es es' → Expr.AllSimplePosts es →
      Expr.AllSimplePosts es')
    (fun s => ∀ s', s.Variant V s' → s.SimplePosts → s'.SimplePosts)
    (fun ss => ∀ ss', List.Forall₂ (Stmt.Variant V) ss ss' → Stmt.AllSimplePosts ss →
      Stmt.AllSimplePosts ss') where
  literal value span e' hvariant _ := by
    cases hvariant
    exact trivial
  identifier name span e' hvariant _ := by
    cases hvariant
    exact trivial
  binary op left right span hl hr e' hvariant h := by
    cases hvariant with
    | binary _ hleft hright => exact ⟨hl _ hleft h.1, hr _ hright h.2⟩
  unary op operand span ho e' hvariant h := by
    cases hvariant with
    | @unary _ _ operand' _ hoperand => exact ho operand' hoperand h
  call function arguments span hf ha e' hvariant h := by
    cases hvariant with
    | call hfunction harguments => exact ⟨hf _ hfunction h.1, ha _ harguments h.2⟩
  selector target member span e' hvariant _ := by
    cases hvariant
    exact trivial
  function params result statements bodySpan span hs e' hvariant h := by
    cases hvariant with
    | function hbody =>
      cases hbody with
      | mk hbody => exact hs _ hbody h
  noArguments es' hvariant _ := by
    cases hvariant
    exact trivial
  argument e es he hes es' hvariant h := by
    cases hvariant with
    | cons hvariant hrest => exact ⟨he _ hvariant h.1, hes _ hrest h.2⟩
  define name value span hv s' hvariant h := by
    cases hvariant with
    | define hvalue => exact hv _ hvalue h
  var name type value span hv s' hvariant h := by
    cases hvariant with
    | var hvalue =>
      cases hvalue with
      | none => exact trivial
      | some hvalue => exact hv _ rfl _ hvalue h
  -- what is written out has no parts with loops but those it had
  assign target op value span hv s' hvariant h := by
    cases hvariant with
    | assign _ hvalue => exact hv _ hvalue h
    | operation _ _ _ _ hvalue => exact ⟨trivial, hv _ hvalue h⟩
  increment target up span s' hvariant _ := by
    cases hvariant <;> exact trivial
  expr value hv s' hvariant h := by
    cases hvariant with
    | expr hvalue => exact hv _ hvalue h
  ret value span hv s' hvariant h := by
    cases hvariant with
    | ret hvalue =>
      cases hvalue with
      | none => exact trivial
      | some hvalue => exact hv _ rfl _ hvalue h
  breakLoop span s' hvariant _ := by
    cases hvariant
    exact trivial
  continueLoop span s' hvariant _ := by
    cases hvariant
    exact trivial
  cond condition thenStatements thenSpan elseBlock span hc ht he s' hvariant h := by
    cases hvariant with
    | cond hcondition hthen helse =>
      cases hthen with
      | mk hthen =>
        obtain ⟨h, hthenPosts, helsePosts⟩ := Stmt.simplePosts_cond.mp h
        exact Stmt.simplePosts_cond.mpr ⟨hc _ hcondition h, ht _ hthen hthenPosts,
          forall_mem_of_rel helse helsePosts fun b hb _ hvariant =>
            he b hb _ hvariant.statements⟩
  loop init condition post statements bodySpan span hi hc hp hs s' hvariant h := by
    cases hvariant with
    | loop hinit hcondition hpost hbody =>
      cases hbody with
      | mk hbody =>
        obtain ⟨hinitPosts, hconditionPosts, hpostPosts, hbodyPosts⟩ := Stmt.simplePosts_loop.mp h
        refine Stmt.simplePosts_loop.mpr ⟨forall_mem_of_rel hinit hinitPosts hi,
          forall_mem_of_rel hcondition hconditionPosts hc,
          forall_mem_of_rel hpost hpostPosts fun p hmem p' hvariant h => ?_, hs _ hbody hbodyPosts⟩
        exact ⟨hvariant.isSimple_eq ▸ h.1, hp p hmem p' hvariant h.2⟩
  block statements span hs s' hvariant h := by
    cases hvariant with
    | block hbody =>
      cases hbody with
      | mk hbody => exact hs _ hbody h
  noStatements ss' hvariant _ := by
    cases hvariant
    exact trivial
  statement s ss hs hss ss' hvariant h := by
    cases hvariant with
    | cons hvariant hrest => exact ⟨hs _ hvariant h.1, hss _ hrest h.2⟩

theorem map_eq_of_forall₂ {α β : Type} {R : α → α → Prop} {f : α → β} {l l' : List α}
    (h : List.Forall₂ R l l') (hf : ∀ a a', R a a' → f a' = f a) : l'.map f = l.map f := by
  induction h with
  | nil => rfl
  | cons ha _ ih => rw [List.map_cons, List.map_cons, hf _ _ ha, ih]

namespace Program.Variant

variable {p p' : Program} (h : p.Variant V p')

include h

/-- What is done after the rounds of the loops of a program stays simple. -/
theorem simplePosts (hsimple : ∀ i ∈ p.items, i.SimplePosts) : ∀ i ∈ p'.items, i.SimplePosts := by
  obtain ⟨imports, items⟩ := p
  obtain ⟨imports', items'⟩ := p'
  have hitems : List.Forall₂ (Item.Variant V) items items' := h.items
  clear h
  dsimp only at hsimple ⊢
  induction hitems with
  | nil => exact List.forall_mem_nil _
  | @cons i i' items items' hi _ ih =>
    obtain ⟨hsi, hss⟩ := List.forall_mem_cons.mp hsimple
    refine List.forall_mem_cons.mpr ⟨?_, ih hss⟩
    cases hi with
    | var hd =>
      exact forall_mem_of_rel hd.value hsi fun e _ => simplePosts_of_variant.ofExpr e
    | function hd => exact simplePosts_of_variant.ofStmts _ _ hd.body.statements hsi

/-- Declarations keep their names. -/
theorem names_eq : p'.items.map Item.name = p.items.map Item.name := by
  refine map_eq_of_forall₂ h.items fun i i' hi => ?_
  cases hi with
  | var hd => exact hd.name
  | function hd => exact hd.name

/-- **Variables keep their types.** -/
theorem hasVar {entryPoint name : String} {t : Ty} (hvar : p.HasVar entryPoint name t) :
    p'.HasVar entryPoint name t := by
  obtain ⟨⟨d, hd, hname⟩, scopes, hscopes, hfind⟩ := hvar
  have hnames : p'.vars.map VarDecl.name = p.vars.map VarDecl.name :=
    map_eq_of_forall₂ h.vars fun _ _ hd => hd.name
  refine ⟨List.mem_map.mp (hnames ▸ List.mem_map.mpr ⟨d, hd, hname⟩), ?_⟩
  unfold packageScopes at hscopes ⊢
  rw [h.imports]
  cases himports : checkImports [] universeScopes p.imports with
  | error e =>
    rw [himports] at hscopes
    cases hscopes
  | ok r =>
    obtain ⟨taken, outer⟩ := r
    rw [himports] at hscopes
    simp only [Bind.bind, Except.bind] at hscopes ⊢
    rw [checkNames_variant entryPoint taken outer h.items]
    cases hnamed : checkNames entryPoint taken outer p.items with
    | error e =>
      rw [hnamed] at hscopes
      cases hscopes
    | ok inner =>
      rw [hnamed] at hscopes
      -- the same variables are declared in the same scopes, with the same types
      have hvars := varies_checkVars (.refl inner) Notes.Variant.kept h.vars {} {}
        (.empty (InferredResult.same_nil (V := V)))
      simp only [StateT.run] at hscopes ⊢
      generalize checkVars inner p.vars {} = r at hvars hscopes
      generalize checkVars inner p'.vars {} = r' at hvars ⊢
      cases hvars with
      | error => cases hscopes
      | ok hsame =>
        cases hscopes
        exact ⟨_, rfl, (hsame.find?_eq name).trans hfind⟩

end Program.Variant

/-! ## Runs -/

/-- **Where something is written out**: the targets of operations with the places of the new nodes, and the
places of the ones of increments. -/
def Variation.writingOut (operations : String → Span → Prop) (ones : Span → Prop)
    (apart : ∀ target span, operations target span → ¬ ones span) : Variation where
  operations := operations
  ones := ones
  apart := apart

/-- The settings of runs with what is found of a program and of a variant. -/
theorem TypeInfo.Variant.setting {t t' : TypeInfo} (h : t.Variant V t') (p p' : Program)
    (config : Config) (world : World) (fuel : Nat) :
    Setting.Variant V (Compilation.setting ⟨p, t⟩ config world fuel)
      (Compilation.setting ⟨p', t'⟩ config world fuel) where
  floats span hold := by
    simp only [Compilation.setting, TypeInfo.isFloat, List.contains_eq_mem, h.floats span hold]
  operations target span hnew := by
    simpa only [Compilation.setting, TypeInfo.isFloat, List.contains_eq_mem, decide_eq_false_iff_not]
      using h.operations target span hnew
  config := rfl
  world := rfl
  fuel := rfl

/-- **How the runs of a program and of a variant end.** -/
theorem Program.Variant.run {p p' : Program} (h : p.Variant V p') {t t' : TypeInfo}
    (ht : t.Variant V t') (hsees : ∀ name, V.sees name) (hgaps : ∀ name, ¬ V.gaps name)
    (config : Config) (world : World) (bindings : List (String × Scalar)) (fuel : Nat) :
    (Compilation.run ⟨p, t⟩ config world bindings fuel).Variant V
        (Compilation.run ⟨p', t'⟩ config world bindings fuel) ∨
      (Compilation.run ⟨p', t'⟩ config world bindings fuel).Strays V := by
  have hends := (ht.setting p p' config world fuel).execute h.vars (fun name _ => h.stands name)
    (.bindings bindings) (hsees _) (hgaps _)
  rw [Compilation.run_eq, Compilation.run_eq]
  exact hends.outcome

/-- A well-typed program ends in no operation that is not defined on its operands. -/
theorem Outcome.Strays.not_sound {o : Outcome} (h : o.Strays V) (hgaps : ∀ name, ¬ V.gaps name)
    (t : Ty) : ¬ o.IsSound t ∧ ∀ name, o ≠ .error (.fault (.undefinedName name)) := by
  cases h with
  | gap h => exact absurd h (hgaps _)
  | one => exact ⟨by rintro ⟨⟩, by rintro name ⟨⟩⟩

/-- The span of the character at an offset of a line. -/
def Span.single (n : Nat) : Span :=
  ⟨0, ⟨1, n + 1, n⟩, ⟨1, n + 2, n + 1⟩⟩

theorem Span.single_inj {m n : Nat} (h : single m = single n) : m = n :=
  congrArg (·.start.offset) h

/-- **What is found of a program, and of one in which something is written out, and how their runs end**:
with the same, or both fail where an operation is written out, or the second one fails where an increment
is. If a run is given values of the types of its variables, and no predeclared name is hidden, the second
one does not fail where an increment is written out. -/
structure Program.WrittenOut (V : Variation) (entryPoint : String) (p p' : Program)
    (t t' : TypeInfo) : Prop where
  result : t'.result = t.result
  run : ∀ config world bindings fuel, (Compilation.run ⟨p, t⟩ config world bindings fuel).Variant V
        (Compilation.run ⟨p', t'⟩ config world bindings fuel) ∨
      (Compilation.run ⟨p', t'⟩ config world bindings fuel).Strays V
  typed : p'.spans.Nodup → (∀ i ∈ p.items, i.SimplePosts) →
    (∀ i ∈ p.items, ∀ b : Builtin, i.name ≠ b.name) → ∀ config, config.entryPoint = entryPoint →
      ∀ world bindings fuel, (∀ b ∈ bindings, p.HasVar entryPoint b.1 (.ofScalar b.2.type)) →
        (Compilation.run ⟨p, t⟩ config world bindings fuel).Variant V
          (Compilation.run ⟨p', t'⟩ config world bindings fuel)

/-- **Assignments may be written out.** A program and one in which assignments are written out are both
accepted or both rejected. If they are accepted, they have the same result type, and for all values from
outside, budgets, clocks and draws their runs end in the same way, as far as the order of evaluation and
the types of values allow. -/
theorem Program.checksAs_of_writtenOut {operations : String → Span → Prop} {ones : Span → Prop}
    {apart : ∀ target span, operations target span → ¬ ones span} {p p' : Program}
    (h : p.Variant (.writingOut operations ones apart) p') (entryPoint : String) :
    Program.ChecksAs (p.WrittenOut (.writingOut operations ones apart) entryPoint p')
      (p.check entryPoint) (p'.check entryPoint) := by
  have hchecks := h.check entryPoint
  generalize hp : p.check entryPoint = r at hchecks ⊢
  generalize hp' : p'.check entryPoint = r' at hchecks ⊢
  cases hchecks with
  | error e e' => exact .error e e'
  | @ok t t' ht =>
    have hgaps : ∀ name, ¬ (Variation.writingOut operations ones apart).gaps name := fun _ => not_false
    have hrun := h.run ht (fun _ => trivial) hgaps
    refine .ok ⟨ht.result, hrun, fun hspans hsimple hnames config hconfig world bindings fuel hvars => ?_⟩
    refine (hrun config world bindings fuel).resolve_right fun hstrays => ?_
    have hnames' : ∀ i ∈ p'.items, ∀ b : Builtin, i.name ≠ b.name := by
      intro i hi b hname
      have hmem : i.name ∈ p.items.map Item.name := h.names_eq ▸ List.mem_map_of_mem hi
      obtain ⟨j, hj, hsame⟩ := List.mem_map.mp hmem
      exact hnames j hj b (hsame.trans hname)
    -- a run that strays is neither sound nor stopped by a name that is undefined
    obtain ⟨hsound, hundefined⟩ := hstrays.not_sound hgaps t'.result
    rcases Compilation.run_sound_or_undefined (c := ⟨p', t'⟩) hp' hspans (h.simplePosts hsimple) hnames'
      (fun b hb => h.hasVar (hvars b hb)) hconfig world fuel with hok | ⟨d, -, hd⟩
    · exact hsound hok
    · exact hundefined d.name hd

/-- A loop that adds up floating-point numbers, with an operation and an increment in it. -/
theorem Program.checksAs_of_writtenOut_total :
    ∃ (operations : String → Span → Prop) (ones : Span → Prop)
      (apart : ∀ target span, operations target span → ¬ ones span) (p p' : Program),
      p.Variant (.writingOut operations ones apart) p' ∧ (∃ t, p.check "evaluate" = .ok t) ∧
        p'.spans.Nodup ∧ (∀ i ∈ p.items, i.SimplePosts) ∧
          (∀ i ∈ p.items, ∀ b : Builtin, i.name ≠ b.name) ∧ p.HasVar "evaluate" "total" .float ∧
            Program.ChecksAs (p.WrittenOut (.writingOut operations ones apart) "evaluate" p')
              (p.check "evaluate") (p'.check "evaluate") := by
  let operations (target : String) (span : Span) : Prop := target = "total" ∧ span = .single 21
  let ones (span : Span) : Prop := span = .single 22
  have hapart (target : String) (span : Span) (h : operations target span) : ¬ ones span := fun h' =>
    absurd (Span.single_inj (h.2.symm.trans h')) (by decide)
  have hold (n : Nat) (hn : n < 21) : (Variation.writingOut operations ones hapart).Old (.single n) :=
    ⟨fun _ h => absurd (Span.single_inj h.2) (by omega), fun h => absurd (Span.single_inj h) (by omega)⟩
  have hvariant : Program.Variant (.writingOut operations ones hapart) ⟨[],
      [.var ⟨"total", some (.named "float64" (.single 0)), some (.literal (.int 0) (.single 1)),
          .single 2⟩,
        .function ⟨"evaluate", [], some (.named "float64" (.single 3)), .mk [
          .loop none (some (.binary .lt (.identifier "total" (.single 4))
            (.literal (.int 3) (.single 5)) (.single 6))) none (.mk [
              .assign "total" (some .add) (.literal (.int 2) (.single 7)) (.single 8),
              .increment "total" true (.single 9)] (.single 10)) (.single 11),
          .ret (some (.identifier "total" (.single 12))) (.single 13)] (.single 14), .single 15⟩]⟩ ⟨[],
      [.var ⟨"total", some (.named "float64" (.single 0)), some (.literal (.int 0) (.single 1)),
          .single 2⟩,
        .function ⟨"evaluate", [], some (.named "float64" (.single 3)), .mk [
          .loop none (some (.binary .lt (.identifier "total" (.single 4))
            (.literal (.int 3) (.single 5)) (.single 6))) none (.mk [
              .assign "total" none (.binary .add (.identifier "total" (.single 20))
                (.literal (.int 2) (.single 7)) (.single 21)) (.single 8),
              .assign "total" (some .add) (.literal (.int 1) (.single 22)) (.single 9)]
                (.single 10)) (.single 11),
          .ret (some (.identifier "total" (.single 12))) (.single 13)] (.single 14), .single 15⟩]⟩ := by
    -- only the two statements in the loop differ
    refine ⟨rfl, .cons (.var ⟨rfl, rfl, .some (.literal (hold 1 (by decide))), rfl⟩)
      (.cons (.function ⟨rfl, rfl, rfl, .mk ?_, rfl⟩) .nil)⟩
    refine .cons (.loop .none (.some (.binary (hold 6 (by decide)) (.identifier trivial)
      (.literal (hold 5 (by decide))))) .none (.mk ?_)) (.cons (.ret (.some (.identifier trivial))) .nil)
    exact .cons (.operation trivial ⟨rfl, rfl⟩ rfl rfl (.literal (hold 7 (by decide))))
      (.cons (.one trivial rfl) .nil)
  have hnames (b : Builtin) : "total" ≠ b.name ∧ "evaluate" ≠ b.name := by
    cases b <;> decide
  refine ⟨operations, ones, hapart, _, _, hvariant, ⟨_, rfl⟩, by decide, ?_, ?_,
    ⟨by decide, _, rfl, rfl⟩, Program.checksAs_of_writtenOut hvariant "evaluate"⟩
  · simp [Item.SimplePosts, Stmt.AllSimplePosts, Stmt.SimplePosts, Expr.SimplePosts]
  · exact List.forall_mem_cons.mpr ⟨fun b => (hnames b).1,
      List.forall_mem_singleton.mpr fun b => (hnames b).2⟩

/-- **Runs need not end in the same way.** Where an operation is written out and both runs fail, they may
fail in different ways; and an increment that is written out fails on a number of another type. -/
theorem Program.run_ne_of_writtenOut :
    (∃ (operations : String → Span → Prop) (apart : ∀ target span, operations target span → ¬ False)
      (p p' : Program) (t : TypeInfo), p.Variant (.writingOut operations (fun _ => False) apart) p' ∧
        p.spans.Nodup ∧ p'.spans.Nodup ∧ p.check "evaluate" = .ok t ∧ p'.check "evaluate" = .ok t ∧
          Compilation.run ⟨p, t⟩ {} .regular [] 1 = .error (.fault .divideByZero) ∧
            Compilation.run ⟨p', t⟩ {} .regular [] 1 = .error (.fault (.undefinedName "B"))) ∧
    ∃ (ones : Span → Prop) (apart : ∀ (_ : String) (span : Span), False → ¬ ones span)
      (p p' : Program) (t : TypeInfo), p.Variant (.writingOut (fun _ _ => False) ones apart) p' ∧
        p.spans.Nodup ∧ p'.spans.Nodup ∧ p.check "evaluate" = .ok t ∧ p'.check "evaluate" = .ok t ∧
          Compilation.run ⟨p, t⟩ {} .regular [("x", .bool true)] 1 = .error (.fault (.increment .bool)) ∧
            Compilation.run ⟨p', t⟩ {} .regular [("x", .bool true)] 1 =
              .error (.fault (.operands .bool .add .int)) := by
  constructor
  · -- The initial value of a variable calls a function that uses the variable behind it.
    let operations (target : String) (span : Span) : Prop := target = "B" ∧ span = .single 21
    have hold (n : Nat) (hn : n ≠ 21) :
        (Variation.writingOut operations (fun _ => False) fun _ _ _ => id).Old (.single n) :=
      ⟨fun _ h => hn (Span.single_inj h.2), id⟩
    refine ⟨operations, fun _ _ _ => id, ⟨[],
      [.var ⟨"A", some (.named "int" (.single 0)),
          some (.call (.identifier "f" (.single 1)) [] (.single 2)), .single 3⟩,
        .var ⟨"B", some (.named "int" (.single 4)), some (.literal (.int 1) (.single 5)), .single 6⟩,
        .function ⟨"f", [], some (.named "int" (.single 7)), .mk [
          .assign "B" (some .add) (.binary .div (.literal (.int 1) (.single 8))
            (.literal (.int 0) (.single 9)) (.single 10)) (.single 11),
          .ret (some (.literal (.int 1) (.single 12))) (.single 13)] (.single 14), .single 15⟩,
        .function ⟨"evaluate", [], some (.named "int" (.single 16)), .mk [
          .ret (some (.identifier "A" (.single 17))) (.single 18)] (.single 19), .single 20⟩]⟩, ⟨[],
      [.var ⟨"A", some (.named "int" (.single 0)),
          some (.call (.identifier "f" (.single 1)) [] (.single 2)), .single 3⟩,
        .var ⟨"B", some (.named "int" (.single 4)), some (.literal (.int 1) (.single 5)), .single 6⟩,
        .function ⟨"f", [], some (.named "int" (.single 7)), .mk [
          .assign "B" none (.binary .add (.identifier "B" (.single 22)) (.binary .div
            (.literal (.int 1) (.single 8)) (.literal (.int 0) (.single 9)) (.single 10))
              (.single 21)) (.single 11),
          .ret (some (.literal (.int 1) (.single 12))) (.single 13)] (.single 14), .single 15⟩,
        .function ⟨"evaluate", [], some (.named "int" (.single 16)), .mk [
          .ret (some (.identifier "A" (.single 17))) (.single 18)] (.single 19), .single 20⟩]⟩,
      ⟨.int, []⟩, ⟨rfl, ?_⟩, by decide, by decide, by decide +kernel, by decide +kernel, rfl, rfl⟩
    refine .cons (.var ⟨rfl, rfl, .some (.call (.identifier trivial) .nil), rfl⟩) ?_
    refine .cons (.var ⟨rfl, rfl, .some (.literal (hold 5 (by decide))), rfl⟩) ?_
    refine .cons (.function ⟨rfl, rfl, rfl, .mk (.cons (.operation trivial ⟨rfl, rfl⟩ rfl rfl
      (.binary (hold 10 (by decide)) (.literal (hold 8 (by decide))) (.literal (hold 9 (by decide)))))
        (.cons (.ret (.some (.literal (hold 12 (by decide))))) .nil)), rfl⟩) ?_
    exact .cons (.function ⟨rfl, rfl, rfl,
      .mk (.cons (.ret (.some (.identifier trivial))) .nil), rfl⟩) .nil
  · -- A variable of integers is given a truth value from outside.
    let ones (span : Span) : Prop := span = .single 12
    have hold (n : Nat) (hn : n ≠ 12) :
        (Variation.writingOut (fun _ _ => False) ones fun _ _ h => h.elim).Old (.single n) :=
      ⟨fun _ => id, fun h => hn (Span.single_inj h)⟩
    refine ⟨ones, fun _ _ h => h.elim, ⟨[],
      [.var ⟨"x", some (.named "int" (.single 0)), some (.literal (.int 1) (.single 1)), .single 2⟩,
        .function ⟨"evaluate", [], some (.named "int" (.single 3)), .mk [
          .increment "x" true (.single 4), .ret (some (.literal (.int 1) (.single 5))) (.single 6)]
            (.single 7), .single 8⟩]⟩, ⟨[],
      [.var ⟨"x", some (.named "int" (.single 0)), some (.literal (.int 1) (.single 1)), .single 2⟩,
        .function ⟨"evaluate", [], some (.named "int" (.single 3)), .mk [
          .assign "x" (some .add) (.literal (.int 1) (.single 12)) (.single 4),
          .ret (some (.literal (.int 1) (.single 5))) (.single 6)] (.single 7), .single 8⟩]⟩,
      ⟨.int, []⟩, ⟨rfl, ?_⟩, by decide, by decide, rfl, rfl, rfl, rfl⟩
    refine .cons (.var ⟨rfl, rfl, .some (.literal (hold 1 (by decide))), rfl⟩) ?_
    exact .cons (.function ⟨rfl, rfl, rfl, .mk (.cons (.one trivial rfl)
      (.cons (.ret (.some (.literal (hold 5 (by decide))))) .nil)), rfl⟩) .nil

end Formula
