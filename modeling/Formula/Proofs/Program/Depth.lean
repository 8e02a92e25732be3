import Formula.Proofs.Program.Nesting
import Formula.Proofs.Program.Within

/-!
# How deep programs are that are read

The levels of nesting bound how deep the parts of a program lie within one another, but not by their
number. What a reader of a level reads is as deep as the levels that may still be opened allow; for
a program these are as many as there are.

## Main definitions

* `Level.Shallow`: what the readers of a level read is no deeper than it can be
* `Item.Given`: what holds of the declarations that are read from tokens

## Main results

* `Level.shallow_withRemaining`: all levels of the grammar are like that
* `Program.nesting_le`: how deep a program can be
-/

namespace Formula

/-! ## Readers -/

namespace Parse

variable {all : List Token}

/-- A type lies no deeper than it may hold types, and these are bounded by the tokens. -/
theorem gives_typeExprWith (fuel : Nat) :
    Gives all (typeExprWith fuel) fun type => type.height ≤ fuel := by
  induction fuel with
  | zero => exact .fail _
  | succ fuel ih =>
    refine .here_bind fun span => .peek_bind fun _ => .ite ?_ ?_
    · refine gives_next.bind fun _ _ => (gives_symbol _ _).bind fun _ _ => ?_
      refine (gives_commaSeparated ih).bind fun params hparams => ?_
      refine (gives_symbol _ _).bind fun _ _ => .peek_bind fun _ => ?_
      -- with a result type or without one, the type ends here
      have hend (result : Option TypeExpr) (hresult : ∀ type ∈ result, type.height ≤ fuel) :
          Gives all (do return .function params result (span.join (← before)) : Parse TypeExpr)
            fun type => type.height ≤ fuel + 1 := by
        refine .before_bind fun _ => .pure ?_
        rw [TypeExpr.height_function]
        exact Nat.succ_le_succ
          (max_le (TypeExpr.heightOfAll_le.mpr hparams) (getD_map_le.mpr hresult))
      refine .ite (.map_bind ih fun type htype => hend (some type) ?_) (.pure_bind (hend none nofun))
      rintro _ ⟨⟩
      exact htype
    · exact (gives_identifier _).bind fun _ _ => .pure (Nat.succ_le_succ (Nat.zero_le _))

theorem gives_typeExpr : Gives all typeExpr fun type => type.height ≤ all.length := by
  intro c hc type c' h
  obtain ⟨hc', hheight⟩ := gives_typeExprWith (c.left + 1) c hc type c' h
  exact ⟨hc', Nat.le_trans hheight hc.length_le⟩

end Parse

open Parse Cursor

/-- **What bounds the depth of what is read** from the tokens `all`: rows count once at most, and
types as `types` at most. -/
structure Count.Bounded (k : Count) (all : List Token) (types : Nat) : Prop where
  lead_le : k.lead ≤ 1
  type_le : ∀ type : TypeExpr, type.height ≤ all.length → k.type type ≤ types

namespace Parse

variable {k : Count} {all : List Token} {types : Nat} (hk : k.Bounded all types)
include hk

theorem gives_type : Gives all typeExpr fun type => k.type type ≤ types :=
  gives_typeExpr.mono hk.type_le

theorem gives_parameterName :
    Gives all parameterName fun r => ∀ p ∈ r, ∀ type ∈ p.1.type, k.type type ≤ types := by
  refine .peek_bind fun _ => .ite (.pure nofun) (.here_bind fun span => ?_)
  refine (gives_identifier _).bind fun name _ => ?_
  refine eat_bind fun _ => .ite (.pure ?_) (.peek_bind fun _ => .ite (.pure ?_) ?_)
  · rintro _ ⟨⟩
    exact nofun
  · rintro _ ⟨⟩
    exact nofun
  · refine (gives_type hk).bind fun type htype => eat_bind fun _ => .pure ?_
    rintro _ ⟨⟩ _ ⟨⟩
    exact htype

omit hk in
theorem type_of_shareTypes {names : List ParameterName} {params : List Parameter}
    (hnames : ∀ n ∈ names, ∀ type ∈ n.type, k.type type ≤ types)
    (h : shareTypes names = .ok params) : k.typesOf params ≤ types := by
  induction names generalizing params with
  | nil =>
    cases h
    exact Nat.zero_le _
  | cons n names ih =>
    rw [shareTypes] at h
    split at h
    · cases h
    · rename_i type htype
      obtain ⟨m, hm, hmtype⟩ := List.exists_of_findSome?_eq_some htype
      cases hs : shareTypes names with
      | error e =>
        rw [hs] at h
        cases h
      | ok ps =>
        rw [hs] at h
        cases h
        exact max_le (hnames m hm type hmtype)
          (ih (fun n hn => hnames n (List.mem_cons_of_mem _ hn)) hs)

theorem gives_signature :
    Gives all signature fun r => max (k.typesOf r.1) (k.typeIn r.2) ≤ types := by
  refine (gives_symbol _ _).bind fun _ _ => ?_
  refine (Gives.collect (Q := fun n => ∀ type ∈ n.type, k.type type ≤ types)
    (gives_parameterName hk)).bind fun names hnames => ?_
  refine .ofExcept_bind fun params hparams => (gives_symbol _ _).bind fun _ _ => ?_
  have htypes := type_of_shareTypes hnames hparams
  refine .peek_bind fun _ => .ite (.pure (max_le htypes (Nat.zero_le _))) ?_
  exact (gives_type hk).bind fun type htype => .pure (max_le htypes htype)

end Parse

/-- **What the readers of a level read is no deeper than can be**, where `n` levels may still be
opened. What a row begins with may be as deep as `before`. -/
structure Level.Shallow (k : Count) (all : List Token) (types n : Nat) (level : Level) : Prop where
  expression : Gives all level.expression fun e => e.nesting k ≤ types + deepest k.lead n
  unary : Gives all level.unary fun e =>
    e.nesting k ≤ types + deepestOperand k.lead n + k.lead * n
  calls : ∀ e before, e.nesting k ≤ before → types + deepestOperand k.lead n ≤ before →
    Gives all (level.calls e) fun e' => e'.nesting k ≤ before + k.lead * n
  binary : ∀ least, Gives all (level.binary least) fun e =>
    e.nesting k ≤ types + deepest k.lead (n + 1)
  operators : ∀ e least before, e.nesting k ≤ before → types + deepestOperand k.lead n ≤ before →
    Gives all (level.operators e least) fun e' => e'.nesting k ≤ before + k.lead * n
  block : Gives all level.block fun b =>
    ∃ m, n = m + 1 ∧ b.nesting k ≤ types + deepest k.lead m + 1
  choice : Gives all level.choice fun s => s.nesting k ≤ types + deepest k.lead n
  statement : Gives all level.statement fun s => s.nesting k ≤ types + deepest k.lead n

namespace Level

section Below

variable {k : Count} {all : List Token} {types n : Nat} {below : Option Level}
  (hk : k.Bounded all types) (hbelow : ∀ level ∈ below, ∃ m, n = m + 1 ∧ level.Shallow k all types m)

include hbelow in
theorem enter_gives {β : Type} {f : Level → Parse β} {Q : β → Prop}
    (h : ∀ m, n = m + 1 → ∀ level : Level, level.Shallow k all types m → Gives all (f level) Q) :
    Gives all (enter below >>= f) Q := by
  cases below with
  | none => exact fun _ _ => .bind (.fail (Q := fun _ _ => False) _) nofun
  | some level =>
    obtain ⟨m, hm, hlevel⟩ := hbelow level rfl
    exact .pure_bind (h m hm level hlevel)

include hbelow

theorem gives_expressionUnder :
    Gives all (expressionUnder below) fun e => e.nesting k ≤ types + deepest k.lead n :=
  enter_gives hbelow fun _ hm _ hlevel => hm ▸ hlevel.binary 1

theorem gives_blockUnder :
    Gives all (blockUnder below) fun b =>
      ∃ m, n = m + 1 ∧ b.nesting k ≤ types + deepest k.lead m + 1 := by
  refine enter_gives hbelow fun m hm level hlevel => ?_
  refine (gives_symbol _ _).bind fun _ _ => ?_
  refine Gives.bind (P := fun ss => ∀ s ∈ ss, s.nesting k ≤ types + deepest k.lead m) ?_ ?_
  · refine .collect (gives_skipSeparators.bind fun _ _ => .peek_bind fun _ => .ite (.pure nofun) ?_)
    refine hlevel.statement.bind fun s hs => .peek_bind fun _ => ?_
    have hend : Gives all (pure (some (s, true))) fun r =>
        ∀ a ∈ r, a.1.nesting k ≤ types + deepest k.lead m := by
      refine .pure ?_
      rintro _ ⟨⟩
      exact hs
    exact .ite ((gives_terminator _).bind fun _ _ => hend) hend
  · intro ss hss
    refine (gives_symbol _ _).bind fun _ _ => .before_bind fun _ => .pure ⟨m, hm, ?_⟩
    exact Nat.succ_le_succ (Stmt.nestingOfAll_le.mpr hss)

/-- A block is no deeper than an expression can be. -/
theorem gives_blockUnder_le :
    Gives all (blockUnder below) fun b => b.nesting k ≤ types + deepest k.lead n := by
  refine (gives_blockUnder hbelow).mono ?_
  rintro b ⟨m, rfl, hb⟩
  have hlt := (deepest_lt_succ k.lead m).1
  omega

omit hbelow in
theorem gives_selectorUnder {e : Expr} {bound : Nat} (he : e.nesting k ≤ bound) :
    Gives all (selectorUnder e) fun e' => e'.nesting k ≤ bound := by
  refine .peek_bind fun _ => .ite (.pure he) ?_
  split
  · refine gives_next.bind fun _ _ => (gives_identifier _).bind fun _ _ => .before_bind fun _ => ?_
    exact .pure he
  · exact .fail _

theorem gives_callsUnder {e : Expr} {before : Nat} (he : e.nesting k ≤ before)
    (hbefore : types + deepestOperand k.lead n ≤ before) :
    Gives all (callsUnder below e) fun e' => e'.nesting k ≤ before + k.lead * n := by
  refine eat_bind fun _ => .ite ?_ (.peek_bind fun _ => .ite (.fail _) ?_)
  · refine enter_gives hbelow fun m hm level hlevel => ?_
    subst hm
    refine (gives_commaSeparated hlevel.expression).bind fun arguments harguments => ?_
    refine (gives_symbol _ _).bind fun _ _ => .before_bind fun _ => ?_
    have hadd := add_two_le_deepestOperand k.lead m
    have hlt := (deepest_lt_succ k.lead m).2
    -- Arguments lie one below the call, and so does the callee.
    have hall := Expr.nestingOfAll_le.mpr harguments
    have hmul : k.lead * (m + 1) = k.lead * m + k.lead := Nat.mul_succ k.lead m
    -- What follows the arguments goes on from a row that is longer by one.
    refine (hlevel.calls _ (before + k.lead) ?_ (by omega)).mono fun e' he' => by omega
    rw [Expr.nesting]
    omega
  · exact .pure (Nat.le_add_right_of_le he)

theorem gives_operatorsUnder {e : Expr} {before : Nat} (least : Nat) (he : e.nesting k ≤ before)
    (hbefore : types + deepestOperand k.lead n ≤ before) :
    Gives all (operatorsUnder below e least) fun e' => e'.nesting k ≤ before + k.lead * n := by
  intro c hc e' c' h
  unfold operatorsUnder at h
  split at h
  · cases h
    exact ⟨hc, Nat.le_add_right_of_le he⟩
  · split at h
    · cases h
      exact ⟨hc, Nat.le_add_right_of_le he⟩
    · rename_i op _ _
      have hrow : Gives all (do
          let level ← enter below
          let right ← level.binary (op.precedence + 1)
          level.operators (.binary op e right (e.span.join right.span)) least : Parse Expr)
          fun e' => e'.nesting k ≤ before + k.lead * n := by
        refine enter_gives hbelow fun m hm level hlevel => ?_
        subst hm
        refine (hlevel.binary _).bind fun right hright => ?_
        have hadd := deepest_add_one_le k.lead m
        have hlt := (deepest_lt_succ k.lead m).2
        have hmul : k.lead * (m + 1) = k.lead * m + k.lead := Nat.mul_succ k.lead m
        -- The row is longer by one, and there is one level less for what follows it.
        refine (hlevel.operators _ least (before + k.lead) ?_ (by omega)).mono fun e' he' => by omega
        rw [Expr.nesting]
        omega
      exact hrow c.advance (advance_within hc) e' c' h

theorem gives_targetUnder {name : String} {start : Span} {kind : TokenKind} {p : Parse Stmt}
    (h : targetUnder? below name start kind = some p) :
    Gives all p fun s => s.nesting k ≤ types + deepest k.lead n := by
  unfold targetUnder? at h
  split at h
  · cases h
    exact (gives_expressionUnder hbelow).bind fun value hvalue => .pure hvalue
  · cases h
    exact .before_bind fun _ => .pure (Nat.zero_le _)
  · cases h
    exact .before_bind fun _ => .pure (Nat.zero_le _)
  · obtain ⟨op, -, rfl⟩ := Option.map_eq_some_iff.mp h
    exact (gives_expressionUnder hbelow).bind fun value hvalue => .pure hvalue

theorem gives_simpleUnder :
    Gives all (simpleUnder below) fun s => s.nesting k ≤ types + deepest k.lead n := by
  have hexpr : Gives all (Stmt.expr <$> expressionUnder below) fun s =>
      s.nesting k ≤ types + deepest k.lead n := .map (gives_expressionUnder hbelow)
  intro c hc s c' h
  unfold simpleUnder at h
  dsimp only at h
  split at h
  · rename_i statement hstatement
    split at hstatement
    · exact gives_targetUnder hbelow hstatement _ (advance_within (advance_within hc)) s c' h
    · cases hstatement
  · exact hexpr c hc s c' h

theorem gives_choiceUnder :
    Gives all (choiceUnder below) fun s => s.nesting k ≤ types + deepest k.lead n := by
  refine gives_next.bind fun start _ => ?_
  refine (gives_expressionUnder hbelow).bind fun condition hcondition => ?_
  refine (gives_blockUnder_le hbelow).bind fun thenBlock hthen => ?_
  have hend (elseBlock : Option Block)
      (helse : ∀ b ∈ elseBlock, b.nesting k ≤ types + deepest k.lead n) :
      Gives all (do return .cond condition thenBlock elseBlock (start.span.join (← before)) :
        Parse Stmt) fun s => s.nesting k ≤ types + deepest k.lead n := by
    refine .before_bind fun _ => .pure ?_
    rw [Stmt.nesting_cond]
    exact max_le hcondition (max_le hthen (getD_map_le.mpr helse))
  refine .peek_bind fun _ => .ite ?_ (.pure_bind (hend none nofun))
  refine gives_skipSeparators.bind fun _ _ => gives_next.bind fun _ _ => .peek_bind fun _ => ?_
  refine .ite (.here_bind fun first => ?_) (.map_bind (gives_blockUnder_le hbelow) fun b hb => ?_)
  · -- An `else if` is a block with one choice, a level further down.
    refine enter_gives hbelow fun m hm level hlevel => hlevel.choice.bind fun nested hnested => ?_
    refine .before_bind fun _ => .pure_bind (hend _ ?_)
    rintro _ ⟨⟩
    subst hm
    have hlt := (deepest_lt_succ k.lead m).1
    have hzero : Stmt.nestingOfAll k [nested] = nested.nesting k := Nat.max_zero _
    rw [Block.nesting, Block.statements_mk, hzero]
    omega
  · refine hend (some b) ?_
    rintro _ ⟨⟩
    exact hb

theorem gives_loopUnder :
    Gives all (loopUnder below) fun s => s.nesting k ≤ types + deepest k.lead n := by
  refine gives_next.bind fun start _ => ?_
  -- whatever stands before the body, the loop ends with it
  have hend (init : Option Stmt) (condition : Option Expr) (post : Option Stmt)
      (hinit : ∀ i ∈ init, i.nesting k ≤ types + deepest k.lead n)
      (hcondition : ∀ c ∈ condition, c.nesting k ≤ types + deepest k.lead n)
      (hpost : ∀ p ∈ post, p.nesting k ≤ types + deepest k.lead n) :
      Gives all (do
        let body ← blockUnder below
        return .loop init condition post body (start.span.join body.span) : Parse Stmt) fun s =>
          s.nesting k ≤ types + deepest k.lead n := by
    refine (gives_blockUnder_le hbelow).bind fun body hbody => .pure ?_
    rw [Stmt.nesting_loop]
    exact max_le (max_le (getD_map_le.mpr hinit) (getD_map_le.mpr hcondition))
      (max_le (getD_map_le.mpr hpost) hbody)
  refine .peek_bind fun _ => .ite (hend none none none nofun nofun nofun) ?_
  refine .optional_bind (gives_simpleUnder hbelow) fun init hinit => eat_bind fun _ => .ite ?_ ?_
  · refine .optional_bind (gives_expressionUnder hbelow) fun condition hcondition => ?_
    refine (gives_symbol _ _).bind fun _ _ => ?_
    refine .optional_bind (gives_simpleUnder hbelow) fun post hpost => ?_
    exact hend init condition post hinit hcondition hpost
  · -- one part without a semicolon is the condition, and has to be an expression
    split
    · refine hend none _ none nofun ?_ nofun
      rintro _ ⟨⟩
      exact hinit _ rfl
    · exact .fail _

theorem gives_returnUnder :
    Gives all (returnUnder below) fun s => s.nesting k ≤ types + deepest k.lead n := by
  refine gives_next.bind fun token _ => .peek_bind fun _ => .ite (.pure (Nat.zero_le _)) ?_
  exact (gives_expressionUnder hbelow).bind fun value hvalue => .pure hvalue

include hk

theorem gives_functionUnder :
    Gives all (functionUnder below) fun e => e.nesting k ≤ types + deepestOperand k.lead n := by
  refine gives_next.bind fun start _ => (gives_signature hk).bind ?_
  rintro ⟨params, result⟩ htypes
  refine (gives_blockUnder hbelow).bind ?_
  rintro ⟨statements, span⟩ ⟨m, rfl, hb⟩
  refine .pure ?_
  have hadd := add_two_le_deepestOperand k.lead m
  have hb : Stmt.nestingOfAll k statements + 1 ≤ types + deepest k.lead m + 1 := hb
  have htypes : max (k.typesOf params) (k.typeIn result) ≤ types := htypes
  rw [Expr.nesting]
  omega

theorem gives_primaryUnder :
    Gives all (primaryUnder below) fun e => e.nesting k ≤ types + deepestOperand k.lead n := by
  have hone : 1 ≤ types + deepestOperand k.lead n :=
    Nat.le_add_left_of_le (deepestOperand_pos k.lead n)
  intro c hc e c' h
  unfold primaryUnder at h
  dsimp only at h
  split at h
  · cases h
    exact ⟨advance_within hc, hone⟩
  · cases h
    exact ⟨advance_within hc, hone⟩
  · have hparens : Gives all (do
        let inner ← expressionUnder below
        let _ ← symbol .rparen .parenthesisClose
        return inner : Parse Expr) fun e => e.nesting k ≤ types + deepestOperand k.lead n := by
      -- Parentheses leave nothing in the tree.
      refine (gives_expressionUnder hbelow).bind fun e he => (gives_symbol _ _).bind fun _ _ => ?_
      exact .pure (Nat.le_trans he
        (Nat.add_le_add_left (deepest_le_deepestOperand k.lead n) types))
    exact hparens c.advance (advance_within hc) e c' h
  · exact gives_functionUnder hk hbelow c hc e c' h
  · cases h

theorem gives_postfixUnder :
    Gives all (postfixUnder below) fun e =>
      e.nesting k ≤ types + deepestOperand k.lead n + k.lead * n := by
  refine (gives_primaryUnder hk hbelow).bind fun e he => ?_
  refine (gives_selectorUnder he).bind fun e he => ?_
  exact gives_callsUnder hbelow he (Nat.le_refl _)

theorem gives_unaryUnder :
    Gives all (unaryUnder below) fun e =>
      e.nesting k ≤ types + deepestOperand k.lead n + k.lead * n := by
  have hmore {m : Nat} (hm : n = m + 1) {b : Nat}
      (hb : b ≤ types + deepestOperand k.lead m + k.lead * m) :
      b + 1 ≤ types + deepestOperand k.lead n + k.lead * n := by
    subst hm
    have hlt := (deepest_lt_succ k.lead m).2
    have hmul : k.lead * (m + 1) = k.lead * m + k.lead := Nat.mul_succ k.lead m
    omega
  have hop (op : UnaryOp) : Gives all (unaryUnder.operator below op) fun e =>
      e.nesting k ≤ types + deepestOperand k.lead n + k.lead * n := by
    refine gives_next.bind fun _ _ => enter_gives hbelow fun m hm level hlevel => ?_
    exact hlevel.unary.bind fun operand hoperand => .pure (hmore hm hoperand)
  refine eat_bind fun _ => .ite ?_ (.peek_bind fun _ => .ite (hop .neg)
    (.peek_bind fun _ => .ite (hop .not) (gives_postfixUnder hk hbelow)))
  -- A plus before an operand takes a level and leaves nothing in the tree.
  refine enter_gives hbelow fun m hm level hlevel => ?_
  exact hlevel.unary.mono fun e he => Nat.le_of_succ_le (hmore hm he)

theorem gives_binaryUnder (least : Nat) :
    Gives all (binaryUnder below least) fun e => e.nesting k ≤ types + deepest k.lead (n + 1) := by
  refine (gives_unaryUnder hk hbelow).bind fun e he => ?_
  refine (gives_operatorsUnder hbelow least he (Nat.le_add_right _ _)).mono fun e' he' => ?_
  rw [deepest_succ]
  omega

theorem gives_variableUnder :
    Gives all (variableUnder below) fun d =>
      (Item.var d).nesting k ≤ types + deepest k.lead n ∧
        ∃ t ∈ all, t.kind = .identifier d.name := by
  refine gives_next.bind fun start _ => (gives_identifier _).bind fun name hname => ?_
  refine .optional_bind (gives_type hk) fun type htype => eat_bind fun _ => ?_
  have hend (value : Option Expr)
      (hvalue : ∀ e ∈ value, e.nesting k ≤ types + deepest k.lead n) :
      Gives all (do return ⟨name, type, value, start.span.join (← before)⟩ : Parse VarDecl) fun d =>
        (Item.var d).nesting k ≤ types + deepest k.lead n ∧
          ∃ t ∈ all, t.kind = .identifier d.name := by
    refine .before_bind fun _ => .pure ⟨max_le ?_ (getD_map_le.mpr hvalue), hname⟩
    exact Nat.le_add_right_of_le (Count.typeIn_le.mpr htype)
  refine .ite (.map_bind (gives_expressionUnder hbelow) fun e he => hend (some e) ?_)
    (.pure_bind (hend none nofun))
  rintro _ ⟨⟩
  exact he

theorem gives_statementUnder :
    Gives all (statementUnder below) fun s => s.nesting k ≤ types + deepest k.lead n := by
  have hvar : Gives all (do
      let d ← variableUnder below
      return .var d.name d.type d.value d.span : Parse Stmt) fun s =>
        s.nesting k ≤ types + deepest k.lead n := by
    refine (gives_variableUnder hk hbelow).bind fun d hd => .pure ?_
    rw [Stmt.nesting_var]
    exact hd.1
  have hblock : Gives all (Stmt.block <$> blockUnder below) fun s =>
      s.nesting k ≤ types + deepest k.lead n :=
    .map ((gives_blockUnder_le hbelow).mono fun b hb => by rwa [Stmt.nesting_block])
  intro c hc s c' h
  unfold statementUnder at h
  split at h
  · exact hvar c hc s c' h
  · exact gives_returnUnder hbelow c hc s c' h
  · cases h
    exact ⟨advance_within hc, Nat.zero_le _⟩
  · cases h
    exact ⟨advance_within hc, Nat.zero_le _⟩
  · exact gives_choiceUnder hbelow c hc s c' h
  · exact gives_loopUnder hbelow c hc s c' h
  · exact hblock c hc s c' h
  · exact gives_simpleUnder hbelow c hc s c' h

/-- **A level above one where nothing too deep is read is such a level.** -/
theorem shallow_under : (under below).Shallow k all types n where
  expression := gives_expressionUnder hbelow
  unary := gives_unaryUnder hk hbelow
  calls _ _ he hbefore := gives_callsUnder hbelow he hbefore
  binary := gives_binaryUnder hk hbelow
  operators _ least _ he hbefore := gives_operatorsUnder hbelow least he hbefore
  block := gives_blockUnder hbelow
  choice := gives_choiceUnder hbelow
  statement := gives_statementUnder hk hbelow

end Below

variable {k : Count} {all : List Token} {types : Nat}

/-- **At all levels of the grammar nothing too deep is read.** -/
theorem shallow_withRemaining (hk : k.Bounded all types) (n : Nat) :
    (withRemaining n).Shallow k all types n := by
  induction n with
  | zero => exact shallow_under hk nofun
  | succ n ih =>
    refine shallow_under hk ?_
    rintro _ ⟨⟩
    exact ⟨n, rfl, ih⟩

end Level

/-! ## Programs -/

/-- **A declaration that is read** is no deeper than can be, and its name is that of a token. -/
structure Item.Given (k : Count) (all : List Token) (types : Nat) (i : Item) : Prop where
  nesting_le : i.nesting k ≤ types + deepest k.lead maxNesting
  name : ∃ t ∈ all, t.kind = .identifier i.name

namespace Parse

variable {k : Count} {all : List Token} {types : Nat}

theorem gives_importPath : Gives all importPath fun _ => True :=
  .here_bind fun _ => (gives_text _).bind fun _ _ => .pure trivial

theorem gives_importDecl : Gives all importDecl fun _ => True := by
  refine gives_next.bind fun _ _ => eat_bind fun _ => .ite ?_ ?_
  · refine Gives.mono (Gives.collect (Q := fun _ => True) ?_) fun _ _ => trivial
    refine gives_skipSeparators.bind fun _ _ => eat_bind fun _ => .ite (.pure nofun) ?_
    exact gives_importPath.bind fun _ _ => .pure fun _ _ => trivial
  · exact gives_importPath.bind fun _ _ => .pure trivial

theorem gives_varDecl (hk : k.Bounded all types) :
    Gives all varDecl fun d => (Item.var d).Given k all types := by
  refine (Level.gives_variableUnder (n := maxNesting) hk ?_).mono fun d hd => ⟨hd.1, hd.2⟩
  rintro _ ⟨⟩
  exact ⟨maxNesting - 1, rfl, Level.shallow_withRemaining hk _⟩

theorem gives_functionDecl (hk : k.Bounded all types) :
    Gives all functionDecl fun d => (Item.function d).Given k all types := by
  refine gives_next.bind fun start _ => (gives_identifier _).bind fun name hname => ?_
  refine (gives_signature hk).bind ?_
  rintro ⟨params, result⟩ htypes
  refine (Level.shallow_withRemaining hk maxNesting).block.bind ?_
  rintro body ⟨m, hm, hbody⟩
  -- A block counts as one more than its statements, and has taken a level for them.
  refine .pure ⟨max_le (Nat.le_add_right_of_le htypes) (Nat.le_trans hbody ?_), hname⟩
  rw [hm]
  have hlt := (deepest_lt_succ k.lead m).1
  omega

theorem gives_declaration (hk : k.Bounded all types) :
    Gives all declaration fun d => ∀ i, d = .item i → i.Given k all types := by
  have himport : Gives all (Declaration.imports <$> importDecl) fun d =>
      ∀ i, d = .item i → i.Given k all types := .map (gives_importDecl.mono fun _ _ => nofun)
  have hvar : Gives all ((Declaration.item ∘ Item.var) <$> varDecl) fun d =>
      ∀ i, d = .item i → i.Given k all types := by
    refine .map ((gives_varDecl hk).mono fun d hd => ?_)
    rintro _ ⟨⟩
    exact hd
  have hfunction : Gives all ((Declaration.item ∘ Item.function) <$> functionDecl) fun d =>
      ∀ i, d = .item i → i.Given k all types := by
    refine .map ((gives_functionDecl hk).mono fun d hd => ?_)
    rintro _ ⟨⟩
    exact hd
  intro c hc d c' h
  unfold declaration at h
  split at h
  · exact himport c hc d c' h
  · exact hvar c hc d c' h
  · exact hfunction c hc d c' h
  · cases h

theorem gives_declarations (hk : k.Bounded all types) :
    Gives all declarations fun ds => ∀ d ∈ ds, ∀ i, d = .item i → i.Given k all types := by
  refine .collect (gives_skipSeparators.bind fun _ _ => .peek_bind fun _ => .ite (.pure nofun) ?_)
  refine (gives_declaration hk).bind fun d hd => (gives_terminator _).bind fun _ _ => .pure ?_
  rintro _ ⟨⟩
  exact hd

end Parse

namespace Program

variable {tokens : List Token} {p : Program}

/-- **What holds of the declarations of a program that is read from tokens.** -/
theorem given_of_ofTokens {k : Count} {types : Nat} (hk : k.Bounded tokens types)
    (h : ofTokens tokens = .ok p) : ∀ i ∈ p.items, i.Given k tokens types := by
  obtain ⟨t, ts, ds, c', rfl, hd, rfl⟩ := ofTokens_eq_ok h
  intro i hi
  obtain ⟨d, hdm, hdi⟩ := List.mem_filterMap.mp hi
  cases d with
  | imports decls => cases hdi
  | item i' =>
    cases hdi
    exact (gives_declarations hk _ (List.suffix_refl _) ds c' hd).2 _ hdm i rfl

theorem nesting_le_of_ofTokens {k : Count} {types : Nat} (hk : k.Bounded tokens types)
    (h : ofTokens tokens = .ok p) : p.nesting k ≤ types + deepest k.lead maxNesting :=
  nesting_le_iff.mpr fun i hi => (given_of_ofTokens hk h i hi).nesting_le

/-- **How deep a program is that is read from tokens.** The levels of nesting are as many as may be
opened. The blocks and expressions within one another are about the square of that at most; with
written types, no more than that and the tokens. -/
theorem nesting_le (h : ofTokens tokens = .ok p) :
    p.nesting .levels ≤ maxNesting ∧
      p.nesting .nodes ≤ maxNesting * (maxNesting - 1) + 2 ∧
      p.nesting .allNodes ≤ tokens.length + (maxNesting * (maxNesting - 1) + 2) := by
  have hdeepest : deepest 1 maxNesting = maxNesting * (maxNesting - 1) + 2 :=
    deepest_one (maxNesting - 2)
  -- The three counts differ in what they make of rows and of written types.
  have hlevels : Count.levels.Bounded tokens 0 := ⟨Nat.zero_le 1, fun _ _ => Nat.le_refl 0⟩
  have hnodes : Count.nodes.Bounded tokens 0 := ⟨Nat.le_refl 1, fun _ _ => Nat.le_refl 0⟩
  have hall : Count.allNodes.Bounded tokens tokens.length := ⟨Nat.le_refl 1, fun _ h => h⟩
  refine ⟨?_, ?_, ?_⟩
  · simpa [Count.levels, deepest_zero] using nesting_le_of_ofTokens hlevels h
  · simpa [Count.nodes, hdeepest] using nesting_le_of_ofTokens hnodes h
  · simpa [Count.allNodes, hdeepest] using nesting_le_of_ofTokens hall h

/-- A function that returns a number, negated and added to sixty times. -/
def leaning : List TokenKind :=
  [.keyword .funcK, .identifier "evaluate", .symbol .lparen, .symbol .rparen, .symbol .lbrace,
    .keyword .returnK] ++ List.replicate 60 (.symbol .minus) ++ [.constant (.int 1)] ++
    (List.replicate 60 [.symbol .plus, .constant (.int 1)]).flatten ++
    [.newline, .symbol .rbrace, .eof]

/-- A variable whose type is that of a function of functions. -/
def towering : List TokenKind :=
  [.keyword .varK, .identifier "f"] ++
    (List.replicate 150 [.keyword .funcK, .symbol .lparen]).flatten ++ [.identifier "int"] ++
    List.replicate 150 (.symbol .rparen) ++ [.newline, .eof]

theorem exists_of_nesting {k : Count} {kinds : List TokenKind} {n : Nat}
    (h : ((ofTokens (kinds.map (⟨·, .nowhere⟩))).toOption.map (Program.nesting k)) = some n) :
    ∃ p, ofTokens (kinds.map (⟨·, .nowhere⟩)) = .ok p ∧ p.nesting k = n := by
  cases hp : ofTokens (kinds.map (⟨·, .nowhere⟩)) with
  | error e =>
    rw [hp] at h
    cases h
  | ok p =>
    rw [hp] at h
    exact ⟨p, rfl, Option.some.inj h⟩

theorem nesting_le_leaning : ∃ p, ofTokens (leaning.map (⟨·, .nowhere⟩)) = .ok p ∧
    p.nesting .levels ≤ maxNesting ∧ p.nesting .nodes ≤ maxNesting * (maxNesting - 1) + 2 ∧
      p.nesting .allNodes ≤
        (leaning.map (⟨·, .nowhere⟩ : TokenKind → Token)).length +
          (maxNesting * (maxNesting - 1) + 2) := by
  have hlevels : (ofTokens (leaning.map (⟨·, .nowhere⟩))).toOption.map (Program.nesting .levels) =
      some 62 := by decide +kernel
  obtain ⟨p, hp, -⟩ := exists_of_nesting hlevels
  exact ⟨p, hp, nesting_le hp⟩

/-- More expressions, and more written types, lie within one another than there are levels. -/
theorem nesting_leaning_towering :
    (∃ p, ofTokens (leaning.map (⟨·, .nowhere⟩)) = .ok p ∧ p.nesting .nodes = 122) ∧
      (∃ p, ofTokens (towering.map (⟨·, .nowhere⟩)) = .ok p ∧ p.nesting .allNodes = 151) ∧
        maxNesting < 122 := by
  refine ⟨exists_of_nesting ?_, exists_of_nesting ?_, by decide⟩
  · decide +kernel
  · decide +kernel

end Program

end Formula
