import Formula.Program.Grammar
import Formula.Proofs.Shift.Carry
import Formula.Proofs.Shift.Trees

/-!
# Reading tokens further down in a text

The grammar looks at the kinds of tokens alone; spans are only joined. So from tokens further down
each reader reads what it would have read, further down, and fails where it would have failed. This
goes through the grammar level by level, as the readers of a level call those of the next one.

## Main definitions

* `Token.shift`, `Cursor.shift`, `ParseError.shift`: tokens, cursors and errors further down
* `Parse.Shifts`: a reader reads further down what another one reads
* `Level.Shifts`: the readers of a level read further down what they read

## Main results

* `Parse.shifts_collect`: a loop of readers
* `Level.shifts_under`: a level above one whose readers shift
* `Parse.shifts_declarations`: the declarations of a text
-/

namespace Formula

variable {k : Descent}

/-! ## Tokens and cursors -/

/-- A token further down. -/
def Token.shift (k : Shift) (t : Token) : Token :=
  ⟨t.kind, t.span.shift k⟩

/-- A cursor further down, with the tokens that are left. -/
def Cursor.shift (k : Shift) (c : Cursor) : Cursor :=
  ⟨c.before.shift k, c.current.shift k, c.rest.map (Token.shift k)⟩

/-- An error further down. -/
def ParseError.shift (k : Shift) : ParseError → ParseError
  | noTokens => .noTokens
  | .at cause token => .at cause (token.shift k)
  | untypedParameter name span => .untypedParameter name (span.shift k)

namespace Cursor

@[simp]
theorem kind_shift (c : Cursor) : (c.shift k).kind = c.kind := rfl

@[simp]
theorem current_kind_shift (c : Cursor) : (c.shift k).current.kind = c.current.kind := rfl

@[simp]
theorem isSymbol_shift (c : Cursor) (s : Symbol) : (c.shift k).isSymbol s = c.isSymbol s := rfl

@[simp]
theorem isKeyword_shift (c : Cursor) (w : Keyword) : (c.shift k).isKeyword w = c.isKeyword w := rfl

@[simp]
theorem isEof_shift (c : Cursor) : (c.shift k).isEof = c.isEof := rfl

@[simp]
theorem isTerminator_shift (c : Cursor) : (c.shift k).isTerminator = c.isTerminator := rfl

@[simp]
theorem left_shift (c : Cursor) : (c.shift k).left = c.left :=
  List.length_map ..

@[simp]
theorem advance_shift (c : Cursor) : (c.shift k).advance = c.advance.shift k := by
  obtain ⟨before, current, rest⟩ := c
  cases rest <;> rfl

@[simp]
theorem elseFollows_shift (c : Cursor) : (c.shift k).elseFollows = c.elseFollows := by
  have h (ts : List Token) : (ts.map (Token.shift k)).dropWhile (fun t => t.kind == .newline) =
      (ts.dropWhile fun t => t.kind == .newline).map (Token.shift k) := by
    induction ts with
    | nil => rfl
    | cons t ts ih =>
      rw [List.map_cons, List.dropWhile_cons, List.dropWhile_cons, ih, Token.shift]
      split <;> rfl
  have hleft : (c.shift k).current :: (c.shift k).rest = (c.current :: c.rest).map (Token.shift k) :=
    rfl
  rw [elseFollows, elseFollows, hleft, h]
  cases (c.current :: c.rest).dropWhile fun t => t.kind == .newline <;> rfl

end Cursor

/-! ## Readers -/

namespace Parse

variable {α β γ δ : Type} {value : α → β}

/-- **A reader reads further down what another one reads.** -/
abbrev Shifts (k : Shift) (value : α → β) (x : Parse α) (y : Parse β) : Prop :=
  Carries (Cursor.shift k · = ·) (ParseError.shift k · = ·) value x y

theorem shifts_fail (cause : ParseCause) :
    Shifts k value (fail cause) (fail cause) :=
  .of_eq fun _ => rfl

theorem shifts_next : Shifts k (Token.shift k) next next := by
  refine .of_eq fun c => ?_
  rw [next, Cursor.advance_shift]
  rfl

theorem shifts_peek {p : Cursor → Bool} (h : ∀ c, p (c.shift k) = p c) :
    Shifts k id (peek p) (peek p) := by
  refine .of_eq fun c => ?_
  rw [peek, h]
  rfl

theorem shifts_here : Shifts k (Span.shift k) here here :=
  .of_eq fun _ => rfl

theorem shifts_before : Shifts k (Span.shift k) before before :=
  .of_eq fun _ => rfl

theorem shifts_eat (s : Symbol) : Shifts k id (eat s) (eat s) := by
  refine .of_eq fun c => ?_
  rw [eat, eat, Cursor.isSymbol_shift, Cursor.advance_shift]
  split <;> rfl

theorem shifts_symbol (s : Symbol) (what : Wanted) :
    Shifts k (Token.shift k) (symbol s what) (symbol s what) := by
  refine .of_eq fun c => ?_
  rw [symbol, symbol, Cursor.isSymbol_shift]
  split
  · exact shifts_next.eq c
  · rfl

theorem shifts_identifier (what : Wanted) : Shifts k id (identifier what) (identifier what) := by
  refine .of_eq fun c => ?_
  rw [identifier, identifier, Cursor.kind_shift, Cursor.advance_shift]
  split <;> rfl

theorem shifts_text (what : Wanted) : Shifts k id (text what) (text what) := by
  refine .of_eq fun c => ?_
  rw [text, text, Cursor.kind_shift, Cursor.advance_shift]
  split <;> rfl

theorem shifts_terminator (what : Wanted) : Shifts k id (terminator what) (terminator what) := by
  refine .of_eq fun c => ?_
  rw [terminator, terminator, Cursor.isEof_shift, Cursor.isTerminator_shift, Cursor.advance_shift]
  split
  · rfl
  · split <;> rfl

theorem skipFrom_shift (b : Span) (t : Token) (ts : List Token) :
    skipFrom (b.shift k) (t.shift k) (ts.map (Token.shift k)) = (skipFrom b t ts).shift k := by
  induction ts generalizing b t with
  | nil => rfl
  | cons u us ih =>
    rw [List.map_cons, skipFrom, skipFrom]
    change (if Cursor.isSeparator ⟨b, t, u :: us⟩ then _ else _) = _
    split
    · exact ih t.span u
    · rfl

theorem shifts_skipSeparators : Shifts k id skipSeparators skipSeparators := by
  refine .of_eq fun c => ?_
  rw [skipSeparators, skipSeparators]
  exact congrArg (fun c => Except.ok ((), c)) (skipFrom_shift c.before c.current c.rest)

/-- A loop ends after the same rounds, as these leave the same number of tokens. -/
theorem shifts_collect {step : Parse (Option (α × Bool))} {step' : Parse (Option (β × Bool))}
    (h : Shifts k (Option.map (Prod.map value id)) step step') :
    Shifts k (List.map value) (collect step) (collect step') := by
  refine .of_eq fun c => ?_
  -- as many tokens are left further down, so the rounds end together
  fun_induction collect step c with
  | case1 c e hs =>
    rw [collect, h.eq c, hs]
    rfl
  | case2 c c₁ hs =>
    rw [collect, h.eq c, hs]
    rfl
  | case3 c a more c₁ hs hlt e he ih
  | case4 c a more c₁ hs hlt as c₂ he ih =>
    rw [collect, h.eq c, hs]
    simp only [Except.map, Except.mapError_ok, Prod.map, Option.map_some, id_eq, Cursor.left_shift,
      hlt, and_self, dif_pos]
    rw [ih, he]
    rfl
  | case5 c a more c₁ hs hlt =>
    rw [collect, h.eq c, hs]
    simp only [Except.map, Except.mapError_ok, Prod.map, Option.map_some, id_eq, Cursor.left_shift,
      hlt, dif_neg, not_false_eq_true]
    rfl

theorem shifts_commaSeparated {item : Parse α} {item' : Parse β} (h : Shifts k value item item') :
    Shifts k (List.map value) (commaSeparated item) (commaSeparated item') := by
  apply shifts_collect
  apply (shifts_peek fun _ => rfl).bind
  intro b
  apply Carries.ite Iff.rfl
  · exact .pure rfl
  · apply h.bind
    intro a
    exact (shifts_eat .comma).bind fun b => .pure rfl

/-- What may be there or not, before what follows it. -/
theorem shifts_some_bind {x : Parse α} {y : Parse β} {value' : γ → δ} {f : Option α → Parse γ}
    {g : Option β → Parse δ} (h : Shifts k value x y)
    (hf : ∀ r, Shifts k value' (f r) (g (r.map value))) :
    Shifts k value' (some <$> x >>= f) (some <$> y >>= g) := by
  have hsome : Shifts k (Option.map value) (some <$> x) (some <$> y) := h.map fun _ => rfl
  exact hsome.bind hf

@[inherit_doc shifts_some_bind]
theorem shifts_none_bind {value' : γ → δ} {f : Option α → Parse γ}
    {g : Option β → Parse δ} (hf : ∀ r, Shifts k value' (f r) (g (r.map value))) :
    Shifts k value' (pure none >>= f) (pure none >>= g) :=
  hf none

/-! ## Types and parameters -/

theorem shifts_typeExprWith (fuel : Nat) :
    Shifts k (TypeExpr.shift k) (typeExprWith fuel) (typeExprWith fuel) := by
  induction fuel with
  | zero => exact shifts_fail _
  | succ fuel ih =>
    apply shifts_here.bind
    intro span
    apply (shifts_peek fun _ => rfl).bind
    intro b
    apply Carries.ite Iff.rfl
    · apply shifts_next.bind
      intro _
      apply (shifts_symbol _ _).bind
      intro _
      apply (shifts_commaSeparated ih).bind
      intro params
      apply (shifts_symbol _ _).bind
      intro _
      have hend (result : Option TypeExpr) : Shifts k (TypeExpr.shift k)
          (before >>= fun s => pure (.function params result (span.join s)))
          (before >>= fun s => pure (.function (params.map (TypeExpr.shift k))
            (result.map (TypeExpr.shift k)) ((span.shift k).join s))) :=
        shifts_before.bind fun s => .pure (by simp)
      apply (shifts_peek fun _ => rfl).bind
      intro b
      apply Carries.ite Iff.rfl
      · exact shifts_some_bind ih hend
      · exact shifts_none_bind hend
    · exact (shifts_identifier _).bind fun name => .pure rfl

theorem shifts_typeExpr : Shifts k (TypeExpr.shift k) typeExpr typeExpr := by
  rintro c _ rfl
  rw [typeExpr, typeExpr, Cursor.left_shift]
  exact shifts_typeExprWith _ c _ rfl

/-- A name in a list of parameters further down. -/
def ParameterName.shift (k : Shift) (p : ParameterName) : ParameterName :=
  ⟨p.name, p.span.shift k, p.type.map (TypeExpr.shift k)⟩

theorem shifts_parameterName :
    Shifts k (Option.map (Prod.map (ParameterName.shift k) id)) parameterName parameterName := by
  apply (shifts_peek fun _ => rfl).bind
  intro b
  apply Carries.ite Iff.rfl
  · exact .pure rfl
  apply shifts_here.bind
  intro span
  apply (shifts_identifier _).bind
  intro name
  apply (shifts_eat .comma).bind
  intro b
  apply Carries.ite Iff.rfl
  · exact .pure rfl
  apply (shifts_peek fun _ => rfl).bind
  intro b
  apply Carries.ite Iff.rfl
  · exact .pure rfl
  apply shifts_typeExpr.bind
  intro type
  exact (shifts_eat .comma).bind fun b => .pure rfl

theorem shareTypes_shift (names : List ParameterName) :
    shareTypes (names.map (ParameterName.shift k)) =
      ((shareTypes names).map (List.map (Parameter.shift k))).mapError (ParseError.shift k) := by
  have hfind (names : List ParameterName) :
      (names.map (ParameterName.shift k)).findSome? (·.type) =
        (names.findSome? (·.type)).map (TypeExpr.shift k) := by
    induction names with
    | nil => rfl
    | cons p names ih =>
      rw [List.map_cons, List.findSome?_cons, List.findSome?_cons, ih, ParameterName.shift]
      cases p.type <;> rfl
  induction names with
  | nil => rfl
  | cons p names ih =>
    have hp := hfind (p :: names)
    rw [List.map_cons] at hp ⊢
    rw [shareTypes, shareTypes, hp, ih]
    cases (p :: names).findSome? (·.type) with
    | none => rfl
    | some type => cases shareTypes names <;> rfl

theorem shifts_signature :
    Shifts k (Prod.map (List.map (Parameter.shift k)) (Option.map (TypeExpr.shift k))) signature
      signature := by
  apply (shifts_symbol _ _).bind
  intro _
  apply (shifts_collect shifts_parameterName).bind
  intro names
  apply (Carries.lift (fun _ => rfl) (shareTypes_shift names)).bind
  intro params
  apply (shifts_symbol _ _).bind
  intro _
  apply (shifts_peek fun _ => rfl).bind
  intro b
  apply Carries.ite Iff.rfl
  · exact .pure rfl
  · exact shifts_typeExpr.bind fun type => .pure rfl

end Parse

/-! ## Expressions and statements -/

open Parse

/-- **The readers of a level read further down what they read.** -/
structure Level.Shifts (k : Shift) (level : Level) : Prop where
  expression : Parse.Shifts k (Expr.shift k) level.expression level.expression
  unary : Parse.Shifts k (Expr.shift k) level.unary level.unary
  calls : ∀ e, Parse.Shifts k (Expr.shift k) (level.calls e) (level.calls (e.shift k))
  binary : ∀ least, Parse.Shifts k (Expr.shift k) (level.binary least) (level.binary least)
  operators : ∀ e least,
    Parse.Shifts k (Expr.shift k) (level.operators e least) (level.operators (e.shift k) least)
  block : Parse.Shifts k (Block.shift k) level.block level.block
  choice : Parse.Shifts k (Stmt.shift k) level.choice level.choice
  statement : Parse.Shifts k (Stmt.shift k) level.statement level.statement

namespace Level

section Below

variable {below : Option Level} (hbelow : ∀ level ∈ below, level.Shifts k)
include hbelow

/-- What is read one level further down. -/
theorem shifts_enter_bind {α β : Type} {value : α → β} {f : Level → Parse α} {g : Level → Parse β}
    (h : ∀ level, level.Shifts k → Parse.Shifts k value (f level) (g level)) :
    Parse.Shifts k value (enter below >>= f) (enter below >>= g) := by
  cases below with
  | none => exact shifts_fail _
  | some level => exact h level (hbelow level rfl)

theorem shifts_expressionUnder :
    Parse.Shifts k (Expr.shift k) (expressionUnder below) (expressionUnder below) :=
  shifts_enter_bind hbelow fun _ hlevel => hlevel.binary 1

theorem shifts_blockUnder :
    Parse.Shifts k (Block.shift k) (blockUnder below) (blockUnder below) := by
  apply shifts_enter_bind hbelow
  intro level hlevel
  apply (shifts_symbol _ _).bind
  intro opening
  have hstatement : Parse.Shifts k (Option.map (Prod.map (Stmt.shift k) id))
      (do
        skipSeparators
        if ← peek (fun c => c.isSymbol .rbrace || c.isEof) then return none
        let s ← level.statement
        if !(← peek (·.isSymbol .rbrace)) then terminator .statementEnd
        return some (s, true))
      (do
        skipSeparators
        if ← peek (fun c => c.isSymbol .rbrace || c.isEof) then return none
        let s ← level.statement
        if !(← peek (·.isSymbol .rbrace)) then terminator .statementEnd
        return some (s, true)) := by
    apply shifts_skipSeparators.bind
    intro _
    apply (shifts_peek fun _ => rfl).bind
    intro b
    apply Carries.ite Iff.rfl
    · exact .pure rfl
    apply hlevel.statement.bind
    intro s
    apply (shifts_peek fun _ => rfl).bind
    intro b
    apply Carries.ite Iff.rfl
    · exact (shifts_terminator _).bind fun _ => .pure rfl
    · exact .pure rfl
  apply (shifts_collect hstatement).bind
  intro statements
  apply (shifts_symbol _ _).bind
  intro _
  apply shifts_before.bind
  intro s
  apply Carries.pure
  rw [Block.shift_mk, Span.shift_join]
  rfl

theorem shifts_functionUnder :
    Parse.Shifts k (Expr.shift k) (functionUnder below) (functionUnder below) := by
  apply shifts_next.bind
  intro t
  apply shifts_signature.bind
  rintro ⟨params, result⟩
  apply (shifts_blockUnder hbelow).bind
  intro body
  apply Carries.pure
  rw [Expr.shift_function, Span.shift_join, ← Block.span_shift]
  rfl

theorem shifts_primaryUnder :
    Parse.Shifts k (Expr.shift k) (primaryUnder below) (primaryUnder below) := by
  rintro c _ rfl
  simp only [primaryUnder, Cursor.advance_shift, Cursor.current_kind_shift]
  generalize c.current.kind = kind
  split
  · exact .ok rfl rfl
  · exact .ok rfl rfl
  · refine ((shifts_expressionUnder hbelow).bind ?_) c.advance _ rfl
    intro e
    exact (shifts_symbol _ _).bind fun _ => .pure rfl
  · exact shifts_functionUnder hbelow c _ rfl
  · exact .error rfl

omit hbelow in
theorem shifts_selectorUnder (e : Expr) :
    Parse.Shifts k (Expr.shift k) (selectorUnder e) (selectorUnder (e.shift k)) := by
  apply (shifts_peek fun _ => rfl).bind
  intro b
  apply Carries.ite Iff.rfl
  · exact .pure rfl
  cases e with
  | identifier target span =>
    apply shifts_next.bind
    intro _
    apply (shifts_identifier _).bind
    intro member
    exact shifts_before.bind fun s => .pure (by rw [Expr.shift_selector, Span.shift_join]; rfl)
  | _ => exact shifts_fail _

theorem shifts_callsUnder (e : Expr) :
    Parse.Shifts k (Expr.shift k) (callsUnder below e) (callsUnder below (e.shift k)) := by
  apply (shifts_eat .lparen).bind
  intro b
  apply Carries.ite Iff.rfl
  · apply shifts_enter_bind hbelow
    intro level hlevel
    apply (shifts_commaSeparated hlevel.expression).bind
    intro arguments
    apply (shifts_symbol _ _).bind
    intro _
    apply shifts_before.bind
    intro s
    -- the call that was read is what the next level goes on from
    have h := hlevel.calls (.call e arguments (e.span.join s))
    rwa [Expr.shift_call, Span.shift_join, ← Expr.span_shift] at h
  · apply (shifts_peek fun _ => rfl).bind
    intro b
    exact .ite Iff.rfl (shifts_fail _) (.pure rfl)

theorem shifts_postfixUnder :
    Parse.Shifts k (Expr.shift k) (postfixUnder below) (postfixUnder below) := by
  apply (shifts_primaryUnder hbelow).bind
  intro e
  apply (shifts_selectorUnder e).bind
  intro e
  exact shifts_callsUnder hbelow e

theorem shifts_operator (op : UnaryOp) :
    Parse.Shifts k (Expr.shift k) (unaryUnder.operator below op)
      (unaryUnder.operator below op) := by
  apply shifts_next.bind
  intro t
  apply shifts_enter_bind hbelow
  intro level hlevel
  apply hlevel.unary.bind
  intro operand
  apply Carries.pure
  rw [Expr.shift_unary, Span.shift_join, ← Expr.span_shift]
  rfl

theorem shifts_unaryUnder :
    Parse.Shifts k (Expr.shift k) (unaryUnder below) (unaryUnder below) := by
  apply (shifts_eat .plus).bind
  intro b
  apply Carries.ite Iff.rfl
  · exact shifts_enter_bind hbelow fun level hlevel => hlevel.unary
  apply (shifts_peek fun _ => rfl).bind
  intro b
  apply Carries.ite Iff.rfl
  · exact shifts_operator hbelow .neg
  apply (shifts_peek fun _ => rfl).bind
  intro b
  apply Carries.ite Iff.rfl
  · exact shifts_operator hbelow .not
  · exact shifts_postfixUnder hbelow

theorem shifts_operatorsUnder (left : Expr) (least : Nat) :
    Parse.Shifts k (Expr.shift k) (operatorsUnder below left least)
      (operatorsUnder below (left.shift k) least) := by
  rintro c _ rfl
  simp only [operatorsUnder, Cursor.kind_shift, Cursor.advance_shift]
  cases c.kind.binaryOp? with
  | none => exact .ok rfl rfl
  | some op =>
    dsimp only
    split
    · exact .ok rfl rfl
    · refine (shifts_enter_bind hbelow ?_) c.advance _ rfl
      intro level hlevel
      apply (hlevel.binary _).bind
      intro right
      have h := hlevel.operators (.binary op left right (left.span.join right.span)) least
      rwa [Expr.shift_binary, Span.shift_join, ← Expr.span_shift, ← Expr.span_shift] at h

theorem shifts_binaryUnder (least : Nat) :
    Parse.Shifts k (Expr.shift k) (binaryUnder below least) (binaryUnder below least) :=
  (shifts_unaryUnder hbelow).bind fun left => shifts_operatorsUnder hbelow left least

theorem shifts_variableUnder :
    Parse.Shifts k (VarDecl.shift k) (variableUnder below) (variableUnder below) := by
  apply shifts_next.bind
  intro t
  apply (shifts_identifier _).bind
  intro name
  -- Both the type and the value may be missing; what follows is read in either case.
  have hend (type : Option TypeExpr) (value : Option Expr) : Parse.Shifts k (VarDecl.shift k)
      (before >>= fun s => pure ⟨name, type, value, t.span.join s⟩)
      (before >>= fun s => pure ⟨name, type.map (TypeExpr.shift k), value.map (Expr.shift k),
        (t.shift k).span.join s⟩) :=
    shifts_before.bind fun s => .pure (by rw [VarDecl.shift, Span.shift_join]; rfl)
  apply (shifts_peek fun _ => rfl).bind
  intro b
  refine Carries.ite Iff.rfl (shifts_none_bind ?value) (shifts_some_bind shifts_typeExpr ?value)
  intro type
  apply (shifts_eat .equals).bind
  intro b
  apply Carries.ite Iff.rfl
  · exact shifts_some_bind (shifts_expressionUnder hbelow) (hend type)
  · exact shifts_none_bind (hend type)

/-- What follows a name and the token after it makes them the start of a statement, or not. -/
theorem shifts_targetUnder? (name : String) (start : Span) (kind : TokenKind) :
    (∃ x y, targetUnder? below name start kind = some x ∧
      targetUnder? below name (start.shift k) kind = some y ∧
      Parse.Shifts k (Stmt.shift k) x y) ∨
    targetUnder? below name start kind = none ∧
      targetUnder? below name (start.shift k) kind = none := by
  have hbefore (up : Bool) : Parse.Shifts k (Stmt.shift k)
      (before >>= fun s => pure (.increment name up (start.join s)))
      (before >>= fun s => pure (.increment name up ((start.shift k).join s))) :=
    shifts_before.bind fun s => .pure (by rw [Stmt.shift, Span.shift_join])
  -- the span of the statement goes from the name to the end of the value
  have hassign (op : Option BinaryOp) : Parse.Shifts k (Stmt.shift k)
      (expressionUnder below >>= fun value =>
        pure (.assign name op value (start.join value.span)))
      (expressionUnder below >>= fun value =>
        pure (.assign name op value ((start.shift k).join value.span))) :=
    (shifts_expressionUnder hbelow).bind fun value => .pure (by
      rw [Stmt.shift, Span.shift_join, ← Expr.span_shift])
  have hdefine : Parse.Shifts k (Stmt.shift k)
      (expressionUnder below >>= fun value => pure (.define name value (start.join value.span)))
      (expressionUnder below >>= fun value =>
        pure (.define name value ((start.shift k).join value.span))) :=
    (shifts_expressionUnder hbelow).bind fun value => .pure (by
      rw [Stmt.shift, Span.shift_join, ← Expr.span_shift])
  unfold targetUnder?
  split
  · exact .inl ⟨_, _, rfl, rfl, hdefine⟩
  · exact .inl ⟨_, _, rfl, rfl, hbefore true⟩
  · exact .inl ⟨_, _, rfl, rfl, hbefore false⟩
  · cases TokenKind.assignment? kind with
    | none => exact .inr ⟨rfl, rfl⟩
    | some op => exact .inl ⟨_, _, rfl, rfl, hassign op⟩

theorem shifts_simpleUnder :
    Parse.Shifts k (Stmt.shift k) (simpleUnder below) (simpleUnder below) := by
  have hexpr : Parse.Shifts k (Stmt.shift k) (Stmt.expr <$> expressionUnder below)
      (Stmt.expr <$> expressionUnder below) :=
    (shifts_expressionUnder hbelow).map fun _ => rfl
  rintro ⟨b, ⟨kind, span⟩, rest⟩ _ rfl
  cases kind with
  | identifier name =>
    cases rest with
    | nil => exact hexpr _ _ rfl
    | cons second rest =>
      -- The name starts a statement of its own if the token after it says so.
      rcases shifts_targetUnder? hbelow (k := k) name span second.kind with
        ⟨x, y, hx, hy, hxy⟩ | ⟨hx, hy⟩
      · have h := hxy (Cursor.mk b ⟨.identifier name, span⟩ (second :: rest)).advance.advance _ rfl
        rw [← Cursor.advance_shift, ← Cursor.advance_shift] at h
        simpa [simpleUnder, Cursor.kind, Cursor.shift, Token.shift, hx, hy] using h
      · have h := hexpr ⟨b, ⟨.identifier name, span⟩, second :: rest⟩ _ rfl
        simpa [simpleUnder, Cursor.kind, Cursor.shift, Token.shift, hx, hy] using h
  | _ => exact hexpr _ _ rfl

theorem shifts_choiceUnder :
    Parse.Shifts k (Stmt.shift k) (choiceUnder below) (choiceUnder below) := by
  apply shifts_next.bind
  intro t
  apply (shifts_expressionUnder hbelow).bind
  intro condition
  apply (shifts_blockUnder hbelow).bind
  intro thenBlock
  -- the span of the choice is put together where the last block was read
  have hend (elseBlock : Option Block) : Parse.Shifts k (Stmt.shift k)
      (before >>= fun s => pure (.cond condition thenBlock elseBlock (t.span.join s)))
      (before >>= fun s => pure (.cond (condition.shift k) (thenBlock.shift k)
        (elseBlock.map (Block.shift k)) ((t.shift k).span.join s))) :=
    shifts_before.bind fun s => .pure (by rw [Stmt.shift_cond, Span.shift_join]; rfl)
  apply (shifts_peek Cursor.elseFollows_shift).bind
  intro b
  apply Carries.ite Iff.rfl
  · apply shifts_skipSeparators.bind
    intro _
    apply shifts_next.bind
    intro _
    apply (shifts_peek fun _ => rfl).bind
    intro b
    apply Carries.ite Iff.rfl
    · apply shifts_here.bind
      intro first
      apply shifts_enter_bind hbelow
      intro level hlevel
      apply hlevel.choice.bind
      intro nested
      apply shifts_before.bind
      intro s
      have h := hend (some (.mk [nested] (first.join s)))
      rw [Option.map_some, Block.shift_mk, Span.shift_join] at h
      exact h
    · exact shifts_some_bind (shifts_blockUnder hbelow) hend
  · exact shifts_none_bind hend

theorem shifts_loopUnder :
    Parse.Shifts k (Stmt.shift k) (loopUnder below) (loopUnder below) := by
  apply shifts_next.bind
  intro t
  have hend (init : Option Stmt) (condition : Option Expr) (post : Option Stmt) :
      Parse.Shifts k (Stmt.shift k)
        (blockUnder below >>= fun body =>
          pure (.loop init condition post body (t.span.join body.span)))
        (blockUnder below >>= fun body =>
          pure (.loop (init.map (Stmt.shift k)) (condition.map (Expr.shift k))
            (post.map (Stmt.shift k)) body ((t.shift k).span.join body.span))) :=
    (shifts_blockUnder hbelow).bind fun body => .pure (by
      rw [Stmt.shift_loop, Span.shift_join, ← Block.span_shift]
      rfl)
  apply (shifts_peek fun _ => rfl).bind
  intro b
  apply Carries.ite Iff.rfl
  · exact hend none none none
  -- Each part may be missing; what follows it is read in either case.
  apply (shifts_peek fun _ => rfl).bind
  intro b
  refine Carries.ite Iff.rfl (shifts_none_bind ?rest)
    (shifts_some_bind (shifts_simpleUnder hbelow) ?rest)
  intro init
  apply (shifts_eat .semicolon).bind
  intro b
  apply Carries.ite Iff.rfl
  · apply (shifts_peek fun _ => rfl).bind
    intro b
    refine Carries.ite Iff.rfl (shifts_none_bind ?rounds)
      (shifts_some_bind (shifts_expressionUnder hbelow) ?rounds)
    intro condition
    apply (shifts_symbol _ _).bind
    intro _
    apply (shifts_peek fun _ => rfl).bind
    intro b
    apply Carries.ite Iff.rfl
    · exact shifts_none_bind (hend init condition)
    · exact shifts_some_bind (shifts_simpleUnder hbelow) (hend init condition)
  -- Without a semicolon, what was read is the condition, so it has to be an expression.
  · rcases init with _ | s
    · exact shifts_fail _
    · cases s with
      | expr condition => exact hend none (some condition) none
      | var | ret | cond | loop => simpa using shifts_fail _
      | _ => exact shifts_fail _

theorem shifts_returnUnder :
    Parse.Shifts k (Stmt.shift k) (returnUnder below) (returnUnder below) := by
  apply shifts_next.bind
  intro t
  apply (shifts_peek fun _ => rfl).bind
  intro b
  apply Carries.ite Iff.rfl
  · exact .pure rfl
  · apply (shifts_expressionUnder hbelow).bind
    intro value
    apply Carries.pure
    rw [Stmt.shift_ret, Span.shift_join, Option.map_some, ← Expr.span_shift]
    rfl

theorem shifts_statementUnder :
    Parse.Shifts k (Stmt.shift k) (statementUnder below) (statementUnder below) := by
  rintro c _ rfl
  simp only [statementUnder, Cursor.kind_shift, Cursor.advance_shift]
  generalize c.kind = kind
  split
  · refine ((shifts_variableUnder hbelow).bind ?_) c _ rfl
    intro d
    exact .pure (Stmt.shift_var k ..)
  · exact shifts_returnUnder hbelow c _ rfl
  · exact .ok rfl rfl
  · exact .ok rfl rfl
  · exact shifts_choiceUnder hbelow c _ rfl
  · exact shifts_loopUnder hbelow c _ rfl
  · refine ((shifts_blockUnder hbelow).map ?_) c _ rfl
    exact fun _ => rfl
  · exact shifts_simpleUnder hbelow c _ rfl

/-- **A level above one whose readers shift has such readers.** -/
theorem shifts_under : (under below).Shifts k where
  expression := shifts_expressionUnder hbelow
  unary := shifts_unaryUnder hbelow
  calls := shifts_callsUnder hbelow
  binary := shifts_binaryUnder hbelow
  operators := shifts_operatorsUnder hbelow
  block := shifts_blockUnder hbelow
  choice := shifts_choiceUnder hbelow
  statement := shifts_statementUnder hbelow

end Below

theorem shifts_withRemaining (n : Nat) : (withRemaining n).Shifts k := by
  induction n with
  | zero => exact shifts_under nofun
  | succ n ih =>
    apply shifts_under
    rintro level ⟨⟩
    exact ih

end Level

/-! ## Declarations -/

namespace Parse

/-- What one declaration declares, further down. -/
def Declaration.shift (k : Shift) : Declaration → Declaration
  | imports decls => .imports (decls.map (ImportDecl.shift k))
  | item i => .item (i.shift k)

theorem shifts_importPath : Shifts k (ImportDecl.shift k) importPath importPath := by
  apply shifts_here.bind
  intro span
  exact (shifts_text _).bind fun path => .pure rfl

theorem shifts_importDecl :
    Shifts k (List.map (ImportDecl.shift k)) importDecl importDecl := by
  apply shifts_next.bind
  intro _
  apply (shifts_eat .lparen).bind
  intro b
  apply Carries.ite Iff.rfl
  · apply shifts_collect
    apply shifts_skipSeparators.bind
    intro _
    apply (shifts_eat .rparen).bind
    intro b
    apply Carries.ite Iff.rfl
    · exact .pure rfl
    · exact shifts_importPath.bind fun i => .pure rfl
  · exact shifts_importPath.bind fun i => .pure rfl

theorem shifts_functionDecl :
    Shifts k (FunctionDecl.shift k) functionDecl functionDecl := by
  apply shifts_next.bind
  intro t
  apply (shifts_identifier _).bind
  intro name
  apply shifts_signature.bind
  rintro ⟨params, result⟩
  exact (Level.shifts_withRemaining _).block.bind fun body => .pure rfl

theorem shifts_varDecl : Shifts k (VarDecl.shift k) varDecl varDecl := by
  apply Level.shifts_variableUnder
  rintro level ⟨⟩
  exact Level.shifts_withRemaining _

theorem shifts_declaration :
    Shifts k (Declaration.shift k) declaration declaration := by
  rintro c _ rfl
  simp only [declaration, Cursor.kind_shift]
  generalize c.kind = kind
  split
  · refine (shifts_importDecl.map ?_) c _ rfl
    exact fun _ => rfl
  · refine (shifts_varDecl.map ?_) c _ rfl
    exact fun _ => rfl
  · refine (shifts_functionDecl.map ?_) c _ rfl
    exact fun _ => rfl
  · exact .error rfl

/-- **The declarations of a text stay what they are further down.** -/
theorem shifts_declarations :
    Shifts k (List.map (Declaration.shift k)) declarations declarations := by
  apply shifts_collect
  apply shifts_skipSeparators.bind
  intro _
  apply (shifts_peek fun _ => rfl).bind
  intro b
  apply Carries.ite Iff.rfl
  · exact .pure rfl
  apply shifts_declaration.bind
  intro d
  exact (shifts_terminator _).bind fun _ => .pure rfl

end Parse

end Formula
