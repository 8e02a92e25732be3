import Formula.Proofs.Program.Following

/-!
# The machine reads programs

At every depth the machine reads what the cursor reads. This goes through the grammar production by
production; the readers that are called when a level has been opened are those of all greater depths.

## Main definitions

* `Opens`, `Deeper`: the readers at one depth, and at all greater ones

## Main results

* `Parse.settled_foldl`: parameters share their types in the same way if they are read in one pass
* `Mirrors.opens`: all readers at all depths
* `Indexed.program_of_ended`: the machine reads every list of tokens to its end
* `Program.pointsAt_of_ofTokens`: what is wrong with tokens is marked at one of them
-/

namespace Formula

open Follows

variable {α : Type} {tokens : List Token} {d : Nat}

/-! ## Parameters -/

namespace Parse

/-- A name that waits for its type. -/
def ParameterName.waiting (p : String × Span) : ParameterName :=
  ⟨p.1, p.2, none⟩

/-- No type follows where all names wait. -/
theorem findSome?_waiting (waiting : List (String × Span)) :
    (waiting.map ParameterName.waiting).findSome? (·.type) = none := by
  rw [List.findSome?_eq_none_iff]
  intro p hp
  obtain ⟨w, -, rfl⟩ := List.mem_map.mp hp
  rfl

/-- Names that wait share the type that follows the next name. -/
theorem shareTypes_waiting (waiting : List (String × Span)) {p : ParameterName} {type : TypeExpr}
    (hp : p.type = some type) (ps : List ParameterName) :
    shareTypes (waiting.map .waiting ++ p :: ps) =
      (Indexed.typed (waiting ++ [(p.name, p.span)]) type ++ ·) <$> shareTypes ps := by
  induction waiting with
  | nil =>
    rw [List.map_nil, List.nil_append, shareTypes, List.findSome?_cons, hp]
    rfl
  | cons w ws ih =>
    -- a name that waits takes the first type behind it, which is that of `p`
    have hfirst : (ParameterName.waiting w :: (ws.map .waiting ++ p :: ps)).findSome? (·.type) =
        some type := by
      rw [List.findSome?_cons, ParameterName.waiting, List.findSome?_append, findSome?_waiting,
        List.findSome?_cons, hp]
      rfl
    rw [List.map_cons, List.cons_append, shareTypes, hfirst]
    simp only
    rw [ih]
    cases shareTypes ps <;> rfl

/-- The parameters that were read, unless a name still waits for its type. -/
def settled : List Parameter × List (String × Span) → Except ParseError (List Parameter)
  | (params, []) => .ok params
  | (_, (name, span) :: _) => .error (.untypedParameter name span)

/-- Reading the names one after the other shares the types as looking ahead does. -/
theorem settled_foldl (names : List ParameterName) (params : List Parameter)
    (waiting : List (String × Span)) :
    settled (names.foldl Indexed.addName (params, waiting)) =
      (params ++ ·) <$> shareTypes (waiting.map .waiting ++ names) := by
  -- Induction on the names that are still to be read; those that wait were read before them.
  induction names generalizing params waiting with
  | nil =>
    cases waiting with
    | nil =>
      rw [List.map_nil, List.append_nil, shareTypes]
      exact congrArg Except.ok (List.append_nil params).symm
    | cons w ws =>
      rw [List.append_nil, List.map_cons, shareTypes, ← List.map_cons, findSome?_waiting]
      rfl
  | cons p ps ih =>
    rw [List.foldl_cons, Indexed.addName]
    cases hp : p.type with
    | none =>
      -- a name without a type is one more that waits
      have hwaiting : p = .waiting (p.name, p.span) := by
        obtain ⟨name, span, type⟩ := p
        rw [ParameterName.waiting, ← hp]
      simp only
      rw [ih, List.map_append, List.append_assoc]
      conv => rhs; rw [hwaiting]
      rfl
    | some type =>
      simp only
      -- a type settles all names that wait for it, and none is left waiting
      rw [ih, shareTypes_waiting waiting hp, List.map_nil, List.nil_append]
      cases shareTypes ps with
      | error e => rfl
      | ok rest => simp [Functor.map, Except.map]

end Parse

namespace Mirrors

theorem parameterName (ht : Token.Ended tokens) {i : Nat} {c : Cursor} {s : Stand}
    (h : Stand.Lands tokens d i c s) :
    Follows tokens d c s Parse.parameterName (Indexed.parameterName tokens)
      (Round tokens d i (fun p => ∃ t ∈ tokens, p.span = t.span) fun _ => True) := by
  have hspan : ∃ t ∈ tokens, c.current.span = t.span := ⟨_, h.at_index.current_mem, rfl⟩
  refine ite_peek h.at_index (c.isSymbol_eq .rparen) (fun _ => .pure ⟨h, trivial⟩) fun _ => ?_
  refine here_left (current_right h.at_index ?_)
  refine (identifier h ht .parameterName).bind fun name c₁ s₁ h₁ => ?_
  refine (eat h₁.2 ht .comma).bind fun b c₂ s₂ h₂ => ite Iff.rfl (fun hb => ?_) fun _ => ?_
  · exact .pure ⟨hspan, h₂.1⟩
  refine ite_peek h₂.1.at_index (c₂.isSymbol_eq .rparen) (fun _ => ?_) fun _ => ?_
  · exact .pure ⟨hspan, h₂.1.mono (Nat.le_succ i), trivial⟩
  refine (typeExpr ht d _ c₂ s₂ h₂.1).bind fun type c₃ s₃ h₃ => ?_
  refine (eat h₃ ht .comma).bind fun b c₄ s₄ h₄ => ?_
  cases b with
  | true => exact .pure ⟨hspan, h₄.1.mono (by omega)⟩
  | false => exact .pure ⟨hspan, h₄.1.mono (by omega), trivial⟩

/-- Every name that waits for its type stands at a token. -/
theorem parameters (ht : Token.Ended tokens) {i : Nat} {c : Cursor} {s : Stand}
    (h : Stand.Lands tokens d i c s) :
    Follows tokens d c s ((Parse.collect Parse.parameterName : Parse _) >>= fun names =>
      (Parse.shareTypes names : Except ParseError _)) (Indexed.parameters tokens) fun _ c' s' =>
        Stand.Lands tokens d i c' s' := by
  have hsettled : ((Parse.collect Parse.parameterName : Parse _) >>= fun names =>
      (Parse.shareTypes names : Except ParseError _) : Parse (List Parameter)) =
        ((List.foldl Indexed.addName ([], []) ·) <$> Parse.collect Parse.parameterName : Parse _) >>=
          fun read => (Parse.settled read : Except ParseError _) := by
    rw [bind_map_left]
    refine congrArg _ (funext fun names => ?_)
    rw [Parse.settled_foldl, List.map_nil, List.nil_append]
    cases Parse.shareTypes names <;> rfl
  -- Written that way, the cursor goes through the names in the rounds of the machine.
  rw [hsettled]
  refine (loop (I := fun read => ∀ p ∈ read.2, ∃ t ∈ tokens, p.2 = t.span) (fun read p hread hp => ?_)
    (fun i c s _ h => parameterName ht h) _ (Nat.le_refl i) h nofun
    (by simp only [Indexed.rounds]; omega)).bind ?_
  · unfold Indexed.addName
    cases p.type with
    | some type =>
      intro q hq
      cases hq
    | none =>
      intro q hq
      rcases List.mem_append.mp hq with hq | hq
      · exact hread q hq
      · rw [List.mem_singleton.mp hq]
        exact hp
  · rintro ⟨params, _ | ⟨⟨name, span⟩, names⟩⟩ c' s' ⟨hlands, hread, -⟩
    · -- no name is left without a type
      exact of_ok rfl rfl hlands
    · -- both fail at the first name that waits, which stands at a token
      refine ⟨s', rfl, Nat.le_of_eq hlands.depth_eq.symm, ⟨⟨span, none⟩, rfl, ?_⟩⟩
      exact hread (name, span) (List.mem_cons_self ..)

theorem signature (ht : Token.Ended tokens) (d : Nat) :
    Mirrors tokens d Parse.signature (Indexed.signature tokens) := by
  intro i c s h
  refine (symbol h ht .lparen _).bind fun _ c₁ s₁ h₁ => ?_
  refine congr_left (congrFun (bind_assoc (Parse.collect Parse.parameterName : Parse _)
    (fun names => (liftM (Parse.shareTypes names) : Parse _)) _).symm c₁) ?_
  refine (parameters ht h₁.2).bind fun params c₂ s₂ h₂ => ?_
  refine (symbol h₂ ht .rparen _).bind fun _ c₃ s₃ h₃ => ?_
  have hat := h₃.2.at_index
  refine peek_or ((run_peek hat _).trans (by rw [Cursor.isSymbol_eq]))
    ((run_peek hat _).trans (by rw [Cursor.isTerminator_eq])) ?_ ?_
  · exact .pure (h₃.2.mono (by omega))
  · exact (typeExpr ht d _ c₃ s₃ h₃.2).bind fun type c₄ s₄ h₄ => .pure (h₄.mono (by omega))

end Mirrors

/-! ## Levels of nesting -/

/-- The readers of the machine mirror those of the cursor at a depth. -/
structure Opens (tokens : List Token) (d : Nat) (level : Level) (calls : Indexed.Calls) : Prop where
  expression : Mirrors tokens d level.expression calls.expression
  unary : Mirrors tokens d level.unary calls.unary
  binary : ∀ least, Mirrors tokens d (level.binary least) (calls.binary least)
  choice : ∀ i c s, Stand.Lands tokens d i c s → c.isKeyword .ifK = true →
    Follows tokens d c s level.choice calls.choice fun a c' s' =>
      Stand.Lands tokens d (i + 1) c' s' ∧ Indexed.choiceSpan a = c.current.span.join c'.before
  statement : Mirrors tokens d level.statement calls.statement

/-- The readers of the machine mirror those of the cursor wherever a level has been opened. -/
def Deeper (tokens : List Token) (d : Nat) (below : Indexed.Calls) : Prop :=
  ∀ d' r, d < d' → r + d' = maxNesting → Opens tokens d' (Level.withRemaining r) below

namespace Follows

open Indexed (run_bind run_bind_error)

variable {i least r : Nat} {c : Cursor} {s : Stand} {p : Parse α} {m : Indexed α}
  {Q : α → Cursor → Stand → Prop}

/-- **A level is opened.** Where the machine counts too many of them, the cursor has none left. -/
theorem enter {k : Level → Parse α} {k' : Unit → Indexed α} (h : Stand.Lands tokens d i c s)
    (hr : r + d = maxNesting) (hleast : least ≤ d)
    (hk : ∀ r s, r + (d + 1) = maxNesting → Stand.Lands tokens (d + 1) i c s →
      Follows tokens least c s (k (Level.withRemaining r)) (k' ()) Q) :
    Follows tokens least c s (Level.enter (Level.below r) >>= k) (Indexed.enter tokens >>= k') Q := by
  have hopened : Stand.Lands tokens (d + 1) i c { s with depth := s.depth + 1 } :=
    ⟨h.at_index, congrArg (· + 1) h.depth_eq, h.le⟩
  have hrun : (Indexed.enter tokens >>= k') s = ((if maxNesting < s.depth + 1 then
      Indexed.fail tokens .nestingTooDeep else Pure.pure ()) >>= k') { s with depth := s.depth + 1 } := by
    rfl
  unfold Follows
  rw [hrun, h.depth_eq]
  cases r with
  | zero =>
    -- a level too many: the cursor fails at once, and the machine when it has counted it
    have hfail := fail (Q := fun _ _ _ => True) (α := Unit) hopened (Nat.le_succ_of_le hleast)
      .nestingTooDeep
    obtain ⟨s', hmachine, hdepth, hpoints⟩ := hfail
    rw [if_pos (by omega)]
    rw [h.depth_eq] at hmachine
    exact ⟨s', run_bind_error hmachine, hdepth, hpoints⟩
  | succ r =>
    rw [if_neg (by omega)]
    rw [h.depth_eq] at hopened
    exact hk r _ (by omega) hopened

/-- A level is closed behind a reader, also where it fails. -/
theorem closing (h : Follows tokens (least + 1) c s p m fun a c' s' =>
      0 < s'.depth ∧ Q a c' { s' with depth := s'.depth - 1 }) :
    Follows tokens least c s p (Indexed.closing m) Q := by
  unfold Follows at h ⊢
  have hclosing : ∀ {r s'}, m s = .ok (r, s') → 0 < s'.depth →
      Indexed.closing m s = .ok (r, { s' with depth := s'.depth - 1 }) := by
    intro r s' hm hpos
    rw [Indexed.closing, hm]
    exact if_neg (Nat.ne_of_gt hpos)
  -- the machine counts down whether the reader succeeded or failed
  split
  · rename_i hp
    rw [hp] at h
    obtain ⟨s', hm, hpos, hQ⟩ := h
    exact ⟨_, hclosing hm hpos, hQ⟩
  · rename_i hp
    rw [hp] at h
    obtain ⟨s', hm, hdepth, hpoints⟩ := h
    exact ⟨_, hclosing hm (by omega), Nat.le_sub_one_of_lt hdepth, hpoints⟩

theorem lands_leave {levels : Nat} (h : Stand.Lands tokens (d + levels) i c s) :
    Stand.Lands tokens d i c { s with depth := s.depth - levels } :=
  ⟨h.at_index, by rw [h.depth_eq, Nat.add_sub_cancel], h.le⟩

/-- Levels that are open are closed. -/
theorem leave_right {levels : Nat} {k : Unit → Indexed α} (h : Stand.Lands tokens (d + levels) i c s)
    (hk : ∀ s, Stand.Lands tokens d i c s → Follows tokens least c s p (k ()) Q) :
    Follows tokens least c s p (Indexed.leave levels >>= k) Q := by
  have hrun : Indexed.leave levels s = .ok (.ok (), { s with depth := s.depth - levels }) := by
    rw [Indexed.leave, if_neg (by rw [h.depth_eq]; omega)]
  have hrest := hk _ (lands_leave h)
  unfold Follows at hrest ⊢
  rwa [run_bind hrun]

/-- **A reader one level further down.** -/
theorem nested {reader : Level → Parse α} {P : α → Cursor → Prop} (h : Stand.Lands tokens d i c s)
    (hr : r + d = maxNesting)
    (hreader : ∀ r s, r + (d + 1) = maxNesting → Stand.Lands tokens (d + 1) i c s →
      Follows tokens (d + 1) c s (reader (Level.withRemaining r)) m fun a c' s' =>
        Stand.Lands tokens (d + 1) (i + 1) c' s' ∧ P a c') :
    Follows tokens d c s (Level.enter (Level.below r) >>= reader) (Indexed.nested tokens m)
      fun a c' s' => Stand.Lands tokens d (i + 1) c' s' ∧ P a c' := by
  refine enter h hr (Nat.le_refl d) fun r s hr h => closing ((hreader r s hr h).mono ?_)
  exact fun _ _ _ ha => ⟨by rw [ha.1.depth_eq]; omega, lands_leave ha.1, ha.2⟩

theorem nested_bind {β : Type} {reader : Level → Parse α} {P : α → Cursor → Prop} {k : α → Parse β}
    {k' : α → Indexed β} {R : β → Cursor → Stand → Prop} (h : Stand.Lands tokens d i c s)
    (hr : r + d = maxNesting)
    (hreader : ∀ r s, r + (d + 1) = maxNesting → Stand.Lands tokens (d + 1) i c s →
      Follows tokens (d + 1) c s (reader (Level.withRemaining r)) m fun a c' s' =>
        Stand.Lands tokens (d + 1) (i + 1) c' s' ∧ P a c')
    (hk : ∀ a c' s', Stand.Lands tokens d (i + 1) c' s' ∧ P a c' →
      Follows tokens d c' s' (k a) (k' a) R) :
    Follows tokens d c s (Level.enter (Level.below r) >>= fun level => reader level >>= k)
      (Indexed.nested tokens m >>= k') R :=
  congr_left (congrFun (bind_assoc _ reader k).symm c) ((nested h hr hreader).bind hk)

end Follows

/-! ## Expressions and statements -/

/-- `else` follows at once, or behind a line end. -/
theorem Cursor.elseFollows_iff (before : Span) (current : Token) (rest : List Token) :
    elseFollows ⟨before, current, rest⟩ = true ↔ current.kind = .keyword .elseK ∨
      current.kind = .newline ∧ ∃ t ts, rest = t :: ts ∧ elseFollows ⟨current.span, t, ts⟩ = true := by
  -- line ends are passed over; only at one of them does the next token matter
  cases hk : current.kind with
  | newline =>
    have hdrop : (current :: rest).dropWhile (·.kind == .newline) =
        rest.dropWhile (·.kind == .newline) := by
      rw [List.dropWhile_cons, hk]
      rfl
    rw [elseFollows, hdrop]
    cases rest with
    | nil => simp
    | cons t ts =>
      constructor
      · exact fun h => .inr ⟨rfl, t, ts, rfl, h⟩
      · rintro (h | ⟨-, _, _, ⟨⟩, h⟩)
        · cases h
        · exact h
  | keyword k =>
    have hdrop : (current :: rest).dropWhile (·.kind == .newline) = current :: rest := by
      rw [List.dropWhile_cons, hk]
      rfl
    simp only [elseFollows, hdrop, hk]
    cases k <;> simp
  | _ =>
    have hdrop : (current :: rest).dropWhile (·.kind == .newline) = current :: rest := by
      rw [List.dropWhile_cons, hk]
      rfl
    simp [elseFollows, hdrop, hk]

/-- Where `else` follows, it is the first token that is no separator. -/
theorem Parse.skipFrom_of_elseFollows (before : Span) (current : Token) (rest : List Token)
    (h : Cursor.elseFollows ⟨before, current, rest⟩ = true) :
    (skipFrom before current rest).isKeyword .elseK = true := by
  induction rest generalizing before current with
  | nil =>
    rcases (Cursor.elseFollows_iff ..).mp h with hk | ⟨-, _, _, hrest, -⟩
    · exact Cursor.isKeyword_iff.mpr hk
    · cases hrest
  | cons t ts ih =>
    rw [skipFrom, Cursor.isSeparator_eq]
    rcases (Cursor.elseFollows_iff ..).mp h with hk | ⟨hk, _, _, ⟨⟩, helse⟩
    · rw [Cursor.kind, hk]
      exact Cursor.isKeyword_iff.mpr hk
    · rw [Cursor.kind, hk]
      exact ih _ _ helse

namespace Mirrors

open Indexed (run_bind run_bind_error)

section Below

variable {below : Indexed.Calls} {r : Nat}

theorem expressionUnder (hbelow : Deeper tokens d below) (hr : r + d = maxNesting) :
    Mirrors tokens d (Level.expressionUnder (Level.below r)) (Indexed.expressionUnder tokens below) := by
  intro i c s h
  refine (nested (P := fun _ _ => True) h hr fun r s hr h => ?_).mono fun _ _ _ ha => ha.1
  exact ((hbelow _ r (Nat.lt_succ_self d) hr).binary 1 i c s h).mono fun _ _ _ ha => ⟨ha, trivial⟩

theorem openedBlock (ht : Token.Ended tokens) {level : Level}
    (hstatement : Mirrors tokens d level.statement below.statement) :
    Mirrors tokens d (do
      let opening ← Parse.symbol .lbrace .blockOpen
      let statements ← Parse.collect do
        Parse.skipSeparators
        if ← Parse.peek (fun c => c.isSymbol .rbrace || c.isEof) then return none
        let s ← level.statement
        if !(← Parse.peek (·.isSymbol .rbrace)) then Parse.terminator .statementEnd
        return some (s, true)
      let _ ← Parse.symbol .rbrace .blockClose
      return .mk statements (opening.span.join (← Parse.before)))
      (Indexed.openedBlock tokens below) := by
  intro i c s h
  refine (symbol h ht .lbrace _).bind fun opening c₁ s₁ h₁ => ?_
  refine (collect (E := fun _ => True) (fun i c s hi h => ?_) _ (Nat.le_refl (i + 1)) h₁.2
    (by simp only [Indexed.rounds]; omega)).bind fun statements c₂ s₂ ⟨h₂, _⟩ => ?_
  · -- one round: a statement and what ends it, unless the block or the text ends
    refine (skipSeparators h ht).bind fun _ c₁ s₁ h₁ => ?_
    refine peek_or ((run_peek h₁.at_index _).trans (by rw [Cursor.isSymbol_eq]))
      (run_isEof h₁.at_index) (.pure ⟨h₁, trivial⟩) ?_
    refine (hstatement i c₁ s₁ h₁).bind fun a c₂ s₂ h₂ => ?_
    refine peek_left (peek_right h₂.at_index ?_)
    rw [← Cursor.isSymbol_eq]
    exact ite Iff.rfl
      (fun _ => (terminator h₂ ht .statementEnd).bind fun _ c₃ s₃ h₃ => .pure ⟨trivial, h₃⟩)
      fun _ => .pure ⟨trivial, h₂⟩
  · refine (symbol h₂ ht .rbrace _).bind fun _ c₃ s₃ h₃ => ?_
    exact before_left (before_right h₃.2.at_index (.pure (h₃.2.mono (by omega))))

theorem blockUnder (ht : Token.Ended tokens) (hbelow : Deeper tokens d below)
    (hr : r + d = maxNesting) :
    Mirrors tokens d (Level.blockUnder (Level.below r)) (Indexed.blockUnder tokens below) := by
  intro i c s h
  refine (nested (P := fun _ _ => True) h hr fun r s hr h => ?_).mono fun _ _ _ ha => ha.1
  exact (openedBlock ht (hbelow _ r (Nat.lt_succ_self d) hr).statement i c s h).mono fun _ _ _ ha =>
    ⟨ha, trivial⟩

theorem functionUnder (ht : Token.Ended tokens) (hbelow : Deeper tokens d below)
    (hr : r + d = maxNesting) {i : Nat} {c : Cursor} {s : Stand} (h : Stand.Lands tokens d i c s)
    (hk : c.isKeyword .funcK = true) :
    Follows tokens d c s (Level.functionUnder (Level.below r)) (Indexed.functionUnder tokens below)
      fun _ c' s' => Stand.Lands tokens d (i + 1) c' s' := by
  refine (keyword h ht hk).bind fun t c₁ s₁ h₁ => ?_
  refine (signature ht d _ c₁ s₁ h₁.2).bind fun ⟨params, result⟩ c₂ s₂ h₂ => ?_
  exact (blockUnder ht hbelow hr _ c₂ s₂ h₂).bind fun body c₃ s₃ h₃ => .pure (h₃.mono (by omega))

theorem primaryUnder (ht : Token.Ended tokens) (hbelow : Deeper tokens d below)
    (hr : r + d = maxNesting) :
    Mirrors tokens d (Level.primaryUnder (Level.below r)) (Indexed.primaryUnder tokens below) := by
  intro i c s h
  refine current_right h.at_index ?_
  -- one case for each kind of token that an expression can begin with
  split
  · rename_i value hk
    obtain ⟨hrun, hlands⟩ := lands_advance h ht (by simp [Cursor.kind, hk])
    exact of_ok (r := c.advance) (by simp only [Level.primaryUnder, hk])
      (run_bind (g := fun _ => Pure.pure (Expr.literal value c.current.span)) hrun) hlands
  · rename_i name hk
    obtain ⟨hrun, hlands⟩ := lands_advance h ht (by simp [Cursor.kind, hk])
    exact of_ok (r := c.advance) (by simp only [Level.primaryUnder, hk])
      (run_bind (g := fun _ => Pure.pure (Expr.identifier name c.current.span)) hrun) hlands
  · rename_i hk
    refine congr_left (q := Parse.next >>= fun _ => do
      let inner ← Level.expressionUnder (Level.below r)
      let _ ← Parse.symbol .rparen .parenthesisClose
      return inner) (by simp only [Level.primaryUnder, hk]; rfl) ?_
    refine (next h ht (by simp [Cursor.kind, hk])).bind fun _ c₁ s₁ h₁ => ?_
    refine (expressionUnder hbelow hr _ c₁ s₁ h₁.2).bind fun inner c₂ s₂ h₂ => ?_
    exact (symbol h₂ ht .rparen _).bind fun _ c₃ s₃ h₃ => .pure (h₃.2.mono (by omega))
  · rename_i hk
    refine congr_left (q := Level.functionUnder (Level.below r))
      (by simp only [Level.primaryUnder, hk]) (functionUnder ht hbelow hr h ?_)
    rw [Cursor.isKeyword_eq, Cursor.kind, hk]
    rfl
  · refine congr_left (q := Parse.fail .notAnExpression) ?_ (fail h (Nat.le_refl d) _)
    unfold Level.primaryUnder
    simp only

/-- **Argument lists and members.** A member follows a name only, so that the cursor looks for one
before the argument lists. -/
theorem postfixFrom (ht : Token.Ended tokens) (hbelow : Deeper tokens d below) (rounds : Nat)
    {chained r i : Nat} {c : Cursor} {s : Stand} {e : Expr} (hr : r + (d + chained) = maxNesting)
    (h : Stand.Lands tokens (d + chained) i c s) (hrounds : tokens.length < rounds + i)
    (he : c.isSymbol .dot = true → ∀ target span, e ≠ .identifier target span) :
    Follows tokens d c s (Level.callsUnder (Level.below r) e)
      (Indexed.postfixFrom tokens below e chained rounds) fun _ c' s' => Stand.Lands tokens d i c' s' := by
  -- Induction on the rounds that the machine has left, which are more than the tokens left.
  -- Each list of arguments opens a level that is closed behind the last one only.
  induction rounds generalizing chained r i c s e with
  | zero =>
    have := h.lt
    omega
  | succ rounds ih =>
    refine ((eat h ht .lparen).weaken (Nat.le_add_right d chained)).bind fun b c₁ s₁ h₁ => ?_
    refine ite Iff.rfl (fun hb => ?_) fun hb => ?_
    · refine enter (h₁.2.1 hb) hr (Nat.le_add_right d chained) fun r s₁ hr h₁ => ?_
      have hlevel := hbelow _ r (by omega) hr
      refine ((commaSeparated ht (fun i c s _ h => hlevel.expression i c s h) h₁).weaken
        (by omega)).bind fun arguments c₂ s₂ h₂ => ?_
      refine ((symbol h₂ ht .rparen _).weaken (by omega)).bind fun _ c₃ s₃ h₃ => ?_
      refine before_left (before_right h₃.2.at_index ?_)
      rw [Level.withRemaining_eq]
      exact (ih hr h₃.2 (by omega) (by simp)).mono fun _ _ _ ha => ha.mono (by omega)
    · obtain ⟨rfl, rfl⟩ := h₁.2.2 (Bool.eq_false_iff.mpr hb)
      refine ite_peek h.at_index (c₁.isSymbol_eq .dot) (fun hdot => ?_) fun _ => ?_
      · split
        · -- a member of a name was read before the lists of arguments
          exact absurd rfl (he hdot _ _)
        · exact fail h (Nat.le_add_right d chained) _
      · exact leave_right h fun s h => .pure h

/-- Reads the member of a package whose name was read. -/
def memberOf : Expr → Parse Expr
  | .identifier target span => do
    let _ ← Parse.next
    let member ← Parse.identifier .memberName
    return .selector target member (span.join (← Parse.before))
  | _ => Parse.fail .selectorTarget

theorem selectorUnder_eq (e : Expr) (c : Cursor) :
    Level.selectorUnder e c = if c.isSymbol .dot then memberOf e c else .ok (e, c) := by
  change (if (!c.isSymbol .dot) = true then _ else _ : Parse Expr) c = _
  cases c.isSymbol .dot with
  | true => cases e <;> rfl
  | false => rfl

theorem postfixUnder (ht : Token.Ended tokens) (hbelow : Deeper tokens d below)
    (hr : r + d = maxNesting) :
    Mirrors tokens d (Level.postfixUnder (Level.below r)) (Indexed.postfixUnder tokens below) := by
  intro i c s h
  refine (primaryUnder ht hbelow hr i c s h).bind fun e c₁ s₁ h₁ => ?_
  have hat := h₁.at_index
  have hselector := selectorUnder_eq e c₁
  -- the member of a name is read ahead of the rounds, and what comes then is no name
  by_cases hdot : c₁.isSymbol .dot = true
  · rw [if_pos hdot] at hselector
    refine congr_left (Parse.bind_congr_left hselector) ?_
    have hk : c₁.kind ≠ .eof := by
      rw [Cursor.isSymbol_iff.mp hdot]
      nofun
    refine eat_right hat (Cursor.isSymbol_of_isSymbol hdot nofun) (peek_right hat ?_)
    rw [← Cursor.isSymbol_eq, hdot]
    cases e with
    | identifier target span =>
      simp only [memberOf, bind_assoc]
      refine (next h₁ ht hk).bind fun _ c₂ s₂ h₂ => ?_
      refine (identifier h₂.2 ht .memberName).bind fun member c₃ s₃ h₃ => ?_
      refine before_left (before_right h₃.2.at_index ?_)
      simp only [pure_bind]
      refine Follows.mono (postfixFrom ht hbelow _ hr h₃.2 ?_ nofun) fun _ _ _ ha => ha.mono ?_
      · have := h₃.2.lt
        omega
      · omega
    | _ => exact congr_left (q := Parse.fail .selectorTarget) rfl (fail h₁ (Nat.le_refl d) _)
  · rw [if_neg hdot] at hselector
    exact congr_left (Parse.bind_of_ok hselector) (postfixFrom ht hbelow _ hr h₁
      (by simp only [Indexed.rounds]; omega) (absurd · hdot))

/-- An operator opens a level for its operand and closes it behind it. -/
theorem operator (ht : Token.Ended tokens) (hbelow : Deeper tokens d below)
    (hr : r + d = maxNesting) (op : UnaryOp) {i : Nat} {c : Cursor} {s : Stand}
    (h : Stand.Lands tokens d i c s) (hk : c.kind ≠ .eof) :
    Follows tokens d c s (Level.unaryUnder.operator (Level.below r) op)
      (Indexed.operator tokens below op) fun _ c' s' => Stand.Lands tokens d (i + 1) c' s' := by
  refine (next h ht hk).bind fun t c₁ s₁ h₁ => ?_
  obtain ⟨rfl, h₁⟩ := h₁
  refine enter h₁ hr (Nat.le_refl d) fun r s₁ hr h₁ => ?_
  have hlevel := hbelow _ r (Nat.lt_succ_self d) hr
  refine ((hlevel.unary _ c₁ s₁ h₁).weaken (Nat.le_succ d)).bind fun operand c₂ s₂ h₂ => ?_
  exact leave_right h₂ fun s h => .pure (h.mono (by omega))

theorem unaryUnder (ht : Token.Ended tokens) (hbelow : Deeper tokens d below)
    (hr : r + d = maxNesting) :
    Mirrors tokens d (Level.unaryUnder (Level.below r)) (Indexed.unaryUnder tokens below) := by
  intro i c s h
  have hat := h.at_index
  -- The cursor tries the signs one after the other; the machine looks at the token.
  cases hminus : c.isSymbol .minus with
  | true =>
    refine eat_left (Cursor.isSymbol_of_isSymbol hminus nofun) (peek_left (peek_right hat ?_))
    rw [← Cursor.isSymbol_eq, hminus]
    exact operator ht hbelow hr .neg h (by rw [Cursor.isSymbol_iff.mp hminus]; nofun)
  | false =>
    refine peek_right hat ?_
    rw [← Cursor.isSymbol_eq, hminus]
    cases hbang : c.isSymbol .bang with
    | true =>
      refine eat_left (Cursor.isSymbol_of_isSymbol hbang nofun) (peek_left ?_)
      rw [hminus]
      refine peek_left (peek_right hat ?_)
      rw [← Cursor.isSymbol_eq, hbang]
      exact operator ht hbelow hr .not h (by rw [Cursor.isSymbol_iff.mp hbang]; nofun)
    | false =>
      refine peek_right hat ?_
      rw [← Cursor.isSymbol_eq, hbang]
      refine (eat h ht .plus).bind fun b c₁ s₁ h₁ => ite Iff.rfl (fun hb => ?_) fun hb => ?_
      · refine (nested (P := fun _ _ => True) (h₁.2.1 hb) hr fun r s hr h => ?_).mono fun _ _ _ ha =>
          ha.1.mono (Nat.le_succ _)
        exact ((hbelow _ r (Nat.lt_succ_self d) hr).unary _ c₁ s h).mono fun _ _ _ ha => ⟨ha, trivial⟩
      · obtain ⟨rfl, rfl⟩ := h₁.2.2 (Bool.eq_false_iff.mpr hb)
        refine peek_left ?_
        rw [hminus]
        refine peek_left ?_
        rw [hbang]
        exact postfixUnder ht hbelow hr i c₁ s₁ h

/-- **Rows of operators.** Each operator opens a level. -/
theorem operatorsFrom (ht : Token.Ended tokens) (hbelow : Deeper tokens d below) (least rounds : Nat)
    {chained r i : Nat} {c : Cursor} {s : Stand} {left : Expr} (hr : r + (d + chained) = maxNesting)
    (h : Stand.Lands tokens (d + chained) i c s) (hrounds : tokens.length < rounds + i) :
    Follows tokens d c s (Level.operatorsUnder (Level.below r) left least)
      (Indexed.operatorsFrom tokens below least left chained rounds) fun _ c' s' =>
        Stand.Lands tokens d i c' s' := by
  induction rounds generalizing chained r i c s left with
  | zero =>
    have := h.lt
    omega
  | succ rounds ih =>
    -- what is done where the row ends: the levels of its operators are closed
    have hdone : Follows tokens d c s (Pure.pure left) (do
        Indexed.leave chained
        return left) fun _ c' s' => Stand.Lands tokens d i c' s' :=
      leave_right h fun s h => .pure h
    refine current_right h.at_index ?_
    rw [← Cursor.kind]
    cases hop : c.kind.binaryOp? with
    | none => exact congr_left (by simp only [Level.operatorsUnder, hop]; rfl) hdone
    | some op =>
      by_cases hless : op.precedence < least
      · simp only [if_pos hless]
        exact congr_left (by simp only [Level.operatorsUnder, hop, if_pos hless]; rfl) hdone
      · simp only [if_neg hless]
        refine congr_left (q := Parse.next >>= fun _ => Level.enter (Level.below r) >>= fun level =>
          level.binary (op.precedence + 1) >>= fun right =>
            level.operators (.binary op left right (left.span.join right.span)) least)
          (by simp only [Level.operatorsUnder, hop, if_neg hless]; rfl) ?_
        have hk : c.kind ≠ .eof := by
          intro hk
          rw [hk] at hop
          cases hop
        refine ((next h ht hk).weaken (Nat.le_add_right d chained)).bind fun _ c₁ s₁ h₁ => ?_
        refine enter h₁.2 hr (Nat.le_add_right d chained) fun r s₁ hr h₁ => ?_
        have hlevel := hbelow _ r (by omega) hr
        refine ((hlevel.binary _ _ c₁ s₁ h₁).weaken (by omega)).bind fun right c₂ s₂ h₂ => ?_
        rw [Level.withRemaining_eq]
        exact (ih hr h₂ (by omega)).mono fun _ _ _ ha => ha.mono (by omega)

theorem binaryUnder (ht : Token.Ended tokens) (hbelow : Deeper tokens d below)
    (hr : r + d = maxNesting) (least : Nat) :
    Mirrors tokens d (Level.binaryUnder (Level.below r) least)
      (Indexed.binaryUnder tokens below least) := by
  intro i c s h
  refine (unaryUnder ht hbelow hr i c s h).bind fun left c₁ s₁ h₁ => ?_
  exact operatorsFrom ht hbelow least _ hr h₁ (by simp only [Indexed.rounds]; omega)

theorem variableUnder (ht : Token.Ended tokens) (hbelow : Deeper tokens d below)
    (hr : r + d = maxNesting) {i : Nat} {c : Cursor} {s : Stand} (h : Stand.Lands tokens d i c s)
    (hk : c.isKeyword .varK = true) :
    Follows tokens d c s (Level.variableUnder (Level.below r)) (Indexed.variableUnder tokens below)
      fun _ c' s' => Stand.Lands tokens d (i + 1) c' s' := by
  refine (keyword h ht hk).bind fun t c₁ s₁ h₁ => ?_
  obtain ⟨rfl, h₁⟩ := h₁
  refine (identifier h₁ ht .variableName).bind fun name c₂ s₂ h₂ => ?_
  obtain ⟨-, h₂⟩ := h₂
  refine peek_join (Q := fun _ c' s' => Stand.Lands tokens d (i + 1) c' s') h₂.at_index
    (c₂.isSymbol_eq .equals) (fun _ => .pure (h₂.mono (by omega))) (fun _ => .map ?_)
    fun type c₃ s₃ h₃ => ?_
  · exact (typeExpr ht d _ c₂ s₂ h₂).mono fun _ _ _ h => h.mono (by omega)
  -- the type may be left out, and so may the initial value
  refine (eat h₃ ht .equals).bind fun b c₄ s₄ h₄ => ?_
  refine ite_join (Q := fun _ c' s' => Stand.Lands tokens d (i + 1) c' s') (fun _ => .map ?_)
    (fun _ => .pure h₄.1) fun value c₅ s₅ h₅ => ?_
  · exact (expressionUnder hbelow hr _ c₄ s₄ h₄.1).mono fun _ _ _ h => h.mono (by omega)
  · exact before_left (before_right h₅.at_index (.pure h₅))

/-- What follows a name and the token after it, for which the machine moves on by two tokens at once. -/
theorem targetUnder? (hbelow : Deeper tokens d below) (hr : r + d = maxNesting) (name : String)
    (start : Span) (kind : TokenKind) :
    Option.Rel (fun p m => kind ≠ .eof ∧ ∃ m', m = (Indexed.jump >>= fun _ => m') ∧
      ∀ i c s, Stand.Lands tokens d i c s → Follows tokens d c s p m' fun _ c' s' =>
        Stand.Lands tokens d i c' s')
      (Level.targetUnder? (Level.below r) name start kind)
      (Indexed.targetUnder? tokens below name start kind) := by
  have hvalue {i : Nat} {c : Cursor} {s : Stand} {f : Expr → Stmt} (h : Stand.Lands tokens d i c s) :
      Follows tokens d c s (Level.expressionUnder (Level.below r) >>= fun value => Pure.pure (f value))
        (Indexed.expressionUnder tokens below >>= fun value => Pure.pure (f value)) fun _ c' s' =>
          Stand.Lands tokens d i c' s' :=
    (expressionUnder hbelow hr i c s h).bind fun _ _ _ h => .pure (h.mono (Nat.le_succ i))
  have hlast {i : Nat} {c : Cursor} {s : Stand} {f : Span → Stmt} (h : Stand.Lands tokens d i c s) :
      Follows tokens d c s (Parse.before >>= fun last => Pure.pure (f last))
        (Indexed.before tokens >>= fun last => Pure.pure (f last)) fun _ c' s' =>
          Stand.Lands tokens d i c' s' :=
    before_left (before_right h.at_index (.pure h))
  -- a definition, a step up or down, an assignment, or nothing of the kind
  unfold Level.targetUnder?
  split
  · exact .some ⟨nofun, _, rfl, fun _ _ _ => hvalue⟩
  · exact .some ⟨nofun, _, rfl, fun _ _ _ => hlast⟩
  · exact .some ⟨nofun, _, rfl, fun _ _ _ => hlast⟩
  · rename_i hdefine hplus hminus
    rw [Indexed.targetUnder?.eq_4 _ _ _ _ _ hdefine hplus hminus]
    cases hop : kind.assignment? with
    | none => exact .none
    | some op =>
      refine .some ⟨?_, _, rfl, fun _ _ _ => hvalue⟩
      rintro rfl
      cases hop

theorem simpleUnder (ht : Token.Ended tokens) (hbelow : Deeper tokens d below)
    (hr : r + d = maxNesting) :
    Mirrors tokens d (Level.simpleUnder (Level.below r)) (Indexed.simpleUnder tokens below) := by
  intro i c s h
  have hexpression : Follows tokens d c s (Stmt.expr <$> Level.expressionUnder (Level.below r))
      (Stmt.expr <$> Indexed.expressionUnder tokens below) fun _ c' s' =>
        Stand.Lands tokens d (i + 1) c' s' :=
    .map (expressionUnder hbelow hr i c s h)
  -- the machine looks at the second token by its index, the cursor at the rest of its list
  have hsecond : tokens[s.index + 1]? = c.rest.head? := by
    rw [← List.getElem?_drop, h.at_index.drop, List.getElem?_cons_succ, List.head?_eq_getElem?]
  refine current_right h.at_index (of_run (a := c.rest.head?) (by rw [← hsecond]; rfl) ?_)
  rw [← Cursor.kind]
  cases hk : c.kind with
  | identifier name =>
    have hne : c.kind ≠ .eof := by simp [hk]
    obtain ⟨hrun, h₁⟩ := lands_advance h ht hne
    obtain ⟨second, rest, hrest⟩ := List.exists_cons_of_ne_nil (h.at_index.rest_ne_nil ht hne)
    have hcurrent : c.advance.kind = second.kind := by
      rw [Cursor.advance, hrest]
      rfl
    have hleft : Level.simpleUnder (Level.below r) c =
        (Level.targetUnder? (Level.below r) name c.current.span second.kind).elim
          ((Stmt.expr <$> Level.expressionUnder (Level.below r)) c) (· c.advance.advance) := by
      simp only [Level.simpleUnder, hk, hrest]
      cases Level.targetUnder? (Level.below r) name c.current.span second.kind <;> rfl
    have htarget := targetUnder? hbelow hr name c.current.span second.kind
    simp only [hrest, List.head?_cons]
    generalize Level.targetUnder? (Level.below r) name c.current.span second.kind = target at hleft htarget
    generalize Indexed.targetUnder? tokens below name c.current.span second.kind = target' at htarget
    cases htarget with
    -- the statement is an expression that begins with a name
    | none => exact congr_left hleft hexpression
    | some htarget =>
      obtain ⟨hsecond, m', rfl, hm⟩ := htarget
      obtain ⟨-, h₂⟩ := lands_advance h₁ ht (hcurrent ▸ hsecond)
      exact of_eq hleft rfl ((hm _ _ _ h₂).mono fun _ _ _ ha => ha.mono (by omega))
  | _ => exact congr_left (by simp only [Level.simpleUnder, hk]) hexpression

theorem choiceUnder (ht : Token.Ended tokens) (hbelow : Deeper tokens d below)
    (hr : r + d = maxNesting) {i : Nat} {c : Cursor} {s : Stand} (h : Stand.Lands tokens d i c s)
    (hk : c.isKeyword .ifK = true) :
    Follows tokens d c s (Level.choiceUnder (Level.below r)) (Indexed.choiceUnder tokens below)
      fun a c' s' => Stand.Lands tokens d (i + 1) c' s' ∧
        Indexed.choiceSpan a = c.current.span.join c'.before := by
  refine (keyword h ht hk).bind fun t c₁ s₁ h₁ => ?_
  obtain ⟨rfl, h₁⟩ := h₁
  refine (expressionUnder hbelow hr _ c₁ s₁ h₁).bind fun condition c₂ s₂ h₂ => ?_
  refine (blockUnder ht hbelow hr _ c₂ s₂ h₂).bind fun thenBlock c₃ s₃ h₃ => ?_
  -- the span of a choice is put together where its last part has been read
  have hlast {i' : Nat} {c' : Cursor} {s' : Stand} {elseBlock : Option Block} (hi : i + 1 ≤ i')
      (h : Stand.Lands tokens d i' c' s') :
      Follows tokens d c' s' (do
        return Stmt.cond condition thenBlock elseBlock (c.current.span.join (← Parse.before))) (do
        return Stmt.cond condition thenBlock elseBlock (c.current.span.join (← Indexed.before tokens)))
        fun a c' s' => Stand.Lands tokens d (i + 1) c' s' ∧
          Indexed.choiceSpan a = c.current.span.join c'.before :=
    before_left (before_right h.at_index (.pure ⟨h.mono hi, rfl⟩))
  refine peek_left (of_run (run_elseFollows h₃.at_index) (ite Iff.rfl (fun helse => ?_) fun _ => ?_))
  · refine ((skipSeparators h₃ ht).and_reads (P := fun _ c₄ => c₄.isKeyword .elseK = true) ?_).bind
      fun _ c₄ s₄ ⟨h₄, hk₄⟩ => ?_
    · rintro _ _ ⟨⟩
      exact Parse.skipFrom_of_elseFollows _ _ _ helse
    refine (keyword h₄ ht hk₄).bind fun _ c₅ s₅ h₅ => ?_
    refine ite_peek h₅.2.at_index (c₅.isKeyword_eq .ifK) (fun hif => here_left ?_) fun _ => ?_
    · -- another choice behind `else`: its own span ends where this one does
      refine nested_bind (P := fun a c' => Indexed.choiceSpan a = c₅.current.span.join c'.before) h₅.2 hr
        (fun r s hr h => (hbelow _ r (Nat.lt_succ_self d) hr).choice _ c₅ s h hif)
        fun choice c₆ s₆ h₆ => before_left ?_
      rw [← h₆.2]
      exact hlast (by omega) h₆.1
    · refine Follows.bind (P := fun _ c' s' => Stand.Lands tokens d (i + 1) c' s')
        (.map ((blockUnder ht hbelow hr _ c₅ s₅ h₅.2).mono fun _ _ _ ha => ha.mono (by omega)))
        fun elseBlock c₆ s₆ h₆ => ?_
      exact hlast (by omega) h₆
  · exact hlast (by omega) h₃

theorem loopUnder (ht : Token.Ended tokens) (hbelow : Deeper tokens d below)
    (hr : r + d = maxNesting) {i : Nat} {c : Cursor} {s : Stand} (h : Stand.Lands tokens d i c s)
    (hk : c.isKeyword .forK = true) :
    Follows tokens d c s (Level.loopUnder (Level.below r)) (Indexed.loopUnder tokens below)
      fun _ c' s' => Stand.Lands tokens d (i + 1) c' s' := by
  -- however the head is written, the body comes last
  have hblock {i' : Nat} {c : Cursor} {s : Stand} {f : Block → Stmt} (hi : i + 1 ≤ i')
      (h : Stand.Lands tokens d i' c s) :
      Follows tokens d c s (Level.blockUnder (Level.below r) >>= fun body => Pure.pure (f body))
        (Indexed.blockUnder tokens below >>= fun body => Pure.pure (f body)) fun _ c' s' =>
          Stand.Lands tokens d (i + 1) c' s' :=
    (blockUnder ht hbelow hr i' c s h).bind fun _ _ _ h => .pure (h.mono (by omega))
  refine (keyword h ht hk).bind fun t c₁ s₁ h₁ => ?_
  obtain ⟨rfl, h₁⟩ := h₁
  refine ite_peek h₁.at_index (c₁.isSymbol_eq .lbrace) (fun _ => hblock (Nat.le_refl _) h₁) fun _ => ?_
  refine peek_join (Q := fun _ c' s' => Stand.Lands tokens d (i + 1) c' s') h₁.at_index
    (c₁.isSymbol_eq .semicolon) (fun _ => .pure h₁) (fun _ => .map ?_) fun init c₂ s₂ h₂ => ?_
  · exact (simpleUnder ht hbelow hr _ c₁ s₁ h₁).mono fun _ _ _ h => h.mono (by omega)
  refine (eat h₂ ht .semicolon).bind fun b c₃ s₃ h₃ => ite Iff.rfl (fun _ => ?_) fun _ => ?_
  · refine peek_join (Q := fun _ c' s' => Stand.Lands tokens d (i + 1) c' s') h₃.1.at_index
      (c₃.isSymbol_eq .semicolon) (fun _ => .pure h₃.1) (fun _ => .map ?_) fun condition c₄ s₄ h₄ => ?_
    · exact (expressionUnder hbelow hr _ c₃ s₃ h₃.1).mono fun _ _ _ h => h.mono (by omega)
    refine (symbol h₄ ht .semicolon _).bind fun _ c₅ s₅ h₅ => ?_
    refine peek_join (Q := fun _ c' s' => Stand.Lands tokens d (i + 1) c' s') h₅.2.at_index
      (c₅.isSymbol_eq .lbrace) (fun _ => .pure (h₅.2.mono (by omega))) (fun _ => .map ?_)
      fun post c₆ s₆ h₆ => hblock (Nat.le_refl _) h₆
    exact (simpleUnder ht hbelow hr _ c₅ s₅ h₅.2).mono fun _ _ _ h => h.mono (by omega)
  · -- without semicolons, what stands in the head has to be a condition
    match init with
    | some (.expr condition) => exact hblock (Nat.le_refl _) h₃.1
    | none | some (.var ..) | some (.define ..) | some (.assign ..) | some (.increment ..)
    | some (.ret ..) | some (.breakLoop ..) | some (.continueLoop ..) | some (.cond ..)
    | some (.loop ..) | some (.block ..) => exact fail h₃.1 (Nat.le_refl d) _

theorem returnUnder (ht : Token.Ended tokens) (hbelow : Deeper tokens d below)
    (hr : r + d = maxNesting) {i : Nat} {c : Cursor} {s : Stand} (h : Stand.Lands tokens d i c s)
    (hk : c.isKeyword .returnK = true) :
    Follows tokens d c s (Level.returnUnder (Level.below r)) (Indexed.returnUnder tokens below)
      fun _ c' s' => Stand.Lands tokens d (i + 1) c' s' := by
  refine (keyword h ht hk).bind fun t c₁ s₁ h₁ => ?_
  obtain ⟨rfl, h₁⟩ := h₁
  refine peek_or ((run_peek h₁.at_index _).trans (by rw [Cursor.isTerminator_eq]))
    ((run_peek h₁.at_index _).trans (by rw [Cursor.isSymbol_eq])) (.pure h₁) ?_
  exact (expressionUnder hbelow hr _ c₁ s₁ h₁).bind fun value c₂ s₂ h₂ => .pure (h₂.mono (by omega))

theorem statementUnder (ht : Token.Ended tokens) (hbelow : Deeper tokens d below)
    (hr : r + d = maxNesting) :
    Mirrors tokens d (Level.statementUnder (Level.below r)) (Indexed.statementUnder tokens below) := by
  intro i c s h
  have hat := h.at_index
  have hkind {k : Keyword} (hk : c.isKeyword k = true) : c.kind = .keyword k := Cursor.isKeyword_iff.mp hk
  -- The machine tries the keywords one after the other, the cursor looks at the kind of the token.
  refine keyword_right hat (fun hk => ?_) fun hvar => ?_
  · refine congr_left (q := Level.variableUnder (Level.below r) >>= fun d =>
      return .var d.name d.type d.value d.span) (by simp only [Level.statementUnder, hkind hk]) ?_
    exact (variableUnder ht hbelow hr h hk).bind fun d c' s' h' => .pure h'
  refine keyword_right hat (fun hk => ?_) fun hreturn => ?_
  · exact congr_left (by simp only [Level.statementUnder, hkind hk]) (returnUnder ht hbelow hr h hk)
  refine keyword_right hat (fun hk => ?_) fun hbreak => ?_
  · refine congr_left (q := Parse.next >>= fun t => return .breakLoop t.span)
      (by simp only [Level.statementUnder, hkind hk]; rfl) ?_
    exact (keyword h ht hk).bind fun t c' s' h' => .pure h'.2
  refine keyword_right hat (fun hk => ?_) fun hcontinue => ?_
  · refine congr_left (q := Parse.next >>= fun t => return .continueLoop t.span)
      (by simp only [Level.statementUnder, hkind hk]; rfl) ?_
    exact (keyword h ht hk).bind fun t c' s' h' => .pure h'.2
  refine keyword_right hat (fun hk => ?_) fun hif => ?_
  · exact congr_left (by simp only [Level.statementUnder, hkind hk])
      ((choiceUnder ht hbelow hr h hk).mono fun _ _ _ h' => h'.1)
  refine keyword_right hat (fun hk => ?_) fun hfor => ?_
  · exact congr_left (by simp only [Level.statementUnder, hkind hk]) (loopUnder ht hbelow hr h hk)
  refine peek_right hat ?_
  rw [← Cursor.isSymbol_eq]
  cases hbrace : c.isSymbol .lbrace with
  | true =>
    exact congr_left (by simp only [Level.statementUnder, Cursor.isSymbol_iff.mp hbrace])
      (.map (blockUnder ht hbelow hr i c s h))
  | false =>
    refine congr_left ?_ (simpleUnder ht hbelow hr i c s h)
    unfold Level.statementUnder
    split <;> simp_all [Cursor.isKeyword, Cursor.isSymbol]

end Below

/-- **At every depth the machine reads what the cursor reads.** -/
theorem opens (ht : Token.Ended tokens) (levels : Nat) : ∀ d r, r + d = maxNesting →
    maxNesting < levels + d → Opens tokens d (Level.withRemaining r) (Indexed.calls tokens levels) := by
  induction levels with
  | zero =>
    intro d r hr hlevels
    omega
  | succ levels ih =>
    intro d r hr hlevels
    have hbelow : Deeper tokens d (Indexed.calls tokens levels) :=
      fun d' r' hlt hr' => ih d' r' hr' (by omega)
    rw [Level.withRemaining_eq]
    exact
      { expression := expressionUnder hbelow hr
        unary := unaryUnder ht hbelow hr
        binary := binaryUnder ht hbelow hr
        choice := fun _ _ _ h hk => choiceUnder ht hbelow hr h hk
        statement := statementUnder ht hbelow hr }

theorem deeper_top (ht : Token.Ended tokens) : Deeper tokens 0 (Indexed.top tokens) :=
  fun d r hlt hr => opens ht maxNesting d r hr (by omega)

/-! ## Declarations -/

theorem importPath (ht : Token.Ended tokens) :
    Mirrors tokens 0 Parse.importPath (Indexed.importPath tokens) := by
  intro i c s h
  refine here_left (current_right h.at_index ?_)
  exact (text h ht .importPath).bind fun _ _ _ h => .pure h

theorem importDecl (ht : Token.Ended tokens) {i : Nat} {c : Cursor} {s : Stand}
    (h : Stand.Lands tokens 0 i c s) (hk : c.isKeyword .importK = true) :
    Follows tokens 0 c s Parse.importDecl (Indexed.importDecl tokens) fun _ c' s' =>
      Stand.Lands tokens 0 (i + 1) c' s' := by
  refine (keyword h ht hk).bind fun _ c₁ s₁ h₁ => ?_
  refine (eat h₁.2 ht .lparen).bind fun b c₂ s₂ h₂ => ite Iff.rfl (fun _ => ?_) fun _ => ?_
  · refine (collect (E := fun _ => True) (fun i c s hi h => ?_) _ (Nat.le_refl _) h₂.1
      (by simp only [Indexed.rounds]; omega)).mono fun _ _ _ ha => ha.1
    refine (skipSeparators h ht).bind fun _ c₁ s₁ h₁ => (eat h₁ ht .rparen).bind fun b c₂ s₂ h₂ => ?_
    refine ite Iff.rfl (fun _ => .pure ⟨h₂.1, trivial⟩) fun _ => ?_
    exact (importPath ht i c₂ s₂ h₂.1).bind fun _ c₃ s₃ h₃ => .pure ⟨trivial, h₃⟩
  · exact (importPath ht _ c₂ s₂ h₂.1).bind fun _ c₃ s₃ h₃ => .pure (h₃.mono (by omega))

theorem functionDecl (ht : Token.Ended tokens) {i : Nat} {c : Cursor} {s : Stand}
    (h : Stand.Lands tokens 0 i c s) (hk : c.isKeyword .funcK = true) :
    Follows tokens 0 c s Parse.functionDecl (Indexed.functionDecl tokens) fun _ c' s' =>
      Stand.Lands tokens 0 (i + 1) c' s' := by
  refine (keyword h ht hk).bind fun _ c₁ s₁ h₁ => ?_
  refine (identifier h₁.2 ht .functionName).bind fun name c₂ s₂ h₂ => ?_
  refine (signature ht 0 _ c₂ s₂ h₂.2).bind fun ⟨params, result⟩ c₃ s₃ h₃ => ?_
  exact (blockUnder ht (deeper_top ht) (r := maxNesting) rfl _ c₃ s₃ h₃).bind fun body c₄ s₄ h₄ =>
    .pure (h₄.mono (by omega))

theorem declaration (ht : Token.Ended tokens) :
    Mirrors tokens 0 Parse.declaration (Indexed.declaration tokens) := by
  intro i c s h
  have hat := h.at_index
  have hkind {k : Keyword} (hk : c.isKeyword k = true) : c.kind = .keyword k := Cursor.isKeyword_iff.mp hk
  refine keyword_right hat (fun hk => ?_) fun himport => ?_
  · exact congr_left (by simp only [Parse.declaration, hkind hk]) (.map (importDecl ht h hk))
  refine keyword_right hat (fun hk => ?_) fun hvar => ?_
  · refine congr_left (q := (Parse.Declaration.item ∘ .var) <$> Parse.varDecl)
      (by simp only [Parse.declaration, hkind hk]) (.map ?_)
    exact variableUnder ht (deeper_top ht) (r := maxNesting) rfl h hk
  refine keyword_right hat (fun hk => ?_) fun hfunc => ?_
  · exact congr_left (by simp only [Parse.declaration, hkind hk]) (.map (functionDecl ht h hk))
  refine congr_left ?_ (fail h (Nat.le_refl 0) _)
  unfold Parse.declaration
  split <;> simp_all [Cursor.isKeyword]

/-- Declarations are read up to the end of the text. -/
theorem declarations (ht : Token.Ended tokens) {i : Nat} {c : Cursor} {s : Stand}
    (h : Stand.Lands tokens 0 i c s) :
    Follows tokens 0 c s Parse.declarations (Indexed.declarations tokens) fun _ c' s' =>
      Stand.Lands tokens 0 i c' s' ∧ c'.isEof = true := by
  refine collect (fun i c s hi h => ?_) _ (Nat.le_refl i) h (by simp only [Indexed.rounds]; omega)
  refine (skipSeparators h ht).bind fun _ c₁ s₁ h₁ => peek_left (isEof_right h₁.at_index ?_)
  refine ite Iff.rfl (fun heof => .pure ⟨h₁, heof⟩) fun _ => ?_
  refine (declaration ht i c₁ s₁ h₁).bind fun a c₂ s₂ h₂ => ?_
  exact (terminator h₂ ht .declarationEnd).bind fun _ c₃ s₃ h₃ => .pure ⟨trivial, h₃⟩

end Mirrors

/-- Lists of tokens that the scanner gives are read from their first token on. -/
theorem Mirrors.program {tokens : List Token} (ht : Token.Ended tokens) :
    ∃ first rest, tokens = first :: rest ∧
      Follows tokens 0 ⟨.nowhere, first, rest⟩ ⟨0, 0⟩ Parse.declarations
        (Indexed.declarations tokens) fun _ c' s' =>
          Stand.Lands tokens 0 0 c' s' ∧ c'.isEof = true := by
  obtain ⟨first, rest, rfl⟩ : ∃ first rest, tokens = first :: rest := by
    obtain ⟨ts, t, rfl, -, -⟩ := ht
    exact ⟨_, _, (List.cons_head_tail (by simp)).symm⟩
  exact ⟨first, rest, rfl, declarations ht ⟨⟨rfl, rfl⟩, rfl, Nat.le_refl 0⟩⟩

/-- **The machine reads every list of tokens to its end**, if the last token alone is the end of the
text. It never slips: every token that it looks up is there, no level is closed that is not open, and
it comes to an end. If it reads a program, then that is the one the cursor reads; it stands on the last
token, all other ones are behind it, and no level is open. If it fails, then with the error of the
cursor, of which the diagnostic points at one of the tokens. -/
theorem Indexed.program_of_ended (tokens : List Token) (ht : Token.Ended tokens) :
    (∃ p, Program.ofTokens tokens = .ok p ∧
      Indexed.program tokens = .ok (.ok p, ⟨tokens.length - 1, 0⟩)) ∨
    ∃ e s, Program.ofTokens tokens = .error e ∧ Indexed.program tokens = .ok (.error e, s) ∧
      e.PointsAt tokens := by
  obtain ⟨first, rest, rfl, hread⟩ := Mirrors.program ht
  unfold Follows at hread
  rw [Program.ofTokens, Cursor.ofTokens?, Indexed.program, List.isEmpty_cons, if_neg Bool.false_ne_true,
    map_eq_pure_bind]
  cases hp : Parse.declarations ⟨.nowhere, first, rest⟩ with
  | error e =>
    rw [hp] at hread
    obtain ⟨s, hrun, -, hpoints⟩ := hread
    exact .inr ⟨e, s, by simp only [hp]; rfl, Indexed.run_bind_error hrun, hpoints⟩
  | ok r =>
    obtain ⟨ds, c'⟩ := r
    rw [hp] at hread
    obtain ⟨⟨index, depth⟩, hrun, ⟨hat, rfl, -⟩, heof⟩ := hread
    -- at the end of the text the index is that of the last token
    obtain rfl := hat.index_eq ht ((c'.isEof_iff).mp heof)
    refine .inl ⟨Parse.programOf ds, by simp only [hp]; rfl, ?_⟩
    rw [Indexed.run_bind hrun]
    rfl

/-- The tokens of `var x = -1`. -/
def Token.negatives : List Token :=
  [.keyword .varK, .identifier "x", .symbol .equals, .symbol .minus, .constant (.int 1), .eof].map
    (⟨·, .nowhere⟩)

theorem Indexed.program_of_negatives : Token.Ended Token.negatives ∧
    ∃ p, Program.ofTokens Token.negatives = .ok p ∧
      Indexed.program Token.negatives = .ok (.ok p, ⟨5, 0⟩) := by
  have hended : Token.Ended Token.negatives := by
    refine ⟨Token.negatives.dropLast, ⟨.eof, .nowhere⟩, rfl, rfl, ?_⟩
    simp [Token.negatives]
  have hrun : ∃ p, Indexed.program Token.negatives = .ok (.ok p, ⟨5, 0⟩) := ⟨_, rfl⟩
  refine ⟨hended, (Indexed.program_of_ended _ hended).resolve_right ?_⟩
  rintro ⟨e, s, -, herror, -⟩
  obtain ⟨p, hp⟩ := hrun
  rw [hp] at herror
  cases herror

/-- **What is wrong with tokens is marked at one of them.** -/
theorem Program.pointsAt_of_ofTokens {tokens : List Token} (ht : Token.Ended tokens) {e : ParseError}
    (h : Program.ofTokens tokens = .error e) : e.PointsAt tokens := by
  obtain ⟨first, rest, rfl, hread⟩ := Mirrors.program ht
  unfold Follows at hread
  rw [Program.ofTokens, Cursor.ofTokens?] at h
  cases hp : Parse.declarations ⟨.nowhere, first, rest⟩ with
  | error e' =>
    rw [hp] at hread
    simp only [hp] at h
    cases h
    obtain ⟨s, -, -, hpoints⟩ := hread
    exact hpoints
  | ok r =>
    simp only [hp] at h
    cases h

end Formula
