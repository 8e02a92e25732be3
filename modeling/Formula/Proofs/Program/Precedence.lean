import Formula.Proofs.Program.Reading
import Formula.Proofs.Program.Term
import Formula.Proofs.Registry.Parsing

/-!
# Precedence

The tokens of a term are read as that term, whatever comes before and behind them, if the levels of
nesting suffice, and else the reader fails for want of levels. This goes through the terms form by
form. A row of operators, and a row of argument lists, is read from left to right, with what follows
the row as the continuation.

## Main definitions

* `Parse.ReadsIf fits p c Q`: the reader reads what satisfies `Q` if the levels fit
* `Term.Read t`: the tokens of the term are read as that term

## Main results

* `Term.read`: the tokens of every term are read as that term
* `Term.expression_of_kinds`: an expression is read exactly if its levels of nesting suffice
* `Term.kinds_injective`: different terms have different tokens
-/

namespace Formula

open Cursor Parse Level

namespace Parse

variable {α β : Type} {p : Parse α} {f : α → Parse β} {c c₁ : Cursor}

/-- **The reader reads what satisfies `Q` if the levels fit**, and else it fails for want of
levels. -/
structure ReadsIf (fits : Prop) (p : Parse α) (c : Cursor) (Q : α → Cursor → Prop) : Prop where
  ok : fits → ∃ a c', p c = .ok (a, c') ∧ Q a c'
  error : ¬fits → ∃ token, p c = .error (.at .nestingTooDeep token)

namespace ReadsIf

variable {fits A B : Prop} {P Q : α → Cursor → Prop} {R : β → Cursor → Prop}

theorem of_iff (h : ReadsIf A p c Q) (hAB : A ↔ B) : ReadsIf B p c Q where
  ok hB := h.ok (hAB.mpr hB)
  error hB := h.error (mt hAB.mp hB)

theorem mono (h : ReadsIf A p c P) (hPQ : ∀ a c', P a c' → Q a c') : ReadsIf A p c Q where
  ok hA := by
    obtain ⟨a, c', hp, hP⟩ := h.ok hA
    exact ⟨a, c', hp, hPQ a c' hP⟩
  error := h.error

theorem done {a : α} (h : p c = .ok (a, c₁)) (hQ : Q a c₁) : ReadsIf True p c Q where
  ok _ := ⟨a, c₁, h, hQ⟩
  error hfalse := absurd trivial hfalse

theorem of_eq {q : Parse α} {c' : Cursor} (h : ReadsIf A q c' Q) (heq : p c = q c') :
    ReadsIf A p c Q where
  ok := heq ▸ h.ok
  error := heq ▸ h.error

/-- A reader that needs no level comes first. -/
theorem after {a : α} (h : p c = .ok (a, c₁)) (hf : ReadsIf B (f a) c₁ R) :
    ReadsIf B (p >>= f) c R :=
  hf.of_eq (bind_of_ok h)

/-- Two readers in sequence need the levels of both. -/
theorem bind (h : ReadsIf A p c P) (hf : ∀ a c₁, P a c₁ → ReadsIf B (f a) c₁ R) :
    ReadsIf (A ∧ B) (p >>= f) c R where
  ok := by
    rintro ⟨hA, hB⟩
    obtain ⟨a, c₁, hp, hP⟩ := h.ok hA
    rw [bind_of_ok hp]
    exact (hf a c₁ hP).ok hB
  error hAB := by
    by_cases hA : A
    · obtain ⟨a, c₁, hp, hP⟩ := h.ok hA
      rw [bind_of_ok hp]
      exact (hf a c₁ hP).error fun hB => hAB ⟨hA, hB⟩
    · obtain ⟨token, hp⟩ := h.error hA
      exact ⟨token, bind_of_error hp⟩

/-- What follows a reader needs no level. -/
theorem bind_done (h : ReadsIf A p c P) (hf : ∀ a c₁, P a c₁ → ReadsIf True (f a) c₁ R) :
    ReadsIf A (p >>= f) c R :=
  (h.bind hf).of_iff (and_iff_left trivial)

/-- The last round of a loop. -/
theorem collect_last {step : Parse (Option (α × Bool))} {R : List α → Cursor → Prop}
    (h : ReadsIf A step c fun r c₁ => ∃ a, r = some (a, false) ∧ R [a] c₁) :
    ReadsIf A (collect step) c R where
  ok hA := by
    obtain ⟨_, c₁, hstep, a, rfl, hR⟩ := h.ok hA
    exact ⟨[a], c₁, by rw [collect, hstep]; simp, hR⟩
  error hA := by
    obtain ⟨token, hstep⟩ := h.error hA
    exact ⟨token, by rw [collect, hstep]⟩

/-- A round of a loop after which it goes on. -/
theorem collect_more {step : Parse (Option (α × Bool))} {R : List α → Cursor → Prop}
    (h : ReadsIf A step c fun r c₁ => ∃ a, r = some (a, true) ∧ c₁.left < c.left ∧
      ReadsIf B (collect step) c₁ fun as c₂ => R (a :: as) c₂) :
    ReadsIf (A ∧ B) (collect step) c R where
  ok := by
    rintro ⟨hA, hB⟩
    obtain ⟨_, c₁, hstep, a, rfl, hlt, hrest⟩ := h.ok hA
    obtain ⟨as, c₂, has, hR⟩ := hrest.ok hB
    exact ⟨a :: as, c₂, by rw [collect_of_some hstep hlt, has]; rfl, hR⟩
  error hAB := by
    by_cases hA : A
    · obtain ⟨_, c₁, hstep, a, rfl, hlt, hrest⟩ := h.ok hA
      obtain ⟨token, herror⟩ := hrest.error fun hB => hAB ⟨hA, hB⟩
      exact ⟨token, by rw [collect_of_some hstep hlt, herror]; rfl⟩
    · obtain ⟨token, hstep⟩ := h.error hA
      exact ⟨token, by rw [collect, hstep]⟩

end ReadsIf

end Parse

/-! ## Levels -/

namespace Level

variable {α : Type} {f : Level → Parse α} {c : Cursor} {fits : Prop} {Q : α → Cursor → Prop}

/-- One more level needs a level. -/
theorem enter_readsIf {n : Nat} (h : ∀ m, n = m + 1 → ReadsIf fits (f (withRemaining m)) c Q) :
    ReadsIf (0 < n ∧ fits) (enter (below n) >>= f) c Q := by
  cases n with
  | zero =>
    constructor
    · rintro ⟨h, -⟩
      exact absurd h (Nat.lt_irrefl 0)
    · intro _
      exact ⟨c.current, rfl⟩
  | succ m =>
    exact (h m rfl).of_iff (and_iff_right (Nat.succ_pos m)).symm

end Level

/-! ## Tokens -/

namespace Cursor

variable {c c' c'' : Cursor} {k follow : TokenKind} {ks : List TokenKind}

theorem Comes.trans {kinds : List TokenKind} (h : c.Comes c' kinds) (h' : c'.Comes c'' ks) :
    c.Comes c'' ks :=
  ⟨h'.kinds_eq, h'.suffix.trans h.suffix⟩

theorem kind_of_kinds (h : c.kinds = k :: ks) : c.kind = k :=
  (List.cons_eq_cons.mp h).1

/-- The cursor on the first of tokens that stand nowhere. -/
def onKinds (k : TokenKind) (ks : List TokenKind) : Cursor :=
  ⟨.nowhere, ⟨k, .nowhere⟩, ks.map (⟨·, .nowhere⟩)⟩

@[simp]
theorem kinds_onKinds (k : TokenKind) (ks : List TokenKind) : (onKinds k ks).kinds = k :: ks := by
  rw [kinds, onKinds, List.map_map]
  exact congrArg (k :: ·) (List.map_id ks)

/-- The cursor steps over a token that is not the last one. -/
theorem comes_advance (h : c.kinds = k :: ks) (hks : ks ≠ []) : c.Comes c.advance ks := by
  obtain ⟨follow, ks, rfl⟩ := List.exists_cons_of_ne_nil hks
  obtain ⟨b, s, rest, rfl, h₁⟩ := exists_of_kinds h
  obtain ⟨s₁, ts, rfl, rfl⟩ := exists_tokens h₁
  exact ⟨rfl, ⟨[_], rfl⟩⟩

/-- A cursor that has come to fewer tokens has fewer of them before it. -/
theorem Comes.left_lt (h : c.Comes c' ks) (hlt : ks.length < c.kinds.length) : c'.left < c.left := by
  have hks := congrArg List.length h.kinds_eq
  simp only [kinds, List.length_cons, List.length_map] at hks hlt
  simp only [left]
  omega

theorem isSymbol_of_kinds {s : Symbol} (h : c.kinds = .symbol s :: ks) : c.isSymbol s = true := by
  simp [isSymbol, kind_of_kinds h]

theorem isSymbol_of_ne {s : Symbol} (h : c.kinds = k :: ks) (hne : k ≠ .symbol s) :
    c.isSymbol s = false := by
  have hk := kind_of_kinds h
  unfold isSymbol
  split
  · rename_i t ht
    have hts : t ≠ s := by
      rintro rfl
      exact hne (hk.symm.trans ht)
    simp [hts]
  · rfl

end Cursor

namespace Parse

variable {c : Cursor} {k follow : TokenKind} {ks : List TokenKind} {s : Symbol}

theorem eat_of_kinds (h : c.kinds = .symbol s :: ks) : eat s c = .ok (true, c.advance) := by
  simp [eat, isSymbol_of_kinds h]

theorem eat_of_ne (h : c.kinds = k :: ks) (hne : k ≠ .symbol s) : eat s c = .ok (false, c) := by
  simp [eat, isSymbol_of_ne h hne]

theorem symbol_of_kinds {what : Wanted} (h : c.kinds = .symbol s :: ks) :
    symbol s what c = .ok (c.current, c.advance) := by
  simp [symbol, isSymbol_of_kinds h, next]

theorem peek_of_ne (h : c.kinds = k :: ks) (hne : k ≠ .symbol s) :
    peek (·.isSymbol s) c = .ok (false, c) := by
  simp [peek, isSymbol_of_ne h hne]

end Parse

/-- Whether an operand that no operator stands before can begin with the token. -/
def TokenKind.startsOperand : TokenKind → Bool
  | identifier _ | constant _ | symbol .lparen => true
  | _ => false

/-- Whether a term can begin with the token. -/
def TokenKind.startsTerm : TokenKind → Bool
  | symbol .minus | symbol .bang => true
  | k => k.startsOperand

/-- **What is held together so tightly ends before the token.** -/
structure TokenKind.Ends (tightness : Nat) (k : TokenKind) : Prop where
  ne_lparen : k ≠ .symbol .lparen
  ne_dot : k ≠ .symbol .dot
  precedence_le : ∀ op ∈ k.binaryOp?, op.precedence ≤ tightness

namespace TokenKind

variable {k : TokenKind}

theorem startsTerm_of_startsOperand (h : k.startsOperand = true) : k.startsTerm = true := by
  unfold startsTerm
  split
  · rfl
  · rfl
  · exact h

theorem ne_of_startsOperand (h : k.startsOperand = true) {s : Symbol} (hs : s ≠ .lparen) :
    k ≠ .symbol s := by
  rintro rfl
  cases s <;> simp_all [startsOperand]

theorem ne_rparen_of_startsTerm (h : k.startsTerm = true) : k ≠ .symbol .rparen := by
  rintro rfl
  exact absurd h (by decide)

theorem ends_newline : Ends 0 .newline := ⟨nofun, nofun, nofun⟩

theorem ends_eof : Ends 0 .eof := ⟨nofun, nofun, nofun⟩

theorem ends_rparen : Ends 0 (.symbol .rparen) := ⟨nofun, nofun, nofun⟩

theorem ends_comma : Ends 0 (.symbol .comma) := ⟨nofun, nofun, nofun⟩

theorem ends_binaryOp (op : BinaryOp) : Ends op.precedence (.symbol op.symbol) where
  ne_lparen := by cases op <;> nofun
  ne_dot := by cases op <;> nofun
  precedence_le := by simp

theorem Ends.mono {a b : Nat} (h : Ends a k) (hab : a ≤ b) : Ends b k where
  ne_lparen := h.ne_lparen
  ne_dot := h.ne_dot
  precedence_le op hop := Nat.le_trans (h.precedence_le op hop) hab

end TokenKind

/-! ## What it is to be read -/

namespace Term

/-- The reader has read the term, up to the tokens `ks`. -/
def At (c : Cursor) (ks : List TokenKind) (t : Term) (e : Expr) (c' : Cursor) : Prop :=
  e.term? = some t ∧ c.Comes c' ks

/-- **Operands are read with the argument lists after them**: before what goes on from such an
operand `t`, of which `calls` argument lists are read in a row, the tokens `kinds` are read as `t`. -/
structure ReadAsCallee (kinds : List TokenKind) (t : Term) (levels calls : Nat) : Prop where
  first : ∃ k ks, kinds = k :: ks ∧ k.startsOperand = true
  reads : ∀ (n : Nat) {c : Cursor} {follow : TokenKind} {ks : List TokenKind} {fits : Prop}
    {Q : Expr → Cursor → Prop}, c.kinds = kinds ++ follow :: ks → follow ≠ .symbol .dot →
    (∀ e c', At c (follow :: ks) t e c' → ReadsIf fits (callsUnder (below (n - calls)) e) c' Q) →
    ReadsIf (levels ≤ n ∧ fits) (postfixUnder (below n)) c Q

/-- Operands are read with the operators before them. -/
structure ReadAsOperand (kinds : List TokenKind) (t : Term) (levels : Nat) : Prop where
  first : ∃ k ks, kinds = k :: ks ∧ k.startsTerm = true
  reads : ∀ (n : Nat) {c : Cursor} {follow : TokenKind} {ks : List TokenKind},
    c.kinds = kinds ++ follow :: ks → follow ≠ .symbol .lparen → follow ≠ .symbol .dot →
    ReadsIf (levels ≤ n) (unaryUnder (below n)) c (At c (follow :: ks) t)

/-- **Operators in a row are read from left to right**: before what goes on from such a row `t` of
`chain` operators that bind as tightly as `tightness`, the tokens `kinds` are read as `t`. -/
structure ReadAsRow (kinds : List TokenKind) (t : Term) (tightness levels chain : Nat) : Prop where
  first : ∃ k ks, kinds = k :: ks ∧ k.startsTerm = true
  reads : ∀ (n : Nat) {least : Nat} {c : Cursor} {follow : TokenKind} {ks : List TokenKind}
    {fits : Prop} {Q : Expr → Cursor → Prop}, least ≤ tightness →
    c.kinds = kinds ++ follow :: ks → follow.Ends tightness →
    (∀ e c', At c (follow :: ks) t e c' →
      ReadsIf fits (operatorsUnder (below (n - chain)) e least) c' Q) →
    ReadsIf (levels ≤ n ∧ fits) (binaryUnder (below n) least) c Q

section Places

variable {kinds : List TokenKind} {t : Term} {tightness levels calls length : Nat}

/-- An operand ends before a token that is neither a dot nor a parenthesis. -/
theorem ReadAsCallee.operand (h : ReadAsCallee kinds t levels calls) :
    ReadAsOperand kinds t levels where
  first := by
    obtain ⟨k, ks, hkinds, hk⟩ := h.first
    exact ⟨k, ks, hkinds, TokenKind.startsTerm_of_startsOperand hk⟩
  reads n c follow ks hc hlparen hdot := by
    obtain ⟨k, ks', hkinds, hk⟩ := h.first
    have hfirst : c.kinds = k :: (ks' ++ follow :: ks) := by
      rw [hc, hkinds]
      rfl
    -- An operand begins with none of the three operators that may stand before one.
    refine .after (eat_of_ne hfirst (TokenKind.ne_of_startsOperand hk nofun)) ?_
    refine .after (peek_of_ne hfirst (TokenKind.ne_of_startsOperand hk nofun)) ?_
    refine .after (peek_of_ne hfirst (TokenKind.ne_of_startsOperand hk nofun)) ?_
    refine (h.reads n hc hdot fun e c' hat => ?_).of_iff (and_iff_left trivial)
    refine .after (eat_of_ne hat.2.kinds_eq hlparen) ?_
    refine .after (peek_of_ne hat.2.kinds_eq hdot) ?_
    exact .done rfl hat

/-- An operand is a row without operators. -/
theorem ReadAsOperand.row (h : ReadAsOperand kinds t levels) (tightness : Nat) :
    ReadAsRow kinds t tightness levels 0 where
  first := h.first
  reads n _ _ _ _ _ _ _ hc hends hcont :=
    (h.reads n hc hends.ne_lparen hends.ne_dot).bind hcont

/-- Before fewer tokens a row may be read where operators bind less tightly. -/
theorem ReadAsRow.loosen (h : ReadAsRow kinds t tightness levels length) {place : Nat}
    (hplace : place ≤ tightness) : ReadAsRow kinds t place levels length where
  first := h.first
  reads n _ _ _ _ _ _ hleast hc hends hcont :=
    h.reads n (Nat.le_trans hleast hplace) hc (hends.mono hplace) hcont

theorem operators_of_lt {below : Option Level} {e : Expr} {least : Nat} {c : Cursor}
    {k : TokenKind} {ks : List TokenKind} (hc : c.kinds = k :: ks)
    (hk : ∀ op ∈ k.binaryOp?, op.precedence < least) :
    operatorsUnder below e least c = .ok (e, c) := by
  unfold operatorsUnder
  rw [kind_of_kinds hc]
  split
  · rfl
  · rename_i op hop
    rw [if_pos (hk op hop)]

/-- A row is complete before an operator that binds less tightly than what is to be read. -/
theorem ReadAsRow.whole (h : ReadAsRow kinds t tightness levels length) {n least : Nat}
    {c : Cursor} {follow : TokenKind} {ks : List TokenKind} (hleast : least ≤ tightness)
    (hc : c.kinds = kinds ++ follow :: ks) (hends : follow.Ends tightness)
    (hlt : ∀ op ∈ follow.binaryOp?, op.precedence < least) :
    ReadsIf (levels ≤ n) (binaryUnder (below n) least) c (At c (follow :: ks) t) := by
  refine (h.reads n hleast hc hends fun e c' hat => ?_).of_iff (and_iff_left trivial)
  exact .done (operators_of_lt hat.2.kinds_eq hlt) hat

/-- An expression needs one level more than its operators. -/
theorem ReadAsRow.expression (h : ReadAsRow kinds t tightness levels length)
    (htight : 1 ≤ tightness) {n : Nat} {c : Cursor} {follow : TokenKind} {ks : List TokenKind}
    (hc : c.kinds = kinds ++ follow :: ks) (hends : follow.Ends 0) :
    ReadsIf (levels + 1 ≤ n) (expressionUnder (below n)) c (At c (follow :: ks) t) := by
  have hno : ∀ op ∈ follow.binaryOp?, op.precedence < 1 :=
    fun op hop => Nat.lt_succ_of_le (hends.precedence_le op hop)
  refine ReadsIf.of_iff (A := 0 < n ∧ levels ≤ n - 1) ?_ (by omega)
  refine enter_readsIf ?_
  rintro m rfl
  rw [withRemaining_eq]
  exact h.whole htight hc (hends.mono (Nat.zero_le _)) hno

/-- An operand goes on with what follows its first part, if that is no dot. -/
theorem postfix_of_primary {n : Nat} {c : Cursor} {follow : TokenKind} {ks : List TokenKind}
    {fits : Prop} {Q : Expr → Cursor → Prop}
    (h : ReadsIf (levels ≤ n) (primaryUnder (below n)) c (At c (follow :: ks) t))
    (hdot : follow ≠ .symbol .dot)
    (hcont : ∀ e c', At c (follow :: ks) t e c' → ReadsIf fits (callsUnder (below n) e) c' Q) :
    ReadsIf (levels ≤ n ∧ fits) (postfixUnder (below n)) c Q := by
  refine h.bind fun e c' hat => ?_
  have hselector : selectorUnder e c' = .ok (e, c') :=
    bind_of_ok (peek_of_ne hat.2.kinds_eq hdot)
  exact .after hselector (hcont e c' hat)

/-- In parentheses, a row is an operand. -/
theorem ReadAsRow.grouped (h : ReadAsRow kinds t tightness levels length)
    (htight : 1 ≤ tightness) :
    ReadAsCallee (.symbol .lparen :: (kinds ++ [.symbol .rparen])) t (levels + 1) 0 where
  first := ⟨_, _, rfl, rfl⟩
  reads n c follow ks fits Q hc hdot hcont := by
    refine postfix_of_primary ?_ hdot hcont
    have hopen : c.kinds = .symbol .lparen :: (kinds ++ .symbol .rparen :: follow :: ks) := by
      simp [hc]
    have hadvance := comes_advance hopen (by simp)
    have hprimary : primaryUnder (below n) c = (do
        let inner ← expressionUnder (below n)
        let _ ← symbol .rparen .parenthesisClose
        return inner : Parse Expr) c.advance := by
      have hk : c.current.kind = .symbol .lparen := kind_of_kinds hopen
      simp only [primaryUnder, hk]
    refine ReadsIf.of_eq ?_ hprimary
    refine (h.expression htight hadvance.kinds_eq TokenKind.ends_rparen).bind_done fun e c₁ hat => ?_
    refine .after (symbol_of_kinds hat.2.kinds_eq) (.done rfl ⟨hat.1, ?_⟩)
    exact (hadvance.trans hat.2).trans (comes_advance hat.2.kinds_eq (by simp))

end Places

/-- **The tokens of a term are read as that term.** -/
structure Read (t : Term) : Prop where
  row : ReadAsRow t.kinds t t.tightness t.levels t.chain
  operand : 6 ≤ t.tightness → ReadAsOperand t.kinds t t.levels
  callee : 7 ≤ t.tightness → ReadAsCallee t.kinds t t.levels t.calls

namespace Read

variable {t : Term}

theorem one_le_tightness (t : Term) : 1 ≤ t.tightness := by
  cases t with
  | binary op _ _ => exact op.precedence_pos
  | _ => exact Nat.succ_pos _

/-- A term at its place, in parentheses if they are needed there. -/
theorem side (h : t.Read) (place : Nat) :
    ReadAsRow (grouped (t.tightness < place) t.kinds) t place
      (raised (t.tightness < place) t.levels) (resumed (t.tightness < place) t.chain) := by
  by_cases hlt : t.tightness < place
  · simp only [grouped, raised, resumed, hlt, decide_true, if_true]
    exact (h.row.grouped (one_le_tightness t)).operand.row place
  · simp only [grouped, raised, resumed, hlt, decide_false, Bool.false_eq_true, if_false]
    exact h.row.loosen (Nat.not_lt.mp hlt)

/-- A term behind an operator that stands before it. -/
theorem prefixed (h : t.Read) :
    ReadAsOperand (grouped (t.tightness < 6) t.kinds) t (raised (t.tightness < 6) t.levels) := by
  by_cases hlt : t.tightness < 6
  · simp only [grouped, raised, hlt, decide_true, if_true]
    exact (h.row.grouped (one_le_tightness t)).operand
  · simp only [grouped, raised, hlt, decide_false, Bool.false_eq_true, if_false]
    exact h.operand (Nat.not_lt.mp hlt)

/-- A term before an argument list. -/
theorem called (h : t.Read) :
    ReadAsCallee (grouped (t.tightness < 7) t.kinds) t (raised (t.tightness < 7) t.levels)
      (resumed (t.tightness < 7) t.calls) := by
  by_cases hlt : t.tightness < 7
  · simp only [grouped, raised, resumed, hlt, decide_true, if_true]
    exact h.row.grouped (one_le_tightness t)
  · simp only [grouped, raised, resumed, hlt, decide_false, Bool.false_eq_true, if_false]
    exact h.callee (Nat.not_lt.mp hlt)

/-- A term before a token that neither goes on with it nor is an operator. -/
theorem expression (h : t.Read) {n : Nat} {c : Cursor} {follow : TokenKind} {ks : List TokenKind}
    (hc : c.kinds = t.kinds ++ follow :: ks) (hends : follow.Ends 0) :
    ReadsIf (t.levels + 1 ≤ n) (expressionUnder (below n)) c (At c (follow :: ks) t) :=
  h.row.expression (one_le_tightness t) hc hends

/-- What can be called is also an operand and a row. -/
theorem of_callee (h : ReadAsCallee t.kinds t t.levels t.calls) (hchain : t.chain = 0) :
    t.Read where
  row := hchain ▸ h.operand.row t.tightness
  operand _ := h.operand
  callee _ := h

/-! ## The forms of terms -/

/-- A constant or a name is read as it is. -/
theorem of_token {k : TokenKind} (hk : k.startsOperand = true) (hkinds : t.kinds = [k])
    (hlevels : t.levels = 0) (hcalls : t.calls = 0) (hchain : t.chain = 0)
    (hread : ∀ below b span rest, ∃ e, e.term? = some t ∧
      primaryUnder below ⟨b, ⟨k, span⟩, rest⟩ = .ok (e, Cursor.advance ⟨b, ⟨k, span⟩, rest⟩)) :
    t.Read := by
  refine of_callee ⟨⟨k, [], hkinds, hk⟩, ?_⟩ hchain
  intro n c follow ks fits Q hc hdot hcont
  rw [hkinds, List.singleton_append] at hc
  rw [hcalls] at hcont
  refine postfix_of_primary ?_ hdot hcont
  have hcomes := comes_advance hc (by simp)
  obtain ⟨b, span, rest, rfl, -⟩ := exists_of_kinds hc
  obtain ⟨e, he, hprimary⟩ := hread (below n) b span rest
  exact (ReadsIf.done hprimary ⟨he, hcomes⟩).of_iff (by simp [hlevels])

theorem literal (value : Scalar) : (Term.literal value).Read :=
  of_token (k := .constant value) rfl rfl rfl rfl rfl fun _ _ _ _ => ⟨_, rfl, rfl⟩

theorem name (n : String) : (Term.name n).Read :=
  of_token (k := .identifier n) rfl rfl rfl rfl rfl fun _ _ _ _ => ⟨_, rfl, rfl⟩

theorem member (target m : String) : (Term.member target m).Read := by
  refine of_callee ⟨⟨_, _, rfl, rfl⟩, ?_⟩ rfl
  intro n c follow ks fits Q hc hdot hcont
  obtain ⟨b, s, rest, rfl, h₁⟩ := exists_of_kinds hc
  obtain ⟨s₁, ts₁, rfl, h₂⟩ := exists_tokens h₁
  obtain ⟨s₂, ts₂, rfl, h₃⟩ := exists_tokens h₂
  obtain ⟨s₃, ts₃, rfl, rfl⟩ := exists_tokens h₃
  -- The name, the dot and the member are read without a level.
  refine ReadsIf.of_iff (A := fits) ?_ (by simp [levels])
  exact (hcont (.selector target m (s.join s₂)) ⟨s₂, ⟨follow, s₃⟩, ts₃⟩
    ⟨rfl, rfl, [_, _, _], rfl⟩).of_eq rfl

theorem unary (op : UnaryOp) {operand : Term} (h : operand.Read) :
    (Term.unary op operand).Read := by
  have hoperand : ReadAsOperand (Term.unary op operand).kinds (.unary op operand)
      (Term.unary op operand).levels := by
    refine ⟨⟨.symbol op.symbol, _, rfl, by cases op <;> rfl⟩, ?_⟩
    intro n c follow ks hc hlparen hdot
    have hadvance := comes_advance (c := c) hc (by simp)
    -- The reader looks for one operator after the other, and each of them has its own sign.
    have hunary : unaryUnder (below n) c = unaryUnder.operator (below n) op c := by
      have hk : c.current.kind = .symbol op.symbol := kind_of_kinds (c := c) hc
      cases op <;>
        simp [unaryUnder, bind, StateT.bind, eat, peek, isSymbol, Cursor.kind, hk, UnaryOp.symbol,
          Except.bind]
    refine ReadsIf.of_eq (p := unaryUnder (below n)) ?_ hunary
    refine .after (p := next) rfl ?_
    refine ReadsIf.of_iff (A := 0 < n ∧ raised (operand.tightness < 6) operand.levels ≤ n - 1) ?_
      (by simp only [levels]; omega)
    refine enter_readsIf ?_
    rintro m rfl
    rw [withRemaining_eq]
    refine (h.prefixed.reads m hadvance.kinds_eq hlparen hdot).bind_done fun e c₁ hat => ?_
    exact .done rfl ⟨by simp [Expr.term?, hat.1], hadvance.trans hat.2⟩
  exact ⟨hoperand.row _, fun _ => hoperand, fun h => absurd h (Nat.lt_irrefl 6)⟩

theorem binary (op : BinaryOp) {left right : Term} (hl : left.Read) (hr : right.Read) :
    (Term.binary op left right).Read := by
  have hrow : ReadAsRow (Term.binary op left right).kinds (.binary op left right) op.precedence
      (Term.binary op left right).levels (Term.binary op left right).chain := by
    obtain ⟨k, ks, hkinds, hk⟩ := (hl.side op.precedence).first
    refine ⟨⟨k, _, by rw [Term.kinds, hkinds]; rfl, hk⟩, ?_⟩
    intro n least c follow ks fits Q hleast hc hends hcont
    have hleft : c.kinds = grouped (left.tightness < op.precedence) left.kinds ++
        .symbol op.symbol ::
          (grouped (right.tightness < op.precedence + 1) right.kinds ++ follow :: ks) := by
      simp [hc, Term.kinds]
    -- The row of the left operand goes on with this operator.
    generalize hlength : resumed (left.tightness < op.precedence) left.chain = length at *
    refine ReadsIf.of_iff (A := raised (left.tightness < op.precedence) left.levels ≤ n ∧
      0 < n - length ∧ raised (right.tightness < op.precedence + 1) right.levels ≤
        n - length - 1 ∧ fits) ?_ ?_
    · refine (hl.side op.precedence).reads n hleast hleft (TokenKind.ends_binaryOp op) ?_
      rw [hlength]
      intro e c₁ hat
      have hadvance := comes_advance hat.2.kinds_eq (by simp)
      -- The operator binds as tightly as is asked for, so the row goes on with it.
      have hgo : operatorsUnder (below (n - length)) e least c₁ = (do
          let level ← enter (below (n - length))
          let right ← level.binary (op.precedence + 1)
          level.operators (.binary op e right (e.span.join right.span)) least : Parse Expr)
            c₁.advance := by
        simp only [operatorsUnder, kind_of_kinds hat.2.kinds_eq, BinaryOp.binaryOp?_symbol,
          if_neg (Nat.not_lt.mpr hleast)]
      refine ReadsIf.of_eq (enter_readsIf fun m hm => ?_) hgo
      rw [withRemaining_eq, hm, Nat.add_sub_cancel]
      -- The right operand asks for more, so that an operator like this one ends it.
      refine ReadsIf.bind ((hr.side (op.precedence + 1)).whole (Nat.le_refl _) hadvance.kinds_eq
        (hends.mono (Nat.le_succ _)) fun op' h => Nat.lt_succ_of_le (hends.precedence_le op' h)) ?_
      intro e' c₂ hat'
      -- What follows goes on from this row, with the levels that its operators leave.
      have hrest : n - (Term.binary op left right).chain = m := by
        rw [Term.chain, hlength]
        omega
      rw [hrest] at hcont
      refine hcont _ c₂ ⟨by simp [Expr.term?, hat.1, hat'.1], ?_⟩
      exact (hat.2.trans hadvance).trans hat'.2
    · rw [← and_assoc, ← and_assoc]
      refine and_congr_left' ?_
      simp only [levels, hlength]
      omega
  refine ⟨hrow, fun h => ?_, fun h => ?_⟩
  · exact absurd h (Nat.not_le.mpr (Nat.lt_succ_of_le op.precedence_le))
  · exact absurd h (Nat.not_le.mpr (Nat.lt_succ_of_le (Nat.le_succ_of_le op.precedence_le)))

theorem kindsOfAll_cons (t : Term) {ts : List Term} (hts : ts ≠ []) :
    kindsOfAll (t :: ts) = t.kinds ++ .symbol .comma :: kindsOfAll ts := by
  obtain ⟨u, us, rfl⟩ := List.exists_cons_of_ne_nil hts
  rw [kindsOfAll]

/-- The arguments of a call are read one after the other, each on its own. -/
theorem arguments {ts : List Term} (h : ∀ t ∈ ts, t.Read) {n : Nat} {c : Cursor}
    {ks : List TokenKind} (hc : c.kinds = kindsOfAll ts ++ .symbol .rparen :: ks) :
    ReadsIf (levelsOfAll ts ≤ n) (commaSeparated (expressionUnder (below n))) c fun es c' =>
      Expr.terms? es = some ts ∧ c.Comes c' (.symbol .rparen :: ks) := by
  induction ts generalizing c with
  | nil =>
    have hstop : commaSeparated (expressionUnder (below n)) c = .ok ([], c) := by
      have hclose : peek (·.isSymbol .rparen) c = .ok (true, c) := by
        simp [peek, isSymbol_of_kinds (c := c) hc]
      exact collect_of_none (bind_of_ok hclose)
    exact (ReadsIf.done hstop ⟨rfl, hc, List.suffix_refl _⟩).of_iff (by simp [levelsOfAll])
  | cons t ts ih =>
    obtain ⟨k, ks', hkinds, hk⟩ := (h t List.mem_cons_self).row.first
    -- No argument begins with the parenthesis that ends the list.
    have hopen {ks : List TokenKind} (hc : c.kinds = t.kinds ++ ks) :
        peek (·.isSymbol .rparen) c = .ok (false, c) := by
      rw [hkinds] at hc
      exact peek_of_ne hc (TokenKind.ne_rparen_of_startsTerm hk)
    -- No comma follows the last argument, and the loop ends with it.
    by_cases hts : ts = []
    · subst hts
      refine ReadsIf.of_iff (A := t.levels + 1 ≤ n) ?_ (by simp [levelsOfAll])
      refine ReadsIf.collect_last ?_
      refine .after (hopen hc) ?_
      refine ((h t List.mem_cons_self).expression hc TokenKind.ends_rparen).bind_done ?_
      intro e c₁ hat
      refine .after (eat_of_ne hat.2.kinds_eq (by simp)) (.done rfl ⟨e, rfl, ?_, hat.2⟩)
      simp [Expr.terms?, hat.1]
    · rw [kindsOfAll_cons t hts, List.append_assoc] at hc
      refine ReadsIf.of_iff (A := t.levels + 1 ≤ n ∧ levelsOfAll ts ≤ n) ?_ (by simp [levelsOfAll])
      refine ReadsIf.collect_more ?_
      refine .after (hopen hc) ?_
      refine ((h t List.mem_cons_self).expression hc TokenKind.ends_comma).bind_done ?_
      intro e c₁ hat
      have hadvance := comes_advance hat.2.kinds_eq (by simp)
      refine .after (eat_of_kinds hat.2.kinds_eq) (.done rfl ⟨e, rfl, ?_, ?_⟩)
      · exact (hat.2.trans hadvance).left_lt (by simp [hc]; omega)
      · refine (ih (fun u hu => h u (List.mem_cons_of_mem t hu)) hadvance.kinds_eq).mono ?_
        rintro es c₂ ⟨hes, hcomes⟩
        exact ⟨by simp [Expr.terms?, hat.1, hes], (hat.2.trans hadvance).trans hcomes⟩

theorem call {callee : Term} {ts : List Term} (hcallee : callee.Read)
    (hts : ∀ t ∈ ts, t.Read) : (Term.call callee ts).Read := by
  refine of_callee ?_ rfl
  obtain ⟨k, ks, hkinds, hk⟩ := hcallee.called.first
  refine ⟨⟨k, _, by rw [Term.kinds, hkinds]; rfl, hk⟩, ?_⟩
  intro n c follow ks fits Q hc hdot hcont
  have hfirst : c.kinds = grouped (callee.tightness < 7) callee.kinds ++
      .symbol .lparen :: (kindsOfAll ts ++ .symbol .rparen :: follow :: ks) := by
    simp [hc, Term.kinds]
  -- The row of the callee goes on with this argument list.
  generalize hlength : resumed (callee.tightness < 7) callee.calls = length at *
  refine ReadsIf.of_iff (A := raised (callee.tightness < 7) callee.levels ≤ n ∧
    0 < n - length ∧ levelsOfAll ts ≤ n - length - 1 ∧ fits) ?_ ?_
  · refine hcallee.called.reads n hfirst nofun ?_
    rw [hlength]
    intro e c₁ hat
    have hadvance := comes_advance hat.2.kinds_eq (by simp)
    refine .after (eat_of_kinds hat.2.kinds_eq) (enter_readsIf fun m hm => ?_)
    rw [withRemaining_eq, hm, Nat.add_sub_cancel]
    refine (arguments hts hadvance.kinds_eq).bind ?_
    rintro es c₂ ⟨hes, hcomes⟩
    -- The arguments may open all levels that are left; behind them these are free again.
    have hclose := comes_advance hcomes.kinds_eq (by simp)
    refine .after (symbol_of_kinds hcomes.kinds_eq) ?_
    have hrest : n - (Term.call callee ts).calls = m := by
      rw [Term.calls, hlength]
      omega
    rw [hrest] at hcont
    refine .after (p := before) rfl (hcont _ c₂.advance ⟨by simp [Expr.term?, hat.1, hes], ?_⟩)
    exact ((hat.2.trans hadvance).trans hcomes).trans hclose
  · rw [← and_assoc, ← and_assoc]
    refine and_congr_left' ?_
    simp only [levels, hlength]
    omega

end Read

mutual

/-- **The tokens of every term are read as that term.** -/
theorem read : (t : Term) → t.Read
  | .literal value => Read.literal value
  | .name n => Read.name n
  | .member target m => Read.member target m
  | .call callee ts => Read.call callee.read (readAll ts)
  | .unary op operand => Read.unary op operand.read
  | .binary op left right => Read.binary op left.read right.read

theorem readAll : (ts : List Term) → ∀ t ∈ ts, t.Read
  | [] => List.forall_mem_nil _
  | t :: ts => List.forall_mem_cons.mpr ⟨t.read, readAll ts⟩

end

/-! ## Expressions -/

/-- **An expression is read exactly if its levels of nesting suffice.** Before the end of a line or
of the text, the tokens of a term, and no others, are read as that term; if more levels of nesting
are open at once than may still be opened, the reader fails for that reason, and for no other. -/
theorem expression_of_kinds (t : Term) (n : Nat) {c : Cursor} {follow : TokenKind}
    {ks : List TokenKind} (hc : c.kinds = t.kinds ++ follow :: ks)
    (hfollow : follow = .newline ∨ follow = .eof) :
    (t.levels < n → ∃ e c', (withRemaining n).expression c = .ok (e, c') ∧ e.term? = some t ∧
      c'.kinds = follow :: ks ∧ ∃ read, c.tokens = read ++ c'.tokens ∧
        read.map Token.kind = t.kinds) ∧
    (n ≤ t.levels → ∃ token, (withRemaining n).expression c =
      .error (.at .nestingTooDeep token)) := by
  have hends : follow.Ends 0 := by
    rcases hfollow with rfl | rfl
    · exact TokenKind.ends_newline
    · exact TokenKind.ends_eof
  rw [withRemaining_eq]
  have hreads := t.read.expression (n := n) hc hends
  constructor
  · intro hlt
    obtain ⟨e, c', hread, hterm, hkinds, read, htokens⟩ := hreads.ok hlt
    refine ⟨e, c', hread, hterm, hkinds, read, htokens.symm, ?_⟩
    -- What was read is what there was, up to the tokens that are left.
    have hall : read.map Token.kind ++ follow :: ks = t.kinds ++ follow :: ks := by
      rw [← hc, ← hkinds]
      exact (List.map_append ..).symm.trans (congrArg (List.map Token.kind) htokens)
    exact List.append_cancel_right hall
  · intro hle
    exact hreads.error (Nat.not_le.mpr (Nat.lt_succ_of_le hle))

/-- The product of a negated sum and a call. -/
def negatedSum : Term :=
  .binary .mul (.unary .neg (.binary .add (.name "A") (.literal (.int 1))))
    (.call (.name "f") [.name "B"])

/-- Only the sum stands in parentheses. -/
theorem expression_negatedSum :
    negatedSum.kinds = [.symbol .minus, .symbol .lparen, .identifier "A", .symbol .plus,
      .constant (.int 1), .symbol .rparen, .symbol .star, .identifier "f", .symbol .lparen,
      .identifier "B", .symbol .rparen] ∧
    ∃ e c', (withRemaining 100).expression (Cursor.onKinds (.symbol .minus)
      [.symbol .lparen, .identifier "A", .symbol .plus, .constant (.int 1), .symbol .rparen,
        .symbol .star, .identifier "f", .symbol .lparen, .identifier "B", .symbol .rparen, .eof]) =
      .ok (e, c') ∧ e.term? = some negatedSum ∧ c'.kinds = [.eof] := by
  obtain ⟨e, c', hread, hterm, hkinds, -⟩ := (expression_of_kinds negatedSum 100
    (kinds_onKinds _ _) (.inr rfl)).1 (by decide)
  exact ⟨rfl, e, c', hread, hterm, hkinds⟩

/-- **Different terms have different tokens.** -/
theorem kinds_injective {t u : Term} (h : t.kinds = u.kinds) : t = u := by
  obtain ⟨k, ks, hkinds, -⟩ := t.read.row.first
  have hc : (Cursor.onKinds k (ks ++ [.eof])).kinds = t.kinds ++ [.eof] := by
    rw [kinds_onKinds, hkinds]
    rfl
  -- There are levels enough for both, and the reader has one result.
  have hread (v : Term) (hv : t.kinds = v.kinds) (hlevels : v.levels ≤ max t.levels u.levels) :
      ∃ e c', expressionUnder (below (max t.levels u.levels + 1))
        (Cursor.onKinds k (ks ++ [.eof])) = .ok (e, c') ∧ e.term? = some v := by
    obtain ⟨e, c', hread, hterm, -⟩ := (v.read.expression (hc.trans (by rw [hv]))
      TokenKind.ends_eof).ok (Nat.succ_le_succ hlevels)
    exact ⟨e, c', hread, hterm⟩
  obtain ⟨e, c₁, hread₁, ht⟩ := hread t rfl (Nat.le_max_left _ _)
  obtain ⟨e', c₂, hread₂, hu⟩ := hread u h (Nat.le_max_right _ _)
  obtain ⟨rfl, -⟩ := Prod.mk.inj (Except.ok.inj (hread₁.symm.trans hread₂))
  exact Option.some.inj (ht.symm.trans hu)

end Term

end Formula
