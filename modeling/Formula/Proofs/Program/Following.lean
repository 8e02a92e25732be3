import Formula.Proofs.Program.Indexed
import Formula.Proofs.Program.Reading

/-!
# The machine reads what the cursor reads

A machine that stands on the token of a cursor reads what the cursor reads and moves on with it, or
fails with the same error. It never slips: it looks up no token that is not there, closes no level
that is not open, and comes to an end. Here are the rules by which this is shown for readers in
sequence and in loops, for single tokens and for types.

## Main definitions

* `Cursor.At`, `Stand.Lands`: the machine stands where the cursor stands
* `Follows`: what a machine does if a cursor reads
* `Mirrors`: the machine reads what the cursor reads, wherever the two stand

## Main results

* `Follows.loop`: a loop of the machine ends where that of the cursor does
* `Mirrors.typeExpr`: types
-/

namespace Formula

/-- An error is at a token: its diagnostic points at the span of one. -/
def ParseError.PointsAt (tokens : List Token) (e : ParseError) : Prop :=
  ∃ label, e.diagnostic.primary = some label ∧ ∃ t ∈ tokens, label.span = t.span

/-- **A machine stands where a cursor stands**: on the same token, with the same ones before and
behind it. -/
structure Cursor.At (tokens : List Token) (c : Cursor) (index : Nat) : Prop where
  drop : tokens.drop index = c.current :: c.rest
  before : Indexed.spanBefore? tokens index = some c.before

/-- The machine stands where the cursor stands, with so many levels open and not before an index. -/
structure Stand.Lands (tokens : List Token) (depth least : Nat) (c : Cursor) (s : Stand) : Prop where
  at_index : c.At tokens s.index
  depth_eq : s.depth = depth
  le : least ≤ s.index

variable {α β : Type} {tokens : List Token}

/-- **What a machine does if a cursor reads.** Where the cursor reads something, the machine reads the
same, and the two go on as `Q` says. Where it fails, the machine fails with the same error, which
points at a token, and no level is closed that was open before. -/
def Follows (tokens : List Token) (least : Nat) (c : Cursor) (s : Stand) (p : Parse α) (m : Indexed α)
    (Q : α → Cursor → Stand → Prop) : Prop :=
  match p c with
  | .ok (a, c') => ∃ s', m s = .ok (.ok a, s') ∧ Q a c' s'
  | .error e => ∃ s', m s = .ok (.error e, s') ∧ least ≤ s'.depth ∧ e.PointsAt tokens

namespace Indexed

variable {m : Indexed α} {g : α → Indexed β} {s s' : Stand}

theorem run_bind {a : α} (hm : m s = .ok (.ok a, s')) : (m >>= g) s = g a s' := by
  change (m s >>= _) = _
  rw [hm]
  rfl

theorem run_bind_error {e : ParseError} (hm : m s = .ok (.error e, s')) :
    (m >>= g) s = .ok (.error e, s') := by
  change (m s >>= _) = _
  rw [hm]
  rfl

end Indexed

namespace Follows

open Indexed (run_bind run_bind_error)

variable {least : Nat} {c : Cursor} {s : Stand} {p : Parse α} {m : Indexed α} {f : α → Parse β}
  {g : α → Indexed β} {P Q : α → Cursor → Stand → Prop} {R : β → Cursor → Stand → Prop}

theorem mono (h : Follows tokens least c s p m P) (hPQ : ∀ a c' s', P a c' s' → Q a c' s') :
    Follows tokens least c s p m Q := by
  unfold Follows at *
  split
  · rename_i a c' hp
    rw [hp] at h
    obtain ⟨s', hm, ha⟩ := h
    exact ⟨s', hm, hPQ _ _ _ ha⟩
  · rename_i e hp
    rw [hp] at h
    exact h

theorem weaken {least' : Nat} (h : Follows tokens least c s p m Q) (hle : least' ≤ least) :
    Follows tokens least' c s p m Q := by
  unfold Follows at *
  split
  · rename_i hp
    rw [hp] at h
    exact h
  · rename_i hp
    rw [hp] at h
    obtain ⟨s', hm, hdepth, hpoints⟩ := h
    exact ⟨s', hm, Nat.le_trans hle hdepth, hpoints⟩

theorem pure {a : α} (h : Q a c s) : Follows tokens least c s (pure a) (pure a) Q :=
  ⟨s, rfl, h⟩

theorem bind (h : Follows tokens least c s p m P)
    (hf : ∀ a c' s', P a c' s' → Follows tokens least c' s' (f a) (g a) R) :
    Follows tokens least c s (p >>= f) (m >>= g) R := by
  unfold Follows at h
  cases hp : p c with
  | error e =>
    rw [hp] at h
    obtain ⟨s', hm, hdepth, hpoints⟩ := h
    unfold Follows
    rw [Parse.bind_of_error hp]
    exact ⟨s', run_bind_error hm, hdepth, hpoints⟩
  | ok r =>
    obtain ⟨a, c'⟩ := r
    rw [hp] at h
    obtain ⟨s', hm, ha⟩ := h
    have hnext := hf a c' s' ha
    unfold Follows at hnext ⊢
    rw [Parse.bind_of_ok hp, run_bind hm]
    exact hnext

theorem map {k : α → β} (h : Follows tokens least c s p m fun a c' s' => R (k a) c' s') :
    Follows tokens least c s (k <$> p) (k <$> m) R := by
  rw [map_eq_pure_bind, map_eq_pure_bind]
  exact h.bind fun _ _ _ ha => .pure ha

theorem ite {b b' : Prop} [Decidable b] [Decidable b'] {x y : Parse α} {x' y' : Indexed α}
    (hb : b ↔ b') (hx : b → Follows tokens least c s x x' Q) (hy : ¬b → Follows tokens least c s y y' Q) :
    Follows tokens least c s (if b then x else y) (if b' then x' else y') Q := by
  by_cases h : b
  · rw [if_pos h, if_pos (hb.mp h)]
    exact hx h
  · rw [if_neg h, if_neg fun h' => h (hb.mpr h')]
    exact hy h

end Follows

/-! ## Where the machine stands -/

namespace Cursor.At

variable {c : Cursor} {i : Nat}

/-- How many tokens are left to the cursor. -/
theorem left_add (h : c.At tokens i) : c.left + i + 1 = tokens.length := by
  have hlength := congrArg List.length h.drop
  simp only [List.length_drop, List.length_cons] at hlength
  simp only [Cursor.left]
  omega

theorem lt (h : c.At tokens i) : i < tokens.length := by
  have := h.left_add
  omega

theorem getElem? (h : c.At tokens i) : tokens[i]? = some c.current := by
  rw [← Nat.add_zero i, ← List.getElem?_drop, h.drop]
  rfl

theorem current_mem (h : c.At tokens i) : c.current ∈ tokens :=
  List.mem_of_getElem? h.getElem?

/-- The cursor is on the last token just where the text ends. -/
theorem rest_ne_nil (h : c.At tokens i) (ht : Token.Ended tokens) (hk : c.kind ≠ .eof) :
    c.rest ≠ [] := by
  obtain ⟨ts, t, rfl, heof, -⟩ := ht
  intro hnil
  have hlast := congrArg List.getLast? h.drop
  have hlt : i ≤ ts.length := by
    have := h.lt
    simp only [List.length_append, List.length_singleton] at this
    omega
  rw [List.drop_append_of_le_length hlt, List.getLast?_append, hnil] at hlast
  simp only [List.getLast?_singleton, Option.some_or, Option.some.injEq] at hlast
  exact hk (by rw [Cursor.kind, ← hlast, heof])

/-- A machine where the text ends has left all other tokens behind. -/
theorem index_eq (h : c.At tokens i) (ht : Token.Ended tokens) (hk : c.kind = .eof) :
    i = tokens.length - 1 := by
  have hcurrent := h.getElem?
  have hlt := h.lt
  obtain ⟨ts, t, rfl, -, hts⟩ := ht
  rw [List.length_append, List.length_singleton] at *
  rcases Nat.lt_or_ge i ts.length with hi | hi
  · rw [List.getElem?_append_left hi] at hcurrent
    exact absurd hk (hts c.current (List.mem_of_getElem? hcurrent))
  · omega

/-- A cursor that is not at the end of the text moves on by one token. -/
theorem advance (h : c.At tokens i) (hrest : c.rest ≠ []) :
    c.advance.At tokens (i + 1) ∧ i + 1 < tokens.length := by
  obtain ⟨before, current, rest⟩ := c
  obtain ⟨t, ts, rfl⟩ := List.exists_cons_of_ne_nil hrest
  have hdrop : tokens.drop (i + 1) = t :: ts := by
    rw [← List.drop_drop, h.drop]
    rfl
  have hat : (Cursor.mk before current (t :: ts)).advance.At tokens (i + 1) := by
    refine ⟨hdrop, ?_⟩
    rw [Indexed.spanBefore?, h.getElem?]
    rfl
  exact ⟨hat, hat.lt⟩

end Cursor.At

namespace Stand.Lands

variable {d i : Nat} {c : Cursor} {s : Stand}

theorem mono {i' : Nat} (h : Lands tokens d i c s) (hle : i' ≤ i) : Lands tokens d i' c s :=
  ⟨h.at_index, h.depth_eq, Nat.le_trans hle h.le⟩

/-- The machine is not before where it stands. -/
theorem here (h : Lands tokens d i c s) : Lands tokens d s.index c s :=
  ⟨h.at_index, h.depth_eq, Nat.le_refl _⟩

theorem lt (h : Lands tokens d i c s) : i < tokens.length :=
  Nat.lt_of_le_of_lt h.le h.at_index.lt

end Stand.Lands

/-! ## Single tokens -/

theorem Cursor.isSymbol_eq (c : Cursor) (s : Symbol) : c.isSymbol s = (c.kind == .symbol s) := by
  unfold isSymbol
  cases c.kind <;> rfl

theorem Cursor.isSymbol_iff {c : Cursor} {s : Symbol} : c.isSymbol s = true ↔ c.kind = .symbol s := by
  unfold isSymbol
  cases c.kind <;> simp

/-- A token is one symbol only. -/
theorem Cursor.isSymbol_of_isSymbol {c : Cursor} {s s' : Symbol} (h : c.isSymbol s = true) (hne : s ≠ s') :
    c.isSymbol s' = false := by
  rw [isSymbol_iff] at h
  rw [isSymbol, h]
  exact decide_eq_false hne

theorem Cursor.isKeyword_iff {c : Cursor} {k : Keyword} :
    c.isKeyword k = true ↔ c.kind = .keyword k := by
  unfold isKeyword
  cases c.kind <;> simp

theorem Cursor.isKeyword_eq (c : Cursor) (k : Keyword) : c.isKeyword k = (c.kind == .keyword k) := by
  unfold isKeyword
  cases c.kind <;> rfl

theorem Cursor.isEof_eq (c : Cursor) : c.isEof = (c.kind == .eof) := by
  unfold isEof
  cases c.kind <;> rfl

theorem Cursor.isEof_iff (c : Cursor) : c.isEof = true ↔ c.kind = .eof := by
  unfold isEof
  cases c.kind <;> simp

theorem Cursor.isSeparator_eq (c : Cursor) : c.isSeparator = Indexed.isSeparator c.kind := by
  unfold isSeparator
  cases hk : c.kind with
  | symbol s => cases s <;> rfl
  | _ => rfl

theorem Cursor.startsType_eq (c : Cursor) : c.startsType = Indexed.startsType c.kind := rfl

theorem Cursor.isTerminator_eq (c : Cursor) : c.isTerminator = Indexed.isTerminator c.kind := by
  rw [isTerminator, isSeparator_eq, isEof_eq]
  rfl

namespace Follows

open Indexed (run_bind run_bind_error)

variable {d i least : Nat} {c : Cursor} {s : Stand} {p : Parse α} {m : Indexed α} {f : α → Parse β}
  {Q : α → Cursor → Stand → Prop} {R : β → Cursor → Stand → Prop}

theorem of_ok {a : α} {r : Cursor} {s' : Stand} (hp : p c = .ok (a, r)) (hm : m s = .ok (.ok a, s'))
    (ha : Q a r s') : Follows tokens least c s p m Q := by
  unfold Follows
  rw [hp]
  exact ⟨s', hm, ha⟩

/-- What the two do is what they do from somewhere else on. -/
theorem of_eq {c' : Cursor} {s' : Stand} {q : Parse α} {n : Indexed α} (hp : p c = q c')
    (hm : m s = n s') (h : Follows tokens least c' s' q n Q) : Follows tokens least c s p m Q := by
  unfold Follows at *
  rwa [hp, hm]

/-- What is known of the cursor alone. -/
theorem and_reads {P : α → Cursor → Prop} (h : Follows tokens least c s p m Q) (hp : Parse.Reads p c P) :
    Follows tokens least c s p m fun a c' s' => Q a c' s' ∧ P a c' := by
  unfold Follows at *
  split
  · rename_i a c' hread
    rw [hread] at h
    obtain ⟨s', hm, hQ⟩ := h
    exact ⟨s', hm, hQ, hp a c' hread⟩
  · rename_i hread
    rw [hread] at h
    exact h

theorem congr_left {q : Parse α} (hp : p c = q c) (h : Follows tokens least c s q m Q) :
    Follows tokens least c s p m Q :=
  of_eq hp rfl h

/-! What the cursor or the machine looks at without moving. -/

theorem peek_left {test : Cursor → Bool} {f : Bool → Parse β} {m : Indexed β}
    (h : Follows tokens least c s (f (test c)) m R) :
    Follows tokens least c s (Parse.peek test >>= f) m R :=
  h

theorem here_left {f : Span → Parse β} {m : Indexed β}
    (h : Follows tokens least c s (f c.current.span) m R) :
    Follows tokens least c s (Parse.here >>= f) m R :=
  h

theorem before_left {f : Span → Parse β} {m : Indexed β}
    (h : Follows tokens least c s (f c.before) m R) :
    Follows tokens least c s (Parse.before >>= f) m R :=
  h

/-- A machine does what it goes on with if its first step changes nothing. -/
theorem of_run {m : Indexed α} {g : α → Indexed β} {p : Parse β} {a : α} (hm : m s = .ok (.ok a, s))
    (h : Follows tokens least c s p (g a) R) : Follows tokens least c s p (m >>= g) R :=
  of_eq rfl (run_bind hm) h

theorem run_current (hc : c.At tokens s.index) :
    Indexed.current tokens s = .ok (.ok c.current, s) := by
  have hlt := hc.lt
  rw [Indexed.current, Nat.min_eq_left (by omega), hc.getElem?]

theorem run_peek (hc : c.At tokens s.index) (test : TokenKind → Bool) :
    Indexed.peek tokens test s = .ok (.ok (test c.kind), s) := by
  rw [Indexed.peek, hc.getElem?]
  rfl

theorem run_elseFollows (hc : c.At tokens s.index) :
    Indexed.elseFollows tokens s = .ok (.ok c.elseFollows, s) := by
  rw [Indexed.elseFollows, hc.drop, Cursor.elseFollows]
  generalize (c.current :: c.rest).dropWhile (·.kind == .newline) = behind
  cases behind with
  | nil => rfl
  | cons t ts =>
    cases hk : t.kind with
    | keyword k => cases k <;> simp [hk] <;> rfl
    | _ =>
      simp [hk]
      rfl

theorem run_before (hc : c.At tokens s.index) :
    Indexed.before tokens s = .ok (.ok c.before, s) := by
  rw [Indexed.before, hc.before]

theorem run_advance (hc : c.At tokens s.index) (hrest : c.rest ≠ []) :
    Indexed.advance tokens s = .ok (.ok c.current, { s with index := s.index + 1 }) := by
  rw [Indexed.advance, hc.getElem?]
  simp only [(hc.advance hrest).2, if_true]

theorem run_isEof (hc : c.At tokens s.index) : Indexed.isEof tokens s = .ok (.ok c.isEof, s) := by
  rw [Cursor.isEof_eq, Indexed.isEof, run_bind (run_current hc)]
  rfl

theorem current_right {p : Parse β} {g : Token → Indexed β} (hc : c.At tokens s.index)
    (h : Follows tokens least c s p (g c.current) R) :
    Follows tokens least c s p (Indexed.current tokens >>= g) R :=
  of_run (run_current hc) h

theorem peek_right {p : Parse β} {test : TokenKind → Bool} {g : Bool → Indexed β}
    (hc : c.At tokens s.index) (h : Follows tokens least c s p (g (test c.kind)) R) :
    Follows tokens least c s p (Indexed.peek tokens test >>= g) R :=
  of_run (run_peek hc test) h

theorem before_right {p : Parse β} {g : Span → Indexed β} (hc : c.At tokens s.index)
    (h : Follows tokens least c s p (g c.before) R) :
    Follows tokens least c s p (Indexed.before tokens >>= g) R :=
  of_run (run_before hc) h

theorem isEof_right {p : Parse β} {g : Bool → Indexed β} (hc : c.At tokens s.index)
    (h : Follows tokens least c s p (g c.isEof) R) :
    Follows tokens least c s p (Indexed.isEof tokens >>= g) R :=
  of_run (run_isEof hc) h

/-- A condition that both look at. -/
theorem ite_peek {test : Cursor → Bool} {test' : TokenKind → Bool} {x y : Parse α} {x' y' : Indexed α}
    (hc : c.At tokens s.index) (htest : test c = test' c.kind)
    (hx : test c = true → Follows tokens least c s x x' Q)
    (hy : test c = false → Follows tokens least c s y y' Q) :
    Follows tokens least c s (Parse.peek test >>= fun b => if b then x else y)
      (Indexed.peek tokens test' >>= fun b => if b then x' else y') Q := by
  refine peek_left (peek_right hc ?_)
  rw [← htest]
  exact ite Iff.rfl hx fun h => hy (Bool.eq_false_iff.mpr h)

/-- The machine looks for a keyword. -/
theorem keyword_right {k : Keyword} {p : Parse α} {x y : Indexed α} (hc : c.At tokens s.index)
    (hx : c.isKeyword k = true → Follows tokens least c s p x Q)
    (hy : c.isKeyword k = false → Follows tokens least c s p y Q) :
    Follows tokens least c s p (Indexed.peek tokens (· == .keyword k) >>= fun b => if b then x else y)
      Q := by
  refine peek_right hc ?_
  rw [← Cursor.isKeyword_eq]
  cases hk : c.isKeyword k with
  | true => exact hx hk
  | false => exact hy hk

/-- Two conditions, at which the cursor looks at once and the machine one after the other. -/
theorem peek_or {test₁ test₂ : Cursor → Bool} {m₁ m₂ : Indexed Bool} {x y : Parse α}
    {x' y' : Indexed α} (h₁ : m₁ s = .ok (.ok (test₁ c), s)) (h₂ : m₂ s = .ok (.ok (test₂ c), s))
    (hx : Follows tokens least c s x x' Q) (hy : Follows tokens least c s y y' Q) :
    Follows tokens least c s (Parse.peek (fun c => test₁ c || test₂ c) >>= fun b => if b then x else y)
      (m₁ >>= fun b => if b then x' else m₂ >>= fun b => if b then x' else y') Q := by
  refine peek_left (of_run h₁ ?_)
  cases test₁ c with
  | true => exact hx
  | false =>
    refine of_run h₂ ?_
    cases test₂ c with
    | true => exact hx
    | false => exact hy

/-- Two ways to go, from which both go on in the same way. -/
theorem ite_join {b : Bool} {x y : Parse α} {x' y' : Indexed α} {k : α → Parse β} {k' : α → Indexed β}
    (hx : b = true → Follows tokens least c s x x' Q)
    (hy : b = false → Follows tokens least c s y y' Q)
    (hk : ∀ a c' s', Q a c' s' → Follows tokens least c' s' (k a) (k' a) R) :
    Follows tokens least c s (if b then x >>= k else y >>= k) (if b then x' >>= k' else y' >>= k') R :=
  ite Iff.rfl (fun h => (hx h).bind hk) fun h => (hy (Bool.eq_false_iff.mpr h)).bind hk

theorem peek_join {test : Cursor → Bool} {test' : TokenKind → Bool} {x y : Parse α}
    {x' y' : Indexed α} {k : α → Parse β} {k' : α → Indexed β} (hc : c.At tokens s.index)
    (htest : test c = test' c.kind) (hx : test c = true → Follows tokens least c s x x' Q)
    (hy : test c = false → Follows tokens least c s y y' Q)
    (hk : ∀ a c' s', Q a c' s' → Follows tokens least c' s' (k a) (k' a) R) :
    Follows tokens least c s (Parse.peek test >>= fun b => if b then x >>= k else y >>= k)
      (Indexed.peek tokens test' >>= fun b => if b then x' >>= k' else y' >>= k') R :=
  ite_peek hc htest (fun h => (hx h).bind hk) fun h => (hy h).bind hk

theorem fail (h : Stand.Lands tokens d i c s) (hd : least ≤ d) (cause : ParseCause) :
    Follows tokens least c s (Parse.fail cause) (Indexed.fail tokens cause) Q := by
  refine ⟨s, ?_, h.depth_eq ▸ hd, ⟨⟨c.current.span, some _⟩, rfl, c.current, h.at_index.current_mem, rfl⟩⟩
  rw [Indexed.fail, run_bind (run_current h.at_index)]
  rfl

/-! What moves both. -/

theorem lands_advance (h : Stand.Lands tokens d i c s) (ht : Token.Ended tokens) (hk : c.kind ≠ .eof) :
    Indexed.advance tokens s = .ok (.ok c.current, { s with index := s.index + 1 }) ∧
      Stand.Lands tokens d (i + 1) c.advance { s with index := s.index + 1 } := by
  have hrest := h.at_index.rest_ne_nil ht hk
  exact ⟨run_advance h.at_index hrest, (h.at_index.advance hrest).1, h.depth_eq, Nat.succ_le_succ h.le⟩

theorem ne_eof_of_beq_symbol {k : TokenKind} {s : Symbol} (h : (k == .symbol s) = true) : k ≠ .eof := by
  rintro rfl
  cases h

theorem ne_eof_of_beq_keyword {k : TokenKind} {w : Keyword} (h : (k == .keyword w) = true) :
    k ≠ .eof := by
  rintro rfl
  cases h

theorem next (h : Stand.Lands tokens d i c s) (ht : Token.Ended tokens) (hk : c.kind ≠ .eof) :
    Follows tokens d c s Parse.next (Indexed.advance tokens) fun t c' s' =>
      t = c.current ∧ Stand.Lands tokens d (i + 1) c' s' :=
  ⟨_, (lands_advance h ht hk).1, rfl, (lands_advance h ht hk).2⟩

theorem keyword (h : Stand.Lands tokens d i c s) (ht : Token.Ended tokens) {k : Keyword}
    (hk : c.isKeyword k = true) :
    Follows tokens d c s Parse.next (Indexed.keyword tokens k) fun t c' s' =>
      t = c.current ∧ Stand.Lands tokens d (i + 1) c' s' := by
  rw [Cursor.isKeyword_eq] at hk
  refine peek_right h.at_index ?_
  rw [hk, if_pos rfl]
  exact next h ht (ne_eof_of_beq_keyword hk)

theorem eat (h : Stand.Lands tokens d i c s) (ht : Token.Ended tokens) (sym : Symbol) :
    Follows tokens d c s (Parse.eat sym) (Indexed.eat tokens sym) fun b c' s' =>
      Stand.Lands tokens d i c' s' ∧ (b = true → Stand.Lands tokens d (i + 1) c' s') ∧
        (b = false → c' = c ∧ s' = s) := by
  refine peek_right h.at_index ?_
  by_cases hs : (c.kind == .symbol sym) = true
  · obtain ⟨hrun, hlands⟩ := lands_advance h ht (ne_eof_of_beq_symbol hs)
    have hp : Parse.eat sym c = .ok (true, c.advance) := by
      rw [Parse.eat, Cursor.isSymbol_eq, if_pos hs]
    rw [if_pos hs]
    refine of_ok hp ?_ ⟨hlands.mono (Nat.le_succ i), fun _ => hlands, nofun⟩
    rw [run_bind hrun]
    rfl
  · have hp : Parse.eat sym c = .ok (false, c) := by
      rw [Parse.eat, Cursor.isSymbol_eq, if_neg hs]
    rw [if_neg hs]
    exact of_ok hp rfl ⟨h, nofun, fun _ => ⟨rfl, rfl⟩⟩

/-! A symbol is not read where it is not the current token. -/

theorem eat_left {sym : Symbol} {f : Bool → Parse β} {m : Indexed β} (hs : c.isSymbol sym = false)
    (h : Follows tokens least c s (f false) m R) :
    Follows tokens least c s (Parse.eat sym >>= f) m R := by
  have heat : Parse.eat sym c = .ok (false, c) := by
    rw [Parse.eat, hs]
    rfl
  exact congr_left (Parse.bind_of_ok heat) h

theorem eat_right {sym : Symbol} {p : Parse β} {g : Bool → Indexed β} (hc : c.At tokens s.index)
    (hs : c.isSymbol sym = false) (h : Follows tokens least c s p (g false) R) :
    Follows tokens least c s p (Indexed.eat tokens sym >>= g) R := by
  refine of_run (a := false) ?_ h
  rw [Cursor.isSymbol_eq] at hs
  rw [Indexed.eat, run_bind (run_peek hc _), hs]
  rfl

theorem symbol (h : Stand.Lands tokens d i c s) (ht : Token.Ended tokens) (sym : Symbol) (what : Wanted) :
    Follows tokens d c s (Parse.symbol sym what) (Indexed.symbol tokens sym what) fun t c' s' =>
      t = c.current ∧ Stand.Lands tokens d (i + 1) c' s' := by
  refine peek_right h.at_index ?_
  have hsymbol : Parse.symbol sym what c =
      (if c.kind == .symbol sym then Parse.next else Parse.fail (.wanted what)) c := by
    rw [Parse.symbol, Cursor.isSymbol_eq]
    split <;> rfl
  exact congr_left hsymbol (ite Iff.rfl (fun hs => next h ht (ne_eof_of_beq_symbol hs)) fun _ =>
    fail h (Nat.le_refl d) _)

theorem identifier (h : Stand.Lands tokens d i c s) (ht : Token.Ended tokens) (what : Wanted) :
    Follows tokens d c s (Parse.identifier what) (Indexed.identifier tokens what) fun name c' s' =>
      c.kind = .identifier name ∧ Stand.Lands tokens d (i + 1) c' s' := by
  refine current_right h.at_index ?_
  rw [← Cursor.kind]
  cases hk : c.kind with
  | identifier name =>
    obtain ⟨hrun, hlands⟩ := lands_advance h ht (by simp [hk])
    exact of_ok (r := c.advance) (by simp only [Parse.identifier, hk])
      (run_bind (g := fun _ => Pure.pure name) hrun) ⟨rfl, hlands⟩
  | _ => exact congr_left (by simp only [Parse.identifier, hk]) (fail h (Nat.le_refl d) _)

theorem text (h : Stand.Lands tokens d i c s) (ht : Token.Ended tokens) (what : Wanted) :
    Follows tokens d c s (Parse.text what) (Indexed.text tokens what) fun _ c' s' =>
      Stand.Lands tokens d (i + 1) c' s' := by
  refine current_right h.at_index ?_
  rw [← Cursor.kind]
  -- whatever else stands here is refused, with the same words
  have hother : (∀ value, c.kind ≠ .constant (.string value)) →
      Parse.text what c = Parse.fail (.wanted what) c := by
    intro hne
    unfold Parse.text
    split
    · exact absurd ‹_› (hne _)
    · rfl
  cases hk : c.kind with
  | constant value =>
    cases value with
    | string value =>
      obtain ⟨hrun, hlands⟩ := lands_advance h ht (by simp [hk])
      exact of_ok (a := value) (r := c.advance) (by simp only [Parse.text, hk])
        (run_bind (g := fun _ => Pure.pure value) hrun) hlands
    | _ => exact congr_left (hother (by simp [hk])) (fail h (Nat.le_refl d) _)
  | _ => exact congr_left (hother (by simp [hk])) (fail h (Nat.le_refl d) _)

theorem terminator (h : Stand.Lands tokens d i c s) (ht : Token.Ended tokens) (what : Wanted) :
    Follows tokens d c s (Parse.terminator what) (Indexed.terminator tokens what) fun _ c' s' =>
      Stand.Lands tokens d i c' s' := by
  refine isEof_right h.at_index ?_
  by_cases heof : c.isEof = true
  · refine congr_left (q := Pure.pure ()) (by rw [Parse.terminator, if_pos heof]; rfl) ?_
    rw [heof]
    exact pure h
  · refine congr_left (q := if c.isTerminator then (fun c => .ok ((), c.advance)) else
      Parse.fail (.wanted what)) (by rw [Parse.terminator, if_neg heof]; split <;> rfl) ?_
    rw [if_neg heof]
    refine peek_right h.at_index ?_
    refine ite (by rw [Cursor.isTerminator_eq]) (fun _ => ?_) fun _ => fail h (Nat.le_refl d) _
    obtain ⟨hrun, hlands⟩ := lands_advance h ht fun hk => heof (c.isEof_iff.mpr hk)
    refine of_ok (r := c.advance) rfl ?_ (hlands.mono (Nat.le_succ i))
    rw [run_bind hrun]
    rfl

/-! Loops. -/

theorem run_skipSeparators (ht : Token.Ended tokens) (rounds : Nat) {i : Nat} {c : Cursor} {s : Stand}
    (h : Stand.Lands tokens d i c s) (hrounds : tokens.length < rounds + i) :
    ∃ s', Indexed.skipSeparatorsFor tokens rounds s = .ok (.ok (), s') ∧
      Stand.Lands tokens d i (Parse.skipFrom c.before c.current c.rest) s' := by
  induction rounds generalizing i c s with
  | zero =>
    have := h.lt
    omega
  | succ rounds ih =>
    by_cases hsep : c.isSeparator = true
    · -- a separator is never the end of the text, so there is a token behind it
      have hk : c.kind ≠ .eof := by
        intro hk
        rw [Cursor.isSeparator_eq, hk] at hsep
        cases hsep
      obtain ⟨hrun, hlands⟩ := lands_advance h ht hk
      obtain ⟨s', hrest, hat⟩ := ih hlands (by omega)
      have hskip : Parse.skipFrom c.before c.current c.rest =
          Parse.skipFrom c.advance.before c.advance.current c.advance.rest := by
        obtain ⟨t, ts, hcons⟩ := List.exists_cons_of_ne_nil (h.at_index.rest_ne_nil ht hk)
        obtain ⟨before, current, rest⟩ := c
        subst hcons
        rw [Parse.skipFrom, if_pos hsep]
        rfl
      refine ⟨s', ?_, hskip ▸ hat.mono (Nat.le_succ i)⟩
      rw [Indexed.skipSeparatorsFor, run_bind (run_peek h.at_index _), ← Cursor.isSeparator_eq, hsep,
        if_pos rfl, run_bind hrun]
      exact hrest
    · have hskip : Parse.skipFrom c.before c.current c.rest = c := by
        obtain ⟨before, current, rest⟩ := c
        cases rest with
        | nil => rfl
        | cons t ts => rw [Parse.skipFrom, if_neg hsep]
      refine ⟨s, ?_, hskip.symm ▸ h⟩
      rw [Indexed.skipSeparatorsFor, run_bind (run_peek h.at_index _), ← Cursor.isSeparator_eq,
        if_neg hsep]
      rfl

theorem skipSeparators (h : Stand.Lands tokens d i c s) (ht : Token.Ended tokens) :
    Follows tokens d c s Parse.skipSeparators (Indexed.skipSeparators tokens) fun _ c' s' =>
      Stand.Lands tokens d i c' s' := by
  obtain ⟨s', hrun, hlands⟩ := run_skipSeparators ht (Indexed.rounds tokens) h
    (by simp only [Indexed.rounds]; omega)
  exact of_ok rfl hrun hlands

/-- What a loop reads, added to what was read before it: the first round, and then the other ones. -/
theorem run_collect {σ : Type} (step : Parse (Option (α × Bool))) (add : σ → α → σ) (read : σ)
    (c : Cursor) :
    ((List.foldl add read ·) <$> Parse.collect step : Parse σ) c = (match step c with
      | .error e => .error e
      | .ok (none, c₁) => .ok (read, c₁)
      | .ok (some (a, more), c₁) =>
        if more = true ∧ c₁.left < c.left then
          ((List.foldl add (add read a) ·) <$> Parse.collect step : Parse σ) c₁
        else .ok (add read a, c₁)) := by
  change (Parse.collect step c >>= fun r => .ok (List.foldl add read r.1, r.2)) = _
  rw [Parse.collect]
  rcases step c with e | ⟨_ | ⟨a, more⟩, c₁⟩
  · rfl
  · rfl
  · by_cases hmore : more = true ∧ c₁.left < c.left
    · simp only [dif_pos hmore, if_pos hmore]
      change _ = (Parse.collect step c₁ >>= fun r => .ok (List.foldl add (add read a) r.1, r.2))
      cases Parse.collect step c₁ <;> rfl
    · simp only [dif_neg hmore, if_neg hmore]
      rfl

/-- How a round of a loop goes: it moves by a token at least if another one follows it, and else the
loop stops where `E` holds. -/
def Round (tokens : List Token) (d i : Nat) (J : α → Prop) (E : Cursor → Prop) :
    Option (α × Bool) → Cursor → Stand → Prop
  | none, c, s => Stand.Lands tokens d i c s ∧ E c
  | some (a, false), c, s => J a ∧ Stand.Lands tokens d i c s ∧ E c
  | some (a, true), c, s => J a ∧ Stand.Lands tokens d (i + 1) c s

/-- **Loops.** A round that is followed by another one moves both by a token at least, so that the loop
of the cursor goes on as that of the machine does, which ends in time. -/
theorem loop {σ : Type} {step : Parse (Option (α × Bool))} {step' : Indexed (Option (α × Bool))}
    {add : σ → α → σ} {I : σ → Prop} {J : α → Prop} {E : Cursor → Prop} {i₀ : Nat}
    (hadd : ∀ read a, I read → J a → I (add read a))
    (hstep : ∀ i c s, i₀ ≤ i → Stand.Lands tokens d i c s →
      Follows tokens d c s step step' (Round tokens d i J E))
    (rounds : Nat) {i : Nat} {c : Cursor} {s : Stand} {read : σ} (hi : i₀ ≤ i)
    (h : Stand.Lands tokens d i c s) (hread : I read) (hrounds : tokens.length < rounds + i) :
    Follows tokens d c s ((List.foldl add read ·) <$> Parse.collect step)
      (Indexed.loop step' add read rounds) fun read' c' s' =>
        Stand.Lands tokens d i c' s' ∧ I read' ∧ E c' := by
  induction rounds generalizing i c s read with
  | zero =>
    have := h.lt
    omega
  | succ rounds ih =>
    have hround := hstep s.index c s (Nat.le_trans hi h.le) h.here
    unfold Follows at hround ⊢
    rw [run_collect, Indexed.loop]
    cases hp : step c with
    | error e =>
      rw [hp] at hround
      obtain ⟨s₁, hrun, hdepth, hpoints⟩ := hround
      exact ⟨s₁, run_bind_error hrun, hdepth, hpoints⟩
    | ok r =>
      obtain ⟨r, c₁⟩ := r
      rw [hp] at hround
      obtain ⟨s₁, hrun, hround⟩ := hround
      rw [run_bind hrun]
      match r, hround with
      | none, ⟨hlands, hend⟩ => exact ⟨s₁, rfl, hlands.mono h.le, hread, hend⟩
      | some (a, false), ⟨ha, hlands, hend⟩ =>
        exact ⟨s₁, rfl, hlands.mono h.le, hadd read a hread ha, hend⟩
      | some (a, true), ⟨ha, hmoved⟩ =>
        -- a round with another one behind it has read a token, which both loops count
        have hless : c₁.left < c.left := by
          have := h.at_index.left_add
          have := hmoved.at_index.left_add
          have := hmoved.le
          omega
        have hle := h.le
        have hrest := ih (by omega) hmoved (hadd read a hread ha) (by omega)
        simp only [hless, and_self, if_true]
        exact hrest.mono fun _ _ _ ha => ⟨ha.1.mono (by omega), ha.2⟩

/-- A loop that puts what it reads into a list. -/
theorem collect {step : Parse (Option (α × Bool))} {step' : Indexed (Option (α × Bool))}
    {E : Cursor → Prop} {i₀ : Nat}
    (hstep : ∀ i c s, i₀ ≤ i → Stand.Lands tokens d i c s →
      Follows tokens d c s step step' (Round tokens d i (fun _ => True) E))
    (rounds : Nat) (hi : i₀ ≤ i) (h : Stand.Lands tokens d i c s)
    (hrounds : tokens.length < rounds + i) :
    Follows tokens d c s (Parse.collect step) (Indexed.collect step' rounds) fun _ c' s' =>
      Stand.Lands tokens d i c' s' ∧ E c' := by
  have hcollect : Parse.collect step =
      ((List.foldl (fun read a => read ++ [a]) [] ·) <$> Parse.collect step : Parse (List α)) := by
    have hfold : (List.foldl (fun read a => read ++ [a]) [] · : List α → List α) = id := by
      funext as
      simp [← List.flatMap_def]
    rw [hfold, id_map]
  refine congr_left (congrFun hcollect c) (Follows.mono (loop (I := fun _ => True)
    (fun _ _ _ _ => trivial) hstep rounds hi h trivial hrounds) fun _ _ _ ha => ⟨ha.1, ha.2.2⟩)

theorem commaSeparated {item : Parse α} {item' : Indexed α} (ht : Token.Ended tokens)
    (hitem : ∀ i' c s, i ≤ i' → Stand.Lands tokens d i' c s → Follows tokens d c s item item'
      fun _ c' s' => Stand.Lands tokens d (i' + 1) c' s') (h : Stand.Lands tokens d i c s) :
    Follows tokens d c s (Parse.commaSeparated item) (Indexed.commaSeparated tokens item')
      fun _ c' s' => Stand.Lands tokens d i c' s' := by
  refine (collect (E := fun _ => True) (fun i' c s hi h => ?_) _ (Nat.le_refl i) h
    (by simp only [Indexed.rounds]; omega)).mono fun _ _ _ ha => ha.1
  refine ite_peek h.at_index (c.isSymbol_eq .rparen) (fun _ => pure ⟨h, trivial⟩) fun _ => ?_
  refine (hitem i' c s hi h).bind fun a c₁ s₁ h₁ => (eat h₁ ht .comma).bind fun b c₂ s₂ hb => ?_
  cases b with
  | true => exact pure ⟨trivial, hb.1⟩
  | false => exact pure ⟨trivial, hb.1.mono (Nat.le_succ i'), trivial⟩

end Follows

/-! ## Types -/

/-- **The machine reads what the cursor reads**, at so many open levels, and both move on by a token at
least. -/
def Mirrors (tokens : List Token) (d : Nat) (p : Parse α) (m : Indexed α) : Prop :=
  ∀ i c s, Stand.Lands tokens d i c s → Follows tokens d c s p m fun _ c' s' =>
    Stand.Lands tokens d (i + 1) c' s'

namespace Mirrors

open Follows

variable {d : Nat}

theorem typeExprWith (ht : Token.Ended tokens) (d fuel : Nat) : ∀ levels i c s,
    Stand.Lands tokens d i c s → tokens.length ≤ fuel + i → tokens.length < levels + i →
      Follows tokens d c s (Parse.typeExprWith fuel) (Indexed.typeExprWith tokens levels) fun _ c' s' =>
        Stand.Lands tokens d (i + 1) c' s' := by
  induction fuel with
  | zero =>
    intro levels i c s h hfuel
    have := h.lt
    omega
  | succ fuel ih =>
    intro levels i c s h hfuel hlevels
    cases levels with
    | zero =>
      have := h.lt
      omega
    | succ levels =>
      rw [Parse.typeExprWith, Indexed.typeExprWith]
      refine here_left (current_right h.at_index ?_)
      refine ite_peek h.at_index (c.isKeyword_eq .funcK) (fun hk => ?_) fun _ => ?_
      · rw [c.isKeyword_eq] at hk
        -- the type of a function: the parameters in brackets, and perhaps a result
        refine (next h ht (ne_eof_of_beq_keyword hk)).bind fun _ c₁ s₁ h₁ => ?_
        refine (symbol h₁.2 ht .lparen _).bind fun _ c₂ s₂ h₂ => ?_
        refine (commaSeparated ht (fun i' c s hi h => ih levels i' c s h (by omega) (by omega)) h₂.2).bind
          fun params c₃ s₃ h₃ => ?_
        refine (symbol h₃ ht .rparen _).bind fun _ c₄ s₄ h₄ => ?_
        refine peek_join (Q := fun _ c' s' => Stand.Lands tokens d (i + 3) c' s') h₄.2.at_index
          c₄.startsType_eq (fun _ => .map ?_) (fun _ => .pure h₄.2) fun result c₅ s₅ h₅ => ?_
        · exact (ih levels _ c₄ s₄ h₄.2 (by omega) (by omega)).mono fun _ _ _ h => h.mono (by omega)
        · exact before_left (before_right h₅.at_index (.pure (h₅.mono (by omega))))
      · refine (identifier h ht .typeName).bind fun name c' s' hname => ?_
        exact Follows.pure hname.2

theorem typeExpr (ht : Token.Ended tokens) (d : Nat) :
    Mirrors tokens d Parse.typeExpr (Indexed.typeExpr tokens) := by
  intro i c s h
  have hleft := h.at_index.left_add
  have hrounds : tokens.length < Indexed.rounds tokens + s.index := by
    simp only [Indexed.rounds]
    omega
  exact (typeExprWith ht d (c.left + 1) _ s.index c s h.here (by omega) hrounds).mono fun _ _ _ h' =>
    h'.mono (Nat.succ_le_succ h.le)

end Mirrors

end Formula
