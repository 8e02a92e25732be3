import Formula.Program.Grammar
import Formula.Proofs.Program.Node
import Formula.Proofs.Token.Row

/-!
# Readers of tokens in a row

What holds of a reader is put together from what holds of the readers it is made of. A reader moves
the cursor forward over tokens in a row.

## Main definitions

* `Parse.Reads p c Q`: what `p` reads from `c` on satisfies `Q`
* `Cursor.Ready R c`: the tokens from the cursor on stand in a row, in a region of spans
* `Cursor.Moved R c c'`: the cursor has moved forward from `c` to `c'`

## Main results

* `Parse.Reads.bind`, `Parse.Reads.collect`: readers in sequence and in a loop
* `Parse.reads_next`, `Parse.reads_symbol`: where a token lies that is read
* `Program.ofTokens_eq_ok`: what a program is read from
-/

namespace Formula

/-- What a test finds of the result of a computation holds of a result. -/
theorem Except.exists_of_any {ε α : Type} {x : Except ε α} {f : α → Bool}
    (h : x.toOption.any f = true) : ∃ a, x = .ok a ∧ f a = true := by
  cases x with
  | error e => cases h
  | ok a => exact ⟨a, rfl, h⟩

namespace Parse

variable {α β : Type} {p : Parse α} {f : α → Parse β} {c c₁ : Cursor}

theorem bind_of_ok {a : α} (h : p c = .ok (a, c₁)) : (p >>= f) c = f a c₁ := by
  change (p c >>= fun r => f r.1 r.2) = _
  rw [h]
  rfl

theorem bind_of_error {e : ParseError} (h : p c = .error e) : (p >>= f) c = .error e := by
  change (p c >>= fun r => f r.1 r.2) = _
  rw [h]
  rfl

theorem bind_congr_left {q : Parse α} (h : p c = q c) : (p >>= f) c = (q >>= f) c := by
  change (p c >>= fun r => f r.1 r.2) = (q c >>= fun r => f r.1 r.2)
  rw [h]

/-- What the reader `p` reads from the cursor `c` on satisfies `Q`, if it reads anything. -/
def Reads (p : Parse α) (c : Cursor) (Q : α → Cursor → Prop) : Prop :=
  ∀ a c', p c = .ok (a, c') → Q a c'

namespace Reads

variable {P Q : α → Cursor → Prop} {R : β → Cursor → Prop}

theorem mono (h : Reads p c P) (hPQ : ∀ a c', P a c' → Q a c') : Reads p c Q :=
  fun a c' hp => hPQ a c' (h a c' hp)

theorem pure {a : α} (h : Q a c) : Reads (pure a) c Q := by
  rintro _ _ ⟨⟩
  exact h

theorem fail (cause : ParseCause) : Reads (fail cause) c Q :=
  fun _ _ hp => nomatch hp

theorem bind (h : Reads p c P) (hf : ∀ a c₁, P a c₁ → Reads (f a) c₁ R) :
    Reads (p >>= f) c R := by
  intro b c' hb
  change (p c >>= fun r => f r.1 r.2) = .ok (b, c') at hb
  cases hp : p c with
  | error e =>
    rw [hp] at hb
    cases hb
  | ok r =>
    rw [hp] at hb
    exact hf r.1 r.2 (h r.1 r.2 hp) b c' hb

theorem map {g : α → β} (h : Reads p c fun a c' => R (g a) c') : Reads (g <$> p) c R := by
  rw [map_eq_pure_bind]
  exact h.bind fun _ _ ha => .pure ha

theorem map_bind {γ : Type} {g : α → γ} {f : γ → Parse β} (h : Reads p c P)
    (hf : ∀ a c₁, P a c₁ → Reads (f (g a)) c₁ R) : Reads (g <$> p >>= f) c R := by
  rw [map_eq_pure_bind, bind_assoc]
  exact h.bind fun a c₁ ha => by simpa only [pure_bind] using hf a c₁ ha

theorem pure_bind {a : α} (h : Reads (f a) c R) : Reads (Pure.pure a >>= f) c R := by
  rwa [LawfulMonad.pure_bind]

theorem ite {b : Prop} [Decidable b] {x y : Parse α} (hx : b → Reads x c Q)
    (hy : ¬b → Reads y c Q) : Reads (if b then x else y) c Q := by
  split
  · exact hx ‹_›
  · exact hy ‹_›

theorem peek_bind {test : Cursor → Bool} {f : Bool → Parse β} (h : Reads (f (test c)) c R) :
    Reads (peek test >>= f) c R :=
  h

theorem here_bind {f : Span → Parse β} (h : Reads (f c.current.span) c R) :
    Reads (here >>= f) c R :=
  h

theorem before_bind {f : Span → Parse β} (h : Reads (f c.before) c R) :
    Reads (before >>= f) c R :=
  h

/-- What is read unless a condition holds, and what follows. -/
theorem optional_bind {test : Cursor → Bool} {k : Option α → Parse β}
    {Q : Option α → Cursor → Prop} (hnone : Q none c) (hsome : Reads p c fun a c' => Q (some a) c')
    (hk : ∀ r c₁, Q r c₁ → Reads (k r) c₁ R) :
    Reads (Parse.peek test >>= fun b => if b then Pure.pure none >>= k else some <$> p >>= k) c R :=
  .peek_bind (.ite (fun _ => .pure_bind (hk none c hnone)) fun _ =>
    .map_bind hsome fun a c₁ ha => hk (some a) c₁ ha)

theorem ofExcept_bind {r : Except ParseError α} (h : ∀ a, r = .ok a → Reads (f a) c R) :
    Reads ((r : Parse α) >>= f) c R := by
  refine bind (P := fun a c₁ => r = .ok a ∧ c₁ = c) (fun a c' hr => ?_) ?_
  · cases r with
    | error e => cases hr
    | ok a' =>
      cases hr
      exact ⟨rfl, rfl⟩
  · rintro a _ ⟨hr, rfl⟩
    exact h a hr

/-- What has to be known of a round of a loop: what it reads alone, and how it goes before what the
other rounds read. -/
def Round (I : Cursor → Prop) (L : Cursor → List α → Cursor → Prop) (c : Cursor) :
    Option (α × Bool) → Cursor → Prop
  | none, c₁ => L c [] c₁
  | some (a, _), c₁ => I c₁ ∧ L c [a] c₁ ∧ ∀ as c₂, L c₁ as c₂ → L c (a :: as) c₂

theorem collect {step : Parse (Option (α × Bool))} {I : Cursor → Prop}
    {L : Cursor → List α → Cursor → Prop}
    (hstep : ∀ c, I c → Reads step c (Round I L c)) (hc : I c) :
    Reads (collect step) c (L c) := by
  intro as c' h
  fun_induction Parse.collect step c generalizing as c' with
  | case1 => cases h
  | case2 c c₁ hs =>
    cases h
    exact hstep c hc _ _ hs
  | case3 => cases h
  | case4 c a more c₁ hs _ as' c₂ hrest ih =>
    cases h
    obtain ⟨hI, -, hcons⟩ := hstep c hc _ _ hs
    exact hcons as' _ (ih hI _ _ hrest)
  | case5 c a more c₁ hs =>
    cases h
    exact (hstep c hc _ _ hs).2.1

end Reads

end Parse

/-! ## Levels of nesting -/

namespace Level

/-- The level below one where `n` levels may still be opened. -/
def below : Nat → Option Level
  | 0 => none
  | n + 1 => some (withRemaining n)

theorem withRemaining_eq (n : Nat) : withRemaining n = under (below n) := by
  cases n <;> rfl

end Level

/-! ## Cursors on tokens in a row -/

/-- A span goes from one offset to another and lies in a region. -/
structure Span.Reaches (R : Region) (lo hi : Nat) (s : Span) : Prop where
  start : s.start.offset = lo
  stop : s.stop.offset = hi
  mem : s ∈ R

namespace Cursor

/-- Where the current token starts. -/
def pos (c : Cursor) : Nat :=
  c.current.span.start.offset

/-- Where the token before the current one ends. -/
def done (c : Cursor) : Nat :=
  c.before.stop.offset

/-- The tokens from the cursor on stand in a row in a region, behind the one before it. -/
structure Ready (R : Region) (c : Cursor) : Prop where
  row : Token.Row (c.current :: c.rest)
  mem : ∀ t ∈ c.current :: c.rest, t.span ∈ R
  done_le : c.done ≤ c.pos

/-- **The cursor has moved forward** over tokens in a row, or not at all. -/
structure Moved (R : Region) (c c' : Cursor) : Prop where
  ready : c'.Ready R
  pos_le : c.pos ≤ c'.pos
  done_le : c.done ≤ c'.done
  before : c'.before = c.before ∨ c.pos ≤ c'.before.start.offset ∧ c'.before ∈ R

variable {R : Region} {c c' c'' : Cursor}

theorem Ready.current_mem (h : c.Ready R) : c.current.span ∈ R :=
  h.mem c.current List.mem_cons_self

theorem Moved.refl (h : c.Ready R) : c.Moved R c :=
  ⟨h, Nat.le_refl _, Nat.le_refl _, .inl rfl⟩

theorem Moved.trans (h : c.Moved R c') (h' : c'.Moved R c'') : c.Moved R c'' where
  ready := h'.ready
  pos_le := Nat.le_trans h.pos_le h'.pos_le
  done_le := Nat.le_trans h.done_le h'.done_le
  before := by
    rcases h'.before with heq | ⟨hle, hmem⟩
    · rw [heq]
      exact h.before
    · exact .inr ⟨Nat.le_trans h.pos_le hle, hmem⟩

theorem Moved.done_le_pos (h : c.Moved R c') : c'.done ≤ c'.pos :=
  h.ready.done_le

theorem Ready.moved_advance (h : c.Ready R) : c.Moved R c.advance := by
  obtain ⟨before, current, rest⟩ := c
  cases rest with
  | nil => exact .refl h
  | cons t ts =>
    have hforward := h.row.forward current List.mem_cons_self
    have hordered := List.pairwise_cons.mp h.row.ordered
    refine ⟨⟨⟨hordered.2, ?_, ?_, ?_⟩, ?_, hordered.1 t List.mem_cons_self⟩, ?_, ?_, ?_⟩
    · exact fun u hu => h.row.forward u (List.mem_cons_of_mem _ hu)
    · exact fun u hu => h.row.solid u (List.mem_cons_of_mem _ hu)
    · obtain ⟨u, hu, heof⟩ := h.row.last
      exact ⟨u, by rwa [List.getLast?_cons_cons] at hu, heof⟩
    · exact fun u hu => h.mem u (List.mem_cons_of_mem _ hu)
    · exact Nat.le_trans hforward (hordered.1 t List.mem_cons_self)
    · exact Nat.le_trans h.done_le hforward
    · exact .inr ⟨Nat.le_refl _, h.current_mem⟩

/-- The cursor moves behind every token but the end of the text. -/
theorem Ready.before_advance (h : c.Ready R) (hk : c.kind ≠ .eof) :
    c.advance.before = c.current.span := by
  obtain ⟨before, current, rest⟩ := c
  cases rest with
  | nil =>
    obtain ⟨t, ht, heof⟩ := h.row.last
    cases ht
    exact absurd heof hk
  | cons t ts => rfl

/-- A token that is no mark is not empty. -/
theorem Ready.pos_lt (h : c.Ready R) (hk : c.kind.isMark = false) :
    c.pos < c.current.span.stop.offset :=
  h.row.solid c.current List.mem_cons_self hk

theorem ne_eof_of_isMark (hk : c.kind.isMark = false) : c.kind ≠ .eof := by
  intro h
  rw [h] at hk
  cases hk

/-- The cursor has moved behind one token that is not empty. -/
structure Passed (R : Region) (c c' : Cursor) : Prop where
  moved : c.Moved R c'
  mem : c.current.span ∈ R
  before_eq : c'.before = c.current.span
  lt : c.pos < c'.done

theorem Ready.passed (h : c.Ready R) (hk : c.kind.isMark = false) : c.Passed R c.advance := by
  have hbefore := h.before_advance (ne_eof_of_isMark hk)
  refine ⟨h.moved_advance, h.current_mem, hbefore, ?_⟩
  rw [done, hbefore]
  exact h.pos_lt hk

theorem Passed.done_eq (h : c.Passed R c') : c'.done = c.current.span.stop.offset := by
  rw [done, h.before_eq]

/-- A token reaches from where the cursor was to where it is done. -/
theorem Passed.current (h : c.Passed R c') : c.current.span.Reaches R c.pos c'.done :=
  ⟨rfl, h.done_eq.symm, h.mem⟩

/-- What was read last is that token, or a token behind it. -/
theorem Passed.before (h : c.Passed R c') (h' : c'.Moved R c'') :
    c.pos ≤ c''.before.start.offset ∧ c''.before ∈ R := by
  rcases h'.before with heq | ⟨hle, hmem⟩
  · rw [heq, h.before_eq]
    exact ⟨Nat.le_refl _, h.mem⟩
  · exact ⟨Nat.le_trans h.moved.pos_le hle, hmem⟩

/-- From the start of a token up to what was read last. -/
theorem Passed.join_before (h : c.Passed R c') (h' : c'.Moved R c'') :
    (c.current.span.join c''.before).Reaches R c.pos c''.done where
  start := by
    rw [Span.join_start_offset]
    exact Nat.min_eq_left (h.before h').1
  stop := by
    rw [Span.join_stop_offset]
    refine Nat.max_eq_right ?_
    rw [← h.done_eq]
    exact h'.done_le
  mem := Region.join_mem h.mem (h.before h').2

/-- From the start of a span before a token up to what was read last. -/
theorem Passed.span_join_before (h : c.Passed R c') (h' : c'.Moved R c'') (hready : c.Ready R)
    {s : Span} (hlt : s.start.offset < s.stop.offset) (hs : s.stop.offset ≤ c.done) (hmem : s ∈ R) :
    (s.join c''.before).Reaches R s.start.offset c''.done where
  start := by
    have hpos := hready.done_le
    have hbefore := (h.before h').1
    rw [Span.join_start_offset]
    exact Nat.min_eq_left (by omega)
  stop := by
    rw [Span.join_stop_offset]
    exact Nat.max_eq_right (Nat.le_trans hs (h.moved.trans h').done_le)
  mem := Region.join_mem hmem (h.before h').2

/-- From the start of a token up to the end of a span behind it. -/
theorem Passed.join_span (h : c.Passed R c') {s : Span} (hstart : c'.pos ≤ s.start.offset)
    (hlt : s.start.offset < s.stop.offset) (hmem : s ∈ R) :
    (c.current.span.join s).Reaches R c.pos s.stop.offset where
  start := by
    rw [Span.join_start_offset]
    exact Nat.min_eq_left (Nat.le_trans h.moved.pos_le hstart)
  stop := by
    have hdone := h.moved.done_le_pos
    rw [h.done_eq] at hdone
    rw [Span.join_stop_offset]
    exact Nat.max_eq_right (by omega)
  mem := Region.join_mem h.mem hmem

theorem isMark_of_isSymbol {s : Symbol} (h : c.isSymbol s = true) : c.kind.isMark = false := by
  unfold isSymbol at h
  split at h
  · rename_i hk
    rw [hk]
    rfl
  · cases h

theorem isMark_of_isKeyword {k : Keyword} (h : c.isKeyword k = true) : c.kind.isMark = false := by
  unfold isKeyword at h
  split at h
  · rename_i hk
    rw [hk]
    rfl
  · cases h

end Cursor

/-! ## Single tokens -/

namespace Parse

open Cursor

variable {R : Region} {c : Cursor}

theorem reads_next (hc : c.Ready R) (hk : c.kind.isMark = false) :
    Reads next c fun t c' => t = c.current ∧ c.Passed R c' := by
  rintro _ _ ⟨⟩
  exact ⟨rfl, hc.passed hk⟩

theorem reads_next_moved (hc : c.Ready R) : Reads next c fun _ c' => c.Moved R c' := by
  rintro _ _ ⟨⟩
  exact hc.moved_advance

theorem reads_symbol (hc : c.Ready R) (s : Symbol) (what : Wanted) :
    Reads (symbol s what) c fun t c' => t = c.current ∧ c.Passed R c' := by
  intro t c' h
  unfold symbol at h
  split at h
  · exact reads_next hc (isMark_of_isSymbol ‹_›) t c' h
  · cases h

theorem reads_eat (hc : c.Ready R) (s : Symbol) :
    Reads (eat s) c fun b c' => c.Moved R c' ∧ (b = true → c.Passed R c') ∧ (b = false → c' = c) := by
  intro b c' h
  unfold eat at h
  split at h
  · cases h
    have hp := hc.passed (isMark_of_isSymbol ‹_›)
    exact ⟨hp.moved, fun _ => hp, nofun⟩
  · cases h
    exact ⟨.refl hc, nofun, fun _ => rfl⟩

theorem reads_identifier (hc : c.Ready R) (what : Wanted) :
    Reads (identifier what) c fun name c' => c.kind = .identifier name ∧ c.Passed R c' := by
  intro name c' h
  unfold identifier at h
  split at h
  · rename_i hk
    cases h
    exact ⟨hk, hc.passed (by rw [hk]; rfl)⟩
  · cases h

theorem reads_text (hc : c.Ready R) (what : Wanted) :
    Reads (text what) c fun _ c' => c.Passed R c' := by
  intro value c' h
  unfold text at h
  split at h
  · rename_i hk
    cases h
    exact hc.passed (by rw [hk]; rfl)
  · cases h

theorem reads_terminator (hc : c.Ready R) (what : Wanted) :
    Reads (terminator what) c fun _ c' => c.Moved R c' := by
  intro u c' h
  unfold terminator at h
  split at h
  · cases h
    exact .refl hc
  · split at h
    · cases h
      exact hc.moved_advance
    · cases h

theorem skipFrom_moved (before : Span) (current : Token) (rest : List Token)
    (hc : Ready R ⟨before, current, rest⟩) :
    Moved R ⟨before, current, rest⟩ (skipFrom before current rest) := by
  induction rest generalizing before current with
  | nil => exact .refl hc
  | cons t ts ih =>
    rw [skipFrom]
    split
    · exact hc.moved_advance.trans (ih current.span t hc.moved_advance.ready)
    · exact .refl hc

theorem reads_skipSeparators (hc : c.Ready R) :
    Reads skipSeparators c fun _ c' => c.Moved R c' := by
  rintro _ _ ⟨⟩
  exact skipFrom_moved c.before c.current c.rest hc

end Parse

/-- A program that is read from tokens is put together from the declarations that are read from the
first of them on. -/
theorem Program.ofTokens_eq_ok {tokens : List Token} {p : Program} (h : ofTokens tokens = .ok p) :
    ∃ t ts ds c, tokens = t :: ts ∧ Parse.declarations ⟨.nowhere, t, ts⟩ = .ok (ds, c) ∧
      p = Parse.programOf ds := by
  cases tokens with
  | nil => cases h
  | cons t ts =>
    simp only [ofTokens, Cursor.ofTokens?] at h
    cases hd : Parse.declarations ⟨.nowhere, t, ts⟩ with
    | error e =>
      rw [hd] at h
      cases h
    | ok r =>
      rw [hd] at h
      cases h
      exact ⟨t, ts, r.1, r.2, rfl, hd, rfl⟩

end Formula
