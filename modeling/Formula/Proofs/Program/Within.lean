import Formula.Proofs.Program.Reading
import Formula.Proofs.Registry.Parsing

/-!
# Readers within given tokens

A reader that starts on some of given tokens stays on them, wherever on them it starts. What it
reads then depends on these tokens and not on the place.

## Main definitions

* `Parse.Gives all p Q`: on the tokens `all`, what `p` reads satisfies `Q`

## Main results

* `Parse.Gives.bind`, `Parse.Gives.collect`: readers in sequence and in a loop
* `Parse.gives_identifier`: a name that is read is that of a token
-/

namespace Formula

namespace Cursor

variable {c : Cursor} {all : List Token}

theorem tokens_advance_suffix (c : Cursor) : c.advance.tokens <:+ c.tokens := by
  obtain ⟨b, t, rest⟩ := c
  cases rest with
  | nil => exact List.suffix_refl _
  | cons u ts => exact List.suffix_cons _ _

theorem advance_within (h : c.tokens <:+ all) : c.advance.tokens <:+ all :=
  c.tokens_advance_suffix.trans h

theorem current_mem (h : c.tokens <:+ all) : c.current ∈ all :=
  h.subset List.mem_cons_self

end Cursor

namespace Parse

open Cursor

variable {α β γ : Type} {all : List Token} {p : Parse α} {f : α → Parse β}

/-- **On the tokens `all`, what the reader `p` reads satisfies `Q`**, and it stays on them. -/
def Gives (all : List Token) (p : Parse α) (Q : α → Prop) : Prop :=
  ∀ c : Cursor, c.tokens <:+ all → Reads p c fun a c' => c'.tokens <:+ all ∧ Q a

namespace Gives

variable {P Q : α → Prop} {R : β → Prop}

theorem mono (h : Gives all p P) (hPQ : ∀ a, P a → Q a) : Gives all p Q :=
  fun c hc => (h c hc).mono fun a _ ha => ⟨ha.1, hPQ a ha.2⟩

theorem pure {a : α} (h : Q a) : Gives all (pure a) Q :=
  fun _ hc => .pure ⟨hc, h⟩

theorem fail (cause : ParseCause) : Gives all (fail cause) Q :=
  fun _ _ => .fail cause

theorem bind (h : Gives all p P) (hf : ∀ a, P a → Gives all (f a) R) : Gives all (p >>= f) R :=
  fun c hc => (h c hc).bind fun a c₁ ha => hf a ha.2 c₁ ha.1

theorem map {g : α → β} (h : Gives all p fun a => R (g a)) : Gives all (g <$> p) R :=
  fun c hc => .map (h c hc)

theorem map_bind {g : α → γ} {k : γ → Parse β} (h : Gives all p P)
    (hk : ∀ a, P a → Gives all (k (g a)) R) : Gives all (g <$> p >>= k) R :=
  fun c hc => .map_bind (h c hc) fun a c₁ ha => hk a ha.2 c₁ ha.1

theorem pure_bind {a : α} (h : Gives all (f a) R) : Gives all (Pure.pure a >>= f) R :=
  fun c hc => .pure_bind (h c hc)

theorem ite {b : Prop} [Decidable b] {x y : Parse α} (hx : Gives all x Q) (hy : Gives all y Q) :
    Gives all (if b then x else y) Q := by
  split
  · exact hx
  · exact hy

theorem peek_bind {test : Cursor → Bool} {k : Bool → Parse β} (h : ∀ b, Gives all (k b) R) :
    Gives all (peek test >>= k) R :=
  fun c hc => .peek_bind (h (test c) c hc)

theorem here_bind {k : Span → Parse β} (h : ∀ s, Gives all (k s) R) : Gives all (here >>= k) R :=
  fun c hc => .here_bind (h c.current.span c hc)

theorem before_bind {k : Span → Parse β} (h : ∀ s, Gives all (k s) R) :
    Gives all (before >>= k) R :=
  fun c hc => .before_bind (h c.before c hc)

/-- What is read unless a condition holds, and what follows. -/
theorem optional_bind {test : Cursor → Bool} {k : Option α → Parse β} (hp : Gives all p P)
    (hk : ∀ r, (∀ a ∈ r, P a) → Gives all (k r) R) :
    Gives all (peek test >>= fun b => if b then Pure.pure none >>= k else some <$> p >>= k) R := by
  refine .peek_bind fun _ => .ite (.pure_bind (hk none nofun)) (.map_bind hp fun a ha => hk _ ?_)
  rintro _ ⟨⟩
  exact ha

theorem ofExcept_bind {r : Except ParseError α} (h : ∀ a, r = .ok a → Gives all (f a) R) :
    Gives all ((r : Parse α) >>= f) R :=
  fun c hc => .ofExcept_bind fun a ha => h a ha c hc

/-- What the rounds of a loop read, one by one. -/
theorem collect {step : Parse (Option (α × Bool))}
    (hstep : Gives all step fun r => ∀ a ∈ r, Q a.1) :
    Gives all (collect step) fun as => ∀ a ∈ as, Q a := by
  intro c hc
  -- Each round stays on the tokens, and that is all that the next one needs.
  refine Reads.collect (I := fun c => c.tokens <:+ all)
    (L := fun _ as c' => c'.tokens <:+ all ∧ ∀ a ∈ as, Q a) (fun c hc => ?_) hc
  refine (hstep c hc).mono ?_
  rintro (_ | ⟨a, more⟩) c₁ ⟨hc₁, hQ⟩
  · exact ⟨hc₁, nofun⟩
  · have ha : Q a := hQ _ rfl
    refine ⟨hc₁, ⟨hc₁, by simpa using ha⟩, ?_⟩
    rintro as c₂ ⟨hc₂, has⟩
    exact ⟨hc₂, List.forall_mem_cons.mpr ⟨ha, has⟩⟩

end Gives

/-! ## Single tokens -/

theorem gives_next : Gives all next fun t => t ∈ all := by
  rintro c hc _ _ ⟨⟩
  exact ⟨advance_within hc, current_mem hc⟩

theorem gives_symbol (s : Symbol) (what : Wanted) : Gives all (symbol s what) fun t => t ∈ all := by
  intro c hc t c' h
  unfold symbol at h
  split at h
  · exact gives_next c hc t c' h
  · cases h

theorem gives_eat (s : Symbol) : Gives all (eat s) fun _ => True := by
  intro c hc b c' h
  unfold eat at h
  split at h
  · cases h
    exact ⟨advance_within hc, trivial⟩
  · cases h
    exact ⟨hc, trivial⟩

theorem eat_bind {s : Symbol} {k : Bool → Parse β} {R : β → Prop} (h : ∀ b, Gives all (k b) R) :
    Gives all (eat s >>= k) R :=
  (gives_eat s).bind fun b _ => h b

/-- **A name that is read is that of a token.** -/
theorem gives_identifier (what : Wanted) :
    Gives all (identifier what) fun name => ∃ t ∈ all, t.kind = .identifier name := by
  intro c hc name c' h
  unfold identifier at h
  split at h
  · rename_i hk
    cases h
    exact ⟨advance_within hc, c.current, current_mem hc, hk⟩
  · cases h

theorem gives_text (what : Wanted) : Gives all (text what) fun _ => True := by
  intro c hc value c' h
  unfold text at h
  split at h
  · cases h
    exact ⟨advance_within hc, trivial⟩
  · cases h

theorem gives_terminator (what : Wanted) : Gives all (terminator what) fun _ => True := by
  intro c hc u c' h
  unfold terminator at h
  split at h
  · cases h
    exact ⟨hc, trivial⟩
  · split at h
    · cases h
      exact ⟨advance_within hc, trivial⟩
    · cases h

theorem skipFrom_suffix (before : Span) (current : Token) (rest : List Token) :
    (skipFrom before current rest).tokens <:+ current :: rest := by
  induction rest generalizing before current with
  | nil => exact List.suffix_refl _
  | cons t ts ih =>
    rw [skipFrom]
    split
    · exact (ih current.span t).trans (List.suffix_cons _ _)
    · exact List.suffix_refl _

theorem gives_skipSeparators : Gives all skipSeparators fun _ => True := by
  rintro c hc _ _ ⟨⟩
  exact ⟨(skipFrom_suffix c.before c.current c.rest).trans hc, trivial⟩

theorem gives_commaSeparated {Q : α → Prop} (h : Gives all p Q) :
    Gives all (commaSeparated p) fun as => ∀ a ∈ as, Q a := by
  refine .collect (.peek_bind fun _ => .ite (.pure nofun) (h.bind fun a ha => ?_))
  refine eat_bind fun more => .pure ?_
  rintro _ ⟨⟩
  exact ha

end Parse

end Formula
