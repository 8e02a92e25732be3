import Formula.Typing.Check

/-!
# What the checker notes

What the checker finds out does not depend on what it has noted before, and what it notes comes on
top of that. What a computation notes is kept apart here as its effect, so that effects of parts of a
program that have different spans do not get mixed up.

## Main definitions

* `Effect`: places that are marked, and results of the entry function
* `Effect.Marks`: the places that become floating-point numbers by an effect in the end
* `Check.Gives x spans P`: `x` notes nothing outside of `spans`, and `P` holds of what it gives
* `Effect.Agrees`: the places in a part of a program are marked by the effect of that part alone

## Main results

* `Check.bind_eq_ok`: what is accepted in sequence is accepted step by step
* `Check.Gives.bind`: effects of computations in sequence
* `Effect.Agrees.left`, `Effect.Agrees.right`: effects of parts that have different spans
-/

namespace Formula

/-- What a computation notes: places that become floating-point numbers, and results. -/
structure Effect where
  marks : List Span := []
  results : List InferredResult := []

namespace Effect

/-- The effect of one computation behind that of another one. -/
def append (x y : Effect) : Effect :=
  ⟨x.marks ++ y.marks, y.results ++ x.results⟩

/-- The places that become floating-point numbers by an effect, where `result` is the result type in
the end: those that are marked, and the constants in the results that are integers. -/
def Marks (x : Effect) (result : Ty) (s : Span) : Prop :=
  s ∈ x.marks ∨ result = .float ∧ ∃ r ∈ x.results, r.type = .int ∧ s ∈ r.constants

/-- The results suit the result type in the end: each is of that type, or becomes it. -/
def Suits (x : Effect) (result : Ty) : Prop :=
  ∀ r ∈ x.results, r.type = result ∨
    result = .float ∧ r.type = .int ∧ r.constants ≠ []

/-- All that is noted lies among the given spans. -/
structure Within (x : Effect) (spans : List Span) : Prop where
  marks : ∀ s ∈ x.marks, s ∈ spans
  constants : ∀ r ∈ x.results, ∀ s ∈ r.constants, s ∈ spans

/-- **Of the given spans, just those are marked in the end that the effect marks.** -/
def Agrees (x : Effect) (result : Ty) (floats spans : List Span) : Prop :=
  ∀ s ∈ spans, s ∈ floats ↔ x.Marks result s

variable {x y : Effect} {result : Ty} {floats spans others : List Span} {s : Span}

@[simp]
theorem nil_append : append {} x = x := by
  simp [append]

@[simp]
theorem append_nil : x.append {} = x := by
  simp [append]

theorem marks_of_results (h : x.results = []) : x.Marks result s ↔ s ∈ x.marks := by
  simp [Marks, h]

theorem marks_append : (x.append y).Marks result s ↔ x.Marks result s ∨ y.Marks result s := by
  simp only [Marks, append, List.mem_append]
  constructor
  · rintro ((h | h) | ⟨hr, r, h | h, hs⟩)
    · exact .inl (.inl h)
    · exact .inr (.inl h)
    · exact .inr (.inr ⟨hr, r, h, hs⟩)
    · exact .inl (.inr ⟨hr, r, h, hs⟩)
  · rintro ((h | ⟨hr, r, h, hs⟩) | (h | ⟨hr, r, h, hs⟩))
    · exact .inl (.inl h)
    · exact .inr ⟨hr, r, .inr h, hs⟩
    · exact .inl (.inr h)
    · exact .inr ⟨hr, r, .inl h, hs⟩

theorem suits_append : (x.append y).Suits result ↔ x.Suits result ∧ y.Suits result := by
  simp only [Suits, append, List.mem_append]
  constructor
  · exact fun h => ⟨fun r hr => h r (.inr hr), fun r hr => h r (.inl hr)⟩
  · rintro ⟨hx, hy⟩ r (hr | hr)
    · exact hy r hr
    · exact hx r hr

theorem Within.mem (h : x.Within spans) (hs : x.Marks result s) : s ∈ spans := by
  rcases hs with hs | ⟨-, r, hr, -, hs⟩
  · exact h.marks s hs
  · exact h.constants r hr s hs

theorem Within.weaken (h : x.Within spans) (hsub : ∀ s ∈ spans, s ∈ others) : x.Within others :=
  ⟨fun s hs => hsub s (h.marks s hs), fun r hr s hs => hsub s (h.constants r hr s hs)⟩

theorem Within.append (hx : x.Within spans) (hy : y.Within others) :
    (x.append y).Within (spans ++ others) where
  marks s hs := by
    rcases List.mem_append.mp hs with hs | hs
    · exact List.mem_append_left _ (hx.marks s hs)
    · exact List.mem_append_right _ (hy.marks s hs)
  constants r hr s hs := by
    rcases List.mem_append.mp hr with hr | hr
    · exact List.mem_append_right _ (hy.constants r hr s hs)
    · exact List.mem_append_left _ (hx.constants r hr s hs)

theorem within_nil : Within {} spans :=
  ⟨nofun, nofun⟩

/-- Without an effect, nothing is marked. -/
theorem agrees_nil : Agrees {} result floats spans ↔ ∀ s ∈ spans, s ∉ floats := by
  simp [Agrees, Marks]

theorem Agrees.mono (h : x.Agrees result floats spans) (hsub : ∀ s ∈ others, s ∈ spans) :
    x.Agrees result floats others :=
  fun s hs => h s (hsub s hs)

/-- Each effect is that of all that is marked by it. -/
theorem exists_agrees (x : Effect) (result : Ty) :
    ∃ floats, ∀ spans, x.Agrees result floats spans := by
  refine ⟨x.marks ++ if result = .float then (x.results.filter (·.type = .int)).flatMap
    (·.constants) else [], fun spans s _ => ?_⟩
  rw [List.mem_append, Marks]
  by_cases hresult : result = .float
  · simp [hresult, and_assoc]
  · simp [hresult]

/-- The effect of a part whose spans are not those of what comes behind it. -/
theorem Agrees.left (h : (x.append y).Agrees result floats spans)
    (hy : y.Within others) (hdisjoint : ∀ s ∈ spans, s ∉ others) :
    x.Agrees result floats spans := by
  intro s hs
  rw [h s hs, marks_append]
  exact ⟨fun h => h.resolve_right fun hm => hdisjoint s hs (hy.mem hm), .inl⟩

/-- The effect of a part whose spans are not those of what comes before it. -/
theorem Agrees.right (h : (x.append y).Agrees result floats spans)
    (hx : x.Within others) (hdisjoint : ∀ s ∈ spans, s ∉ others) :
    y.Agrees result floats spans := by
  intro s hs
  rw [h s hs, marks_append]
  exact ⟨fun h => h.resolve_left fun hm => hdisjoint s hs (hx.mem hm), .inr⟩

/-- The effects of two parts with different spans. -/
theorem Agrees.split (h : (x.append y).Agrees result floats (spans ++ others)) (hx : x.Within spans)
    (hy : y.Within others) (hnodup : (spans ++ others).Nodup) :
    x.Agrees result floats spans ∧ y.Agrees result floats others := by
  obtain ⟨-, -, hdisjoint⟩ := List.nodup_append.mp hnodup
  exact ⟨(h.mono fun _ => List.mem_append_left _).left hy fun s hs hs' => hdisjoint s hs s hs' rfl,
    (h.mono fun _ => List.mem_append_right _).right hx fun s hs hs' => hdisjoint s hs' s hs rfl⟩

/-- The effect of the parts of a node; its own place is not marked by them. -/
theorem Agrees.parts (h : x.Agrees result floats (s :: spans)) (hx : x.Within spans)
    (hnodup : (s :: spans).Nodup) : s ∉ floats ∧ x.Agrees result floats spans := by
  refine ⟨fun hs => (List.nodup_cons.mp hnodup).1 (hx.mem ((h s List.mem_cons_self).mp hs)), ?_⟩
  exact h.mono fun _ => List.mem_cons_of_mem _

end Effect

/-! ## Effects of computations -/

/-- The notes `n'` come from `n` by an effect. -/
structure Notes.Takes (n : Notes) (x : Effect) (n' : Notes) : Prop where
  floats : ∀ s, s ∈ n'.floats ↔ s ∈ n.floats ∨ s ∈ x.marks
  results : n'.results = x.results ++ n.results

theorem Notes.Takes.refl (n : Notes) : n.Takes {} n :=
  ⟨by simp, rfl⟩

theorem Notes.Takes.trans {n n' n'' : Notes} {x y : Effect} (h : n.Takes x n')
    (h' : n'.Takes y n'') : n.Takes (x.append y) n'' where
  floats s := by
    rw [h'.floats, h.floats, Effect.append, List.mem_append, or_assoc]
  results := by
    rw [h'.results, h.results, Effect.append, List.append_assoc]

theorem Notes.takes_mark (n : Notes) (spans : List Span) : n.Takes ⟨spans, []⟩ (n.mark spans) where
  floats s := by
    have hfold (floats : List Span) :
        s ∈ spans.foldl (fun floats s => floats.insert s) floats ↔ s ∈ floats ∨ s ∈ spans := by
      induction spans generalizing floats with
      | nil => simp
      | cons t spans ih =>
        rw [List.foldl_cons, ih, List.mem_insert_iff, List.mem_cons]
        grind
    exact hfold n.floats
  results := rfl

namespace Check

variable {α β : Type}

/-- Computations in sequence give something if each of them does. -/
theorem bind_eq_ok {x : Check α} {f : α → Check β} {n n'' : Notes} {b : β}
    (h : (x >>= f) n = .ok (b, n'')) : ∃ a n', x n = .ok (a, n') ∧ f a n' = .ok (b, n'') := by
  obtain ⟨⟨a, n'⟩, hx, hf⟩ := Except.bind_eq_ok h
  exact ⟨a, n', hx, hf⟩

theorem resolved_eq_ok {r : Except UnknownType α} {n n' : Notes} {a : α}
    (h : Check.resolved r n = .ok (a, n')) : r = .ok a ∧ n' = n := by
  cases r with
  | error e => cases h
  | ok a' =>
    cases h
    exact ⟨rfl, rfl⟩

/-- **A computation notes nothing outside of the given spans**, and `P` holds of what it gives and of
its effect. -/
def Gives (x : Check α) (spans : List Span) (P : α → Effect → Prop) : Prop :=
  ∀ n a n', x n = .ok (a, n') → ∃ e : Effect, n.Takes e n' ∧ e.Within spans ∧ P a e

namespace Gives

variable {x : Check α} {f : α → Check β} {spans others : List Span} {P : α → Effect → Prop}
  {Q : β → Effect → Prop}

theorem weaken {P' : α → Effect → Prop} (h : Gives x spans P) (hsub : ∀ s ∈ spans, s ∈ others)
    (hP : ∀ a e, e.Within spans → P a e → P' a e) : Gives x others P' := by
  intro n a n' heq
  obtain ⟨e, htakes, hwithin, ha⟩ := h n a n' heq
  exact ⟨e, htakes, hwithin.weaken hsub, hP a e hwithin ha⟩

theorem mono {P' : α → Effect → Prop} (h : Gives x spans P) (hP : ∀ a e, P a e → P' a e) :
    Gives x spans P' :=
  h.weaken (fun _ => id) fun a e _ => hP a e

theorem pure {a : α} (h : P a {}) : Gives (pure a) spans P := by
  rintro n _ _ ⟨⟩
  exact ⟨_, .refl n, Effect.within_nil, h⟩

theorem fail (span : Span) (cause : TypeCause) : Gives (Check.fail span cause) spans P :=
  fun _ _ _ heq => nomatch heq

theorem fail_bind (span : Span) (cause : TypeCause) :
    Gives (Check.fail span cause >>= f) spans Q :=
  fun _ _ _ heq => nomatch heq

theorem addResult {r : InferredResult} {P : Unit → Effect → Prop}
    (hspans : ∀ s ∈ r.constants, s ∈ spans) (h : P () ⟨[], [r]⟩) :
    Gives (Check.addResult r) spans P := by
  rintro n _ _ ⟨⟩
  refine ⟨⟨[], [r]⟩, ⟨by simp, rfl⟩, ⟨nofun, fun r' hr' => ?_⟩, h⟩
  rwa [List.mem_singleton.mp hr']

theorem bind {l : List Span} (h : Gives x spans P)
    (hf : ∀ a e, P a e → e.Within spans → Gives (f a) l fun b e' => Q b (e.append e')) :
    Gives (x >>= f) (spans ++ l) Q := by
  intro n b n'' heq
  obtain ⟨a, n', hx, heq⟩ := bind_eq_ok heq
  obtain ⟨e, htakes, hwithin, ha⟩ := h n a n' hx
  obtain ⟨e', htakes', hwithin', hb⟩ := hf a e ha hwithin n' b n'' heq
  exact ⟨_, htakes.trans htakes', hwithin.append hwithin', hb⟩

/-- What comes behind notes nothing more. -/
theorem last (h : Gives x spans P) (hsub : ∀ s ∈ spans, s ∈ others)
    (hf : ∀ a e, P a e → e.Within spans → Gives (f a) [] fun b e' => Q b (e.append e')) :
    Gives (x >>= f) others Q :=
  (h.bind hf).weaken (by simpa using hsub) fun _ _ _ => id

theorem ofExcept_bind {r : Except TypeError α} (h : ∀ a, r = .ok a → Gives (f a) spans Q) :
    Gives ((r : Check α) >>= f) spans Q := by
  intro n b n' heq
  cases r with
  | error e => cases heq
  | ok a => exact h a rfl n b n' heq

theorem ofExcept {r : Except TypeError α} (h : ∀ a, r = .ok a → P a {}) :
    Gives (r : Check α) spans P := by
  intro n a n' heq
  cases r with
  | error e => cases heq
  | ok a =>
    cases heq
    exact ⟨_, .refl n, Effect.within_nil, h a rfl⟩

theorem resolved {r : Except UnknownType α} (h : ∀ a, r = .ok a → P a {}) :
    Gives (Check.resolved r) spans P := by
  cases r with
  | error e => exact fun _ _ _ heq => nomatch heq
  | ok a => exact .pure (h a rfl)

theorem resolved_bind {r : Except UnknownType α} (h : ∀ a, r = .ok a → Gives (f a) spans Q) :
    Gives (Check.resolved r >>= f) spans Q := by
  cases r with
  | error e => exact fun _ _ _ heq => nomatch heq
  | ok a => exact h a rfl

theorem ite {b : Prop} [Decidable b] {y : Check α} (hx : b → Gives x spans P)
    (hy : ¬b → Gives y spans P) : Gives (if b then x else y) spans P := by
  split
  · exact hx ‹_›
  · exact hy ‹_›

theorem mark_bind {marks : List Span} {y : Check β} (hmarks : ∀ s ∈ marks, s ∈ spans)
    (h : Gives y [] fun b e => e = {} ∧ Q b ⟨marks, []⟩) :
    Gives (Check.mark marks >>= fun _ => y) spans Q := by
  intro n b n' heq
  obtain ⟨e, htakes, -, rfl, hb⟩ := h (n.mark marks) b n' heq
  refine ⟨⟨marks, []⟩, ?_, ⟨hmarks, nofun⟩, hb⟩
  simpa [Effect.append] using (n.takes_mark marks).trans htakes

end Gives

end Check

end Formula
