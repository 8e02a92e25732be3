/-!
# Computations side by side

From related states, one computation may do what another one does: end in a related error, or in a
related result and state. This is put together from the parts of the computations. Where the results of
the one are a function of those of the other, it carries a change of state along: it goes on from the
changed state, and ends in what it would have ended in, changed.

## Main definitions

* `Relates S E R x y`: from related states `y` does what `x` does, with related errors and results
* `Carries S E value x y`: the same, where results are changed by a function

## Main results

* `Relates.bind`, `Carries.bind`: sequences of computations
* `Carries.of_eq`, `Carries.eq`: a change that is a function of the state and of the error
-/

namespace Formula

variable {σ ε α β γ δ : Type} {S : σ → σ → Prop} {E : ε → ε → Prop} {R : α → β → Prop}
  {R' : γ → δ → Prop} {value : α → β} {value' : γ → δ}

/-- A computation ends as another one does: in a related error, or in a related result and state. -/
inductive Related (S : σ → σ → Prop) (E : ε → ε → Prop) (R : α → β → Prop) :
    Except ε (α × σ) → Except ε (β × σ) → Prop where
  | error {e e' : ε} (h : E e e') : Related S E R (.error e) (.error e')
  | ok {a : α} {b : β} {s s' : σ} (ha : R a b) (h : S s s') : Related S E R (.ok (a, s)) (.ok (b, s'))

theorem Related.mono {S' : σ → σ → Prop} {r : Except ε (α × σ)} {r' : Except ε (β × σ)}
    (h : Related S E R r r') (hS : ∀ s s', S s s' → S' s s') : Related S' E R r r' := by
  cases h with
  | error h => exact .error h
  | ok ha hs => exact .ok ha (hS _ _ hs)

/-- **From related states `y` does what `x` does.** -/
def Relates (S : σ → σ → Prop) (E : ε → ε → Prop) (R : α → β → Prop) (x : StateT σ (Except ε) α)
    (y : StateT σ (Except ε) β) : Prop :=
  ∀ s s', S s s' → Related S E R (x s) (y s')

namespace Relates

theorem pure {a : α} {b : β} (h : R a b) : Relates S E R (Pure.pure a) (Pure.pure b) :=
  fun _ _ => .ok h

theorem throw {e e' : ε} (h : E e e') : Relates S E R (throw e) (throw e') :=
  fun _ _ _ => .error h

theorem bind {x : StateT σ (Except ε) α} {y : StateT σ (Except ε) β}
    {f : α → StateT σ (Except ε) γ} {g : β → StateT σ (Except ε) δ}
    (h : Relates S E R x y) (hf : ∀ a b, R a b → Relates S E R' (f a) (g b)) :
    Relates S E R' (x >>= f) (y >>= g) := by
  intro s s' hs
  change Related S E R' (x s >>= fun r => f r.1 r.2) (y s' >>= fun r => g r.1 r.2)
  have hxy := h s s' hs
  generalize x s = r at hxy ⊢
  generalize y s' = r' at hxy ⊢
  cases hxy with
  | error he => exact .error he
  | ok ha hs => exact hf _ _ ha _ _ hs

/-- What is read off related states, and what follows. -/
theorem get_bind {f : σ → StateT σ (Except ε) γ} {g : σ → StateT σ (Except ε) δ}
    (h : ∀ s s', S s s' → Relates S E R' (f s) (g s')) : Relates S E R' (get >>= f) (get >>= g) :=
  fun s s' hs => h s s' hs s s' hs

theorem map {x : StateT σ (Except ε) α} {y : StateT σ (Except ε) β} {f : α → γ} {g : β → δ}
    (h : Relates S E R x y) (hfg : ∀ a b, R a b → R' (f a) (g b)) :
    Relates S E R' (f <$> x) (g <$> y) := by
  rw [map_eq_pure_bind, map_eq_pure_bind]
  exact h.bind fun a b hab => .pure (hfg a b hab)

theorem ite {c c' : Prop} [Decidable c] [Decidable c'] {x x' : StateT σ (Except ε) α}
    {y y' : StateT σ (Except ε) β} (hc : c ↔ c') (h : Relates S E R x y) (h' : Relates S E R x' y') :
    Relates S E R (if c then x else x') (if c' then y else y') := by
  by_cases hx : c
  · rw [if_pos hx, if_pos (hc.mp hx)]
    exact h
  · rw [if_neg hx, if_neg (mt hc.mpr hx)]
    exact h'

end Relates

/-- **A computation carries a change along**: it has the results of another one, changed. -/
def Carries (S : σ → σ → Prop) (E : ε → ε → Prop) (value : α → β) (x : StateT σ (Except ε) α)
    (y : StateT σ (Except ε) β) : Prop :=
  Relates S E (value · = ·) x y

/-- A result is no error. -/
theorem Except.mapError_ok {ε' : Type} (f : ε → ε') (a : α) :
    (Except.ok a).mapError f = .ok a :=
  rfl

namespace Carries

theorem pure {a : α} {b : β} (h : value a = b) :
    Carries S E value (Pure.pure a) (Pure.pure b) :=
  Relates.pure h

theorem throw {e e' : ε} (h : E e e') : Carries S E value (throw e) (throw e') :=
  Relates.throw h

theorem bind {x : StateT σ (Except ε) α} {y : StateT σ (Except ε) β}
    {f : α → StateT σ (Except ε) γ} {g : β → StateT σ (Except ε) δ}
    (h : Carries S E value x y) (hf : ∀ a, Carries S E value' (f a) (g (value a))) :
    Carries S E value' (x >>= f) (y >>= g) :=
  Relates.bind h fun a _ hab => hab ▸ hf a

/-- What is read off related states, and what follows. -/
theorem get_bind {f : σ → StateT σ (Except ε) γ} {g : σ → StateT σ (Except ε) δ}
    (h : ∀ s s', S s s' → Carries S E value' (f s) (g s')) :
    Carries S E value' (get >>= f) (get >>= g) :=
  Relates.get_bind h

theorem map {x : StateT σ (Except ε) α} {y : StateT σ (Except ε) β} {f : α → γ} {g : β → δ}
    (h : Carries S E value x y) (hfg : ∀ a, value' (f a) = g (value a)) :
    Carries S E value' (f <$> x) (g <$> y) :=
  Relates.map h fun a _ hab => hab ▸ hfg a

theorem ite {c c' : Prop} [Decidable c] [Decidable c'] {x x' : StateT σ (Except ε) α}
    {y y' : StateT σ (Except ε) β} (hc : c ↔ c') (h : Carries S E value x y)
    (h' : Carries S E value x' y') :
    Carries S E value (if c then x else x') (if c' then y else y') :=
  Relates.ite hc h h'

section Functions

variable {state : σ → σ} {error : ε → ε}

/-- A change that is a function of the state and of the error. -/
theorem of_eq {x : StateT σ (Except ε) α} {y : StateT σ (Except ε) β}
    (h : ∀ s, y (state s) = ((x s).map (Prod.map value state)).mapError error) :
    Carries (state · = ·) (error · = ·) value x y := by
  rintro s _ rfl
  rw [h s]
  cases x s with
  | error e => exact .error rfl
  | ok r => exact .ok rfl rfl

theorem eq {x : StateT σ (Except ε) α} {y : StateT σ (Except ε) β}
    (h : Carries (state · = ·) (error · = ·) value x y) (s : σ) :
    y (state s) = ((x s).map (Prod.map value state)).mapError error := by
  have hxy := h s (state s) rfl
  generalize x s = r at hxy ⊢
  generalize y (state s) = r' at hxy ⊢
  cases hxy with
  | error he => exact congrArg Except.error he.symm
  | ok ha hs => exact congrArg Except.ok (Prod.ext ha.symm hs.symm)

end Functions

/-- A computation that does not look at the state. -/
theorem lift {r : Except ε α} {r' : Except ε β} {error : ε → ε} (herror : ∀ e, E e (error e))
    (h : r' = (r.map value).mapError error) :
    Carries S E value (r : StateT σ (Except ε) α) (r' : StateT σ (Except ε) β) := by
  intro s s' hs
  rw [h]
  cases r with
  | error e => exact .error (herror e)
  | ok a => exact .ok rfl hs

end Carries

end Formula
