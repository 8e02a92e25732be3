import Formula.Proofs.Program.Precedence
import Formula.Proofs.Ty.Tokens

/-!
# Types that were shown are read again

The result of a function type is written behind the parentheses without a mark, and left out if
there is none. So the reader decides by one token whether there is a result, and a type is read
again before every token that no type begins with: a comma, a closing parenthesis or the end of the
line.

## Main definitions

* `Ty.ReadsBefore`: the tokens of a type are read as that type
* `Ty.IsReadFrom`: a file holds a type and the end of its line

## Main results

* `Parse.commaSeparated_of_kinds`: what is separated by commas is read item by item
* `Ty.Writable.read`: the tokens of a type are read as that type
* `Ty.writable_iff`: the types that can be named are those that written types stand for
* `Ty.Writable.text_identifies`: the text of a type is read as that type, and is the text of no other one
-/

namespace Formula

open Cursor Parse

namespace Parse

variable {α β : Type} {c : Cursor} {k follow : TokenKind} {ks : List TokenKind}

theorem peek_startsType (h : c.kinds = k :: ks) :
    peek (·.startsType) c = .ok (k.startsType, c) := by
  rw [peek, Cursor.startsType, kind_of_kinds h]
  rfl

theorem peek_isKeyword (h : c.kinds = .keyword .funcK :: ks) :
    peek (·.isKeyword .funcK) c = .ok (true, c) := by
  simp [peek, isKeyword, kind_of_kinds h]

/-! ## Lists -/

/-- **What is separated by commas is read item by item**, if each item is read before a comma and
before a closing parenthesis, and none begins with one. -/
theorem commaSeparated_of_kinds {item : Parse α} {kinds : β → List TokenKind} {R : α → β → Prop}
    {bs : List β} (hfirst : ∀ b ∈ bs, ∃ k ks, kinds b = k :: ks ∧ k ≠ .symbol .rparen)
    (hitem : ∀ b ∈ bs, ∀ c follow ks, c.kinds = kinds b ++ follow :: ks →
      follow ∈ [.symbol .comma, .symbol .rparen] →
      ∃ a c', item c = .ok (a, c') ∧ R a b ∧ c.Comes c' (follow :: ks)) {c : Cursor}
    {ks : List TokenKind}
    (hc : c.kinds = [.symbol .comma].intercalate (bs.map kinds) ++ .symbol .rparen :: ks) :
    ∃ as c', commaSeparated item c = .ok (as, c') ∧ List.Forall₂ R as bs ∧
      c.Comes c' (.symbol .rparen :: ks) := by
  induction bs generalizing c with
  | nil =>
    have hclose : peek (·.isSymbol .rparen) c = .ok (true, c) := by
      simp [peek, isSymbol_of_kinds (c := c) hc]
    exact ⟨[], c, collect_of_none (bind_of_ok hclose), .nil, hc, List.suffix_refl _⟩
  | cons b bs ih =>
    obtain ⟨⟨k, ks', hkinds, hk⟩, hfirst⟩ := List.forall_mem_cons.mp hfirst
    obtain ⟨hhere, hitem⟩ := List.forall_mem_cons.mp hitem
    have hopen {ks : List TokenKind} (hc : c.kinds = kinds b ++ ks) :
        peek (·.isSymbol .rparen) c = .ok (false, c) := by
      rw [hkinds] at hc
      exact peek_of_ne hc hk
    -- A round of the loop goes on exactly if a comma follows the item.
    have hround {a : α} {c₁ c₂ : Cursor} {more : Bool} {ks : List TokenKind}
        (hc : c.kinds = kinds b ++ ks) (ha : item c = .ok (a, c₁))
        (hcomma : eat .comma c₁ = .ok (more, c₂)) :
        (do
          if ← peek (·.isSymbol .rparen) then return none
          let a ← item
          return some (a, ← eat .comma) : Parse (Option (α × Bool))) c =
            .ok (some (a, more), c₂) :=
      (bind_of_ok (hopen hc)).trans ((bind_of_ok ha).trans (bind_of_ok hcomma))
    cases bs with
    | nil =>
      rw [List.map_cons, List.map_nil, List.intercalate_singleton] at hc
      obtain ⟨a, c₁, ha, hR, hcomes⟩ := hhere c _ _ hc (by simp)
      have hlast := hround hc ha (eat_of_ne hcomes.kinds_eq (by simp))
      refine ⟨[a], c₁, ?_, .cons hR .nil, hcomes⟩
      rw [commaSeparated, collect, hlast]
      simp
    | cons b' bs =>
      rw [List.map_cons, List.map_cons, List.intercalate_cons_cons, List.append_assoc,
        List.append_assoc, List.singleton_append] at hc
      obtain ⟨a, c₁, ha, hR, hcomes⟩ := hhere c _ _ hc (by simp)
      have hadvance := comes_advance hcomes.kinds_eq (by simp)
      have hcomes₁ := hcomes.trans hadvance
      obtain ⟨as, c₂, has, hRs, hcomes₂⟩ := ih hfirst hitem hadvance.kinds_eq
      refine ⟨a :: as, c₂, ?_, .cons hR hRs, hcomes₁.trans hcomes₂⟩
      have hlt : c₁.advance.left < c.left := hcomes₁.left_lt (by simp [hc]; omega)
      rw [commaSeparated, collect_of_some (hround hc ha (eat_of_kinds hcomes.kinds_eq)) hlt]
      exact congrArg (Except.map _) has

end Parse

/-! ## Types -/

/-- **The tokens of a type are read as that type** before a token that no type begins with, as soon
as the fuel is as many as they are. -/
def Ty.ReadsBefore (t : Ty) : Prop :=
  ∀ {fuel : Nat} {c : Cursor} {follow : TokenKind} {ks : List TokenKind},
    t.kinds.length ≤ fuel → c.kinds = t.kinds ++ follow :: ks → follow.startsType = false →
    ∃ e c', typeExprWith fuel c = .ok (e, c') ∧ e.resolve = .ok t ∧ c.Comes c' (follow :: ks)

namespace Ty

/-- A name is read as the type that it stands for. -/
theorem readsBefore_name {t : Ty} {name : String} (hkinds : t.kinds = [.identifier name])
    (hname : named? name = some t) : t.ReadsBefore := by
  intro fuel c follow ks hfuel hc _
  rw [hkinds] at hfuel hc
  obtain ⟨fuel, rfl⟩ := Nat.exists_eq_succ_of_ne_zero (Nat.ne_of_gt hfuel)
  have hadvance := comes_advance hc (by simp)
  have hkeyword : peek (·.isKeyword .funcK) c = .ok (false, c) := by
    simp [peek, isKeyword, kind_of_kinds hc]
  have hidentifier : identifier .typeName c = .ok (name, c.advance) := by
    simp [identifier, kind_of_kinds hc]
  refine ⟨.named name c.current.span, c.advance, ?_, by simp [TypeExpr.resolve, hname], hadvance⟩
  exact (bind_of_ok (p := here) rfl).trans ((bind_of_ok hkeyword).trans (bind_of_ok hidentifier))

/-- A result is read if a type begins behind the parentheses, and else there is none. -/
theorem Writable.read_result {r : Ty} (hr : r ≠ .void → r.Writable)
    (hread : r ≠ .void → r.ReadsBefore) {fuel : Nat} {c : Cursor} {follow : TokenKind}
    {ks : List TokenKind} (hfuel : r.kinds.length ≤ fuel) (hc : c.kinds = r.kinds ++ follow :: ks)
    (hfollow : follow.startsType = false) (rest : Option TypeExpr → Parse TypeExpr) :
    ∃ result c', (do
        if ← peek (·.startsType) then (some <$> typeExprWith fuel) >>= rest
        else pure none >>= rest) c = rest result c' ∧
      resultType result = .ok r ∧ c.Comes c' (follow :: ks) := by
  by_cases hvoid : r = .void
  · subst hvoid
    have hpeek : peek (·.startsType) c = .ok (false, c) := hfollow ▸ peek_startsType hc
    exact ⟨none, c, bind_of_ok hpeek, rfl, hc, List.suffix_refl _⟩
  · obtain ⟨k, ks', hkinds, hk⟩ := (hr hvoid).first
    obtain ⟨e, c', he, hresolve, hcomes⟩ := hread hvoid hfuel hc hfollow
    have hpeek : peek (·.startsType) c = .ok (true, c) := by
      rw [hkinds] at hc
      exact hk ▸ peek_startsType hc
    have hsome : (some <$> typeExprWith fuel) c = .ok (some e, c') :=
      bind_of_ok (f := fun e => pure (some e)) he
    exact ⟨some e, c', (bind_of_ok hpeek).trans (bind_of_ok hsome), hresolve, hcomes⟩

/-- The types of a list that was read. -/
theorem resolveAll_of_forall₂ {es : List TypeExpr} {ts : List Ty}
    (h : List.Forall₂ (fun e t => e.resolve = .ok t) es ts) :
    TypeExpr.resolveAll es = .ok ts := by
  induction h with
  | nil => rfl
  | cons hfirst _ ih => rw [TypeExpr.resolveAll, hfirst, ih]; rfl

theorem length_kinds_le_of_mem {ts : List Ty} {t : Ty} (h : t ∈ ts) :
    t.kinds.length ≤ (listKinds ts).length := by
  induction ts with
  | nil => cases h
  | cons u ts ih =>
    cases ts with
    | nil =>
      rw [List.mem_singleton.mp h]
      simp [listKinds]
    | cons v ts =>
      rw [listKinds_cons_cons, List.length_append, List.length_cons]
      rcases List.mem_cons.mp h with rfl | h
      · omega
      · have := ih h
        omega

/-- **The tokens of a type that can be named are read as that type.** -/
theorem Writable.read {t : Ty} (h : t.Writable) : t.ReadsBefore := by
  induction h with
  | int | float | bool | string => exact readsBefore_name rfl rfl
  | @function ps r hps hr hparams hresult =>
    intro fuel c follow ks hfuel hc hfollow
    rw [kinds_function] at hfuel hc
    simp only [List.length_cons, List.length_append] at hfuel
    obtain ⟨fuel, rfl⟩ := Nat.exists_eq_succ_of_ne_zero (show fuel ≠ 0 by omega)
    simp only [List.cons_append, List.append_assoc] at hc
    have hfunc := comes_advance hc (by simp)
    have hopen := comes_advance hfunc.kinds_eq (by simp)
    have hstops : ∀ k ∈ [TokenKind.symbol .comma, .symbol .rparen], k.startsType = false := by
      simp [TokenKind.startsType]
    have hfirst : ∀ p ∈ ps, ∃ k ks, p.kinds = k :: ks ∧ k ≠ .symbol .rparen := by
      intro p hp
      obtain ⟨k, ks, hkinds, hk⟩ := (hps p hp).first
      exact ⟨k, ks, hkinds, by rintro rfl; cases hk⟩
    have hparam : ∀ p ∈ ps, ∀ c follow ks, c.kinds = p.kinds ++ follow :: ks →
        follow ∈ [.symbol .comma, .symbol .rparen] → ∃ e c', typeExprWith fuel c = .ok (e, c') ∧
          e.resolve = .ok p ∧ c.Comes c' (follow :: ks) := by
      intro p hp c follow ks hc hmem
      have := length_kinds_le_of_mem hp
      exact hparams p hp (by omega) hc (hstops _ hmem)
    obtain ⟨es, c₁, hes, hresolved, hlist⟩ :=
      commaSeparated_of_kinds hfirst hparam hopen.kinds_eq
    have hclose := comes_advance hlist.kinds_eq (by simp)
    have hleft : r.kinds.length ≤ fuel := by omega
    obtain ⟨result, c₂, hread, hresult, hend⟩ :=
      Writable.read_result hr hresult hleft hclose.kinds_eq hfollow
        fun result => do return .function es result (c.current.span.join (← before))
    refine ⟨.function es result (c.current.span.join c₂.before), c₂, ?_, ?_,
      hfunc.trans (hopen.trans (hlist.trans (hclose.trans hend)))⟩
    · refine (bind_of_ok (p := here) rfl).trans ((bind_of_ok (peek_isKeyword hc)).trans ?_)
      refine (bind_of_ok (p := next) rfl).trans ?_
      refine (bind_of_ok (symbol_of_kinds hfunc.kinds_eq)).trans ((bind_of_ok hes).trans ?_)
      exact (bind_of_ok (symbol_of_kinds hlist.kinds_eq)).trans hread
    · rw [TypeExpr.resolve, resolveAll_of_forall₂ hresolved]
      cases result with
      | none =>
        cases hresult
        rfl
      | some e =>
        rw [resultType] at hresult
        simp only [bind, Except.bind, hresult]
        rfl

/-- A file is read as a type: it holds that type and the end of its line. -/
def IsReadFrom (t : Ty) (file : SourceFile) : Prop :=
  ∃ tokens c e c', Token.scan file = .ok tokens ∧ ofTokens? tokens = some c ∧
    typeExpr c = .ok (e, c') ∧ c'.kinds = [.newline, .eof] ∧ e.resolve = .ok t

/-- A file is read as one type at most. -/
theorem IsReadFrom.unique {t u : Ty} {file : SourceFile} (h : t.IsReadFrom file)
    (h' : u.IsReadFrom file) : t = u := by
  obtain ⟨tokens, c, e, c', hscan, hc, he, -, ht⟩ := h
  obtain ⟨tokens', d, e', d', hscan', hd, he', -, hu⟩ := h'
  cases hscan.symm.trans hscan'
  cases hc.symm.trans hd
  cases he.symm.trans he'
  exact Except.ok.inj (ht.symm.trans hu)

/-- The text of a type is read as that type, with fuel for as many types as there are tokens. -/
theorem Writable.isReadFrom {t : Ty} (h : t.Writable) (file : SourceFile)
    (hfile : file.text = t.text) : t.IsReadFrom file := by
  obtain ⟨tokens, hscan, hkinds⟩ := h.scan hfile
  obtain ⟨k, ks, hfirst, -⟩ := h.first
  rw [hfirst, List.cons_append] at hkinds
  obtain ⟨span, rest, rfl, hrest⟩ := exists_tokens hkinds
  have hc : Cursor.kinds ⟨.nowhere, ⟨k, span⟩, rest⟩ = t.kinds ++ [.newline, .eof] := by
    rw [Cursor.kinds, hrest, hfirst]
    rfl
  have hfuel : t.kinds.length ≤ rest.length + 1 := by
    have := congrArg List.length hrest
    rw [hfirst]
    simp only [List.length_map, List.length_append, List.length_cons] at this ⊢
    omega
  obtain ⟨e, c', he, hresolve, hcomes⟩ := h.read hfuel hc rfl
  exact ⟨_, _, e, c', hscan, rfl, he, hcomes.kinds_eq, hresolve⟩

/-- The types that can be named are those that written types stand for. -/
theorem writable_iff {t : Ty} : t.Writable ↔ ∃ e : TypeExpr, e.resolve = .ok t := by
  refine ⟨fun h => ?_, fun ⟨e, he⟩ => e.writable_of_resolve he⟩
  obtain ⟨-, -, e, -, -, -, -, -, he⟩ := h.isReadFrom (.ofText 0 "" t.text) rfl
  exact ⟨e, he⟩

/-- **The text of a type that can be named is read as that type**, in every file that holds nothing
else, and so it is the text of no other such type. -/
theorem Writable.text_identifies {t : Ty} (h : t.Writable) :
    (∀ file : SourceFile, file.text = t.text → t.IsReadFrom file) ∧
      ∀ u : Ty, u.Writable → u.text = t.text → u = t := by
  refine ⟨fun file hfile => h.isReadFrom file hfile, fun u hu htext => ?_⟩
  exact (hu.isReadFrom (.ofText 0 "" t.text) htext.symm).unique (h.isReadFrom _ rfl)

/-- Function types without a result and with one, as parameters and as results. -/
theorem Writable.text_identifies_nested :
    IsReadFrom (.plainFunction [.plainFunction [] .int, .plainFunction [.plainFunction [] .void] .void]
        (.plainFunction [] (.plainFunction [.bool] .string)))
      (.ofText 0 "" "func(func() int, func(func())) func() func(bool) string") :=
  (Writable.text_identifies
    (.function (by simpa using ⟨.function (by simp) fun _ => .int,
        .function (by simpa using .function (by simp) (absurd rfl)) (absurd rfl)⟩)
      fun _ => .function (by simp) fun _ =>
        .function (by simpa using .bool) fun _ => .string)).1 _ rfl

end Ty

end Formula
