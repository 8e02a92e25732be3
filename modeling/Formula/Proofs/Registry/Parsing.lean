import Formula.Program.Grammar
import Formula.Proofs.Registry.Lines

/-!
# What the lines of declarations declare

The tokens of the line of an import are parsed as an import of that package, and those of the line
of an input as a variable of that name, type and value. What stands below is parsed after that.

## Main definitions

* `IsLiteral e v`: the expression `e` is the value `v` as it is written
* `Declaration.Imports`, `Declaration.Declares`: what a declaration declares

## Main results

* `expression_of_spells`: the tokens of a written value are parsed as that value
* `declarations_of_header`: the declarations of a text start with those of its lines
-/

namespace Formula

/-! ## Tokens -/

/-- The kinds of the tokens from a cursor on. -/
def Cursor.kinds (c : Cursor) : List TokenKind :=
  c.current.kind :: c.rest.map Token.kind

/-- The tokens from a cursor on. -/
def Cursor.tokens (c : Cursor) : List Token :=
  c.current :: c.rest

/-- A reader has come from one cursor to another one, before tokens of the given kinds. -/
structure Cursor.Comes (c c' : Cursor) (kinds : List TokenKind) : Prop where
  kinds_eq : c'.kinds = kinds
  suffix : c'.tokens <:+ c.tokens

/-- The cursor on a first token of a known kind. -/
theorem Cursor.exists_of_kinds {c : Cursor} {k : TokenKind} {ks : List TokenKind}
    (h : c.kinds = k :: ks) :
    ∃ before span rest, c = ⟨before, ⟨k, span⟩, rest⟩ ∧ rest.map Token.kind = ks := by
  obtain ⟨before, ⟨_, span⟩, rest⟩ := c
  obtain ⟨rfl, hks⟩ := List.cons_eq_cons.mp h
  exact ⟨before, span, rest, rfl, hks⟩

theorem exists_tokens {ts : List Token} {k : TokenKind} {ks : List TokenKind}
    (h : ts.map Token.kind = k :: ks) :
    ∃ span ts', ts = ⟨k, span⟩ :: ts' ∧ ts'.map Token.kind = ks := by
  obtain ⟨⟨_, span⟩, ts', rfl, rfl, hks⟩ := List.map_eq_cons_iff.mp h
  exact ⟨span, ts', rfl, hks⟩

namespace Parse

open Level

/-! ## Written values -/

/-- **The expression of a written value.** -/
inductive IsLiteral : Expr → Scalar → Prop where
  | constant (v : Scalar) (s : Span) : IsLiteral (.literal v s) v
  | negatedInt (n : Int64) (s t : Span) :
      IsLiteral (.unary .neg (.literal (.int n) s) t) (.int (-n))
  | negatedFloat (x : Float) (s t : Span) :
      IsLiteral (.unary .neg (.literal (.float x) s) t) (.float (-x))
  | least (s t u w : Span) :
      IsLiteral (.binary .sub (.unary .neg (.literal (.int Int64.maxValue) s) t)
        (.literal (.int 1) u) w) (.int Int64.minValue)

/-- **The tokens of a written value are parsed as that value**, up to the end of the line. -/
theorem expression_of_spells {kinds ks : List TokenKind} {v : Scalar} (h : Spells kinds v)
    {c : Cursor} (hc : c.kinds = kinds ++ .newline :: ks) (n : Nat) :
    ∃ e c', expressionUnder (some (withRemaining (n + 9))) c = .ok (e, c') ∧ IsLiteral e v ∧
      c.Comes c' (.newline :: ks) := by
  -- the ways to write a value have at most six tokens, which the parser is run on
  cases h with
  | constant v =>
    obtain ⟨b, s, rest, rfl, h₁⟩ := Cursor.exists_of_kinds hc
    obtain ⟨s₁, ts, rfl, rfl⟩ := exists_tokens h₁
    exact ⟨_, _, rfl, .constant v s, rfl, [_], rfl⟩
  | negatedInt m =>
    obtain ⟨b, s, rest, rfl, h₁⟩ := Cursor.exists_of_kinds hc
    obtain ⟨s₁, ts₁, rfl, h₂⟩ := exists_tokens h₁
    obtain ⟨s₂, ts₂, rfl, rfl⟩ := exists_tokens h₂
    exact ⟨_, _, rfl, .negatedInt m _ _, rfl, [_, _], rfl⟩
  | negatedFloat x =>
    obtain ⟨b, s, rest, rfl, h₁⟩ := Cursor.exists_of_kinds hc
    obtain ⟨s₁, ts₁, rfl, h₂⟩ := exists_tokens h₁
    obtain ⟨s₂, ts₂, rfl, rfl⟩ := exists_tokens h₂
    exact ⟨_, _, rfl, .negatedFloat x _ _, rfl, [_, _], rfl⟩
  | least =>
    obtain ⟨b, s, rest, rfl, h₁⟩ := Cursor.exists_of_kinds hc
    obtain ⟨s₁, ts₁, rfl, h₂⟩ := exists_tokens h₁
    obtain ⟨s₂, ts₂, rfl, h₃⟩ := exists_tokens h₂
    obtain ⟨s₃, ts₃, rfl, h₄⟩ := exists_tokens h₃
    obtain ⟨s₄, ts₄, rfl, h₅⟩ := exists_tokens h₄
    obtain ⟨s₅, ts₅, rfl, h₆⟩ := exists_tokens h₅
    obtain ⟨s₆, ts₆, rfl, rfl⟩ := exists_tokens h₆
    exact ⟨_, _, rfl, .least _ _ _ _, rfl, [_, _, _, _, _, _], rfl⟩

/-! ## Lines of declarations -/

/-- The declaration of an import. -/
def Declaration.Imports (path : String) : Declaration → Prop
  | .imports [i] => i.path = path
  | _ => False

end Parse

/-- The declaration of an input: its name, its type and its value. -/
structure VarDecl.Declares (d : VarDecl) (v : Variable) : Prop where
  name : d.name = v.name
  type : ∃ s, d.type = some (.named v.type.name s)
  value : d.value = none ∧ v.initialValue.literal? = none ∨
    ∃ e, d.value = some e ∧ Parse.IsLiteral e v.initialValue ∧ v.initialValue.literal?.isSome

namespace Parse

open Level

/-- The declaration of an input. -/
def Declaration.Declares (v : Variable) : Declaration → Prop
  | .item (.var d) => d.Declares v
  | _ => False

theorem declaration_of_importKinds {path : String} {ks : List TokenKind} {c : Cursor}
    (hc : c.kinds = importKinds path ++ ks) :
    ∃ d c', declaration c = .ok (d, c') ∧ d.Imports path ∧ c.Comes c' (.newline :: ks) := by
  obtain ⟨b, s, rest, rfl, h₁⟩ := Cursor.exists_of_kinds hc
  obtain ⟨s₁, ts₁, rfl, h₂⟩ := exists_tokens h₁
  obtain ⟨s₂, ts₂, rfl, rfl⟩ := exists_tokens h₂
  exact ⟨_, _, rfl, rfl, rfl, [_, _], rfl⟩

theorem declaration_of_lineKinds {v : Variable} {kinds ks : List TokenKind}
    (hv : v.Written kinds) {c : Cursor} (hc : c.kinds = v.lineKinds kinds ++ ks) :
    ∃ d c', declaration c = .ok (d, c') ∧ d.Declares v ∧ c.Comes c' (.newline :: ks) := by
  obtain ⟨b, s, rest, rfl, h₁⟩ := Cursor.exists_of_kinds hc
  obtain ⟨s₁, ts₁, rfl, h₂⟩ := exists_tokens h₁
  obtain ⟨s₂, ts₂, rfl, h₃⟩ := exists_tokens h₂
  cases hv with
  | unset hnone =>
    obtain ⟨s₃, ts₃, rfl, rfl⟩ := exists_tokens h₃
    exact ⟨_, _, rfl, ⟨rfl, ⟨_, rfl⟩, .inl ⟨rfl, hnone⟩⟩, rfl, [_, _, _], rfl⟩
  | @set kinds hsome hspells =>
    obtain ⟨s₃, ts₃, rfl, h₄⟩ := exists_tokens h₃
    have hvalue : ts₃.map Token.kind = kinds ++ .newline :: ks := by
      rw [h₄]
      exact List.append_assoc ..
    obtain ⟨k₄, ks', hks⟩ : ∃ k₄ ks', kinds ++ .newline :: ks = k₄ :: ks' := by
      cases kinds
      · exact ⟨_, _, rfl⟩
      · exact ⟨_, _, rfl⟩
    obtain ⟨s₄, ts₄, rfl, h₅⟩ := exists_tokens (hvalue.trans hks)
    obtain ⟨e, c', hread, hliteral, hkinds, hsuffix⟩ := expression_of_spells hspells
      (c := ⟨s₃, ⟨k₄, s₄⟩, ts₄⟩) hvalue (maxNesting - 10)
    -- what is read before the value does not depend on it
    have hdecl : declaration ⟨b, ⟨.keyword .varK, s⟩, ⟨.identifier v.name, s₁⟩ ::
        ⟨.identifier v.type.name, s₂⟩ :: ⟨.symbol .equals, s₃⟩ :: ⟨k₄, s₄⟩ :: ts₄⟩ =
        (((expressionUnder (some (withRemaining (maxNesting - 10 + 9))) ⟨s₃, ⟨k₄, s₄⟩, ts₄⟩ >>=
          fun r => pure (some r.1, r.2)) >>= fun r => pure ((⟨v.name, some (.named v.type.name s₂),
            r.1, s.join r.2.before⟩ : VarDecl), r.2)) >>=
              fun r => pure (.item (.var r.1), r.2)) := rfl
    rw [hread] at hdecl
    exact ⟨_, _, hdecl, ⟨rfl, ⟨_, rfl⟩, .inr ⟨e, rfl, hliteral, hsome⟩⟩, hkinds,
      hsuffix.trans ⟨[_, _, _, _], rfl⟩⟩

theorem collect_of_none {α : Type} {step : Parse (Option (α × Bool))} {c c' : Cursor}
    (h : step c = .ok (none, c')) : collect step c = .ok ([], c') := by
  rw [collect, h]

theorem collect_of_some {α : Type} {step : Parse (Option (α × Bool))} {c c' : Cursor} {a : α}
    (h : step c = .ok (some (a, true), c')) (hlt : c'.left < c.left) :
    collect step c = (collect step c').map fun r => (a :: r.1, r.2) := by
  rw [collect, h]
  simp only [hlt, and_self, dite_true]
  cases collect step c' <;> rfl

/-- Reads one declaration, behind separators, unless the text is at its end. -/
def declarationRound : Parse (Option (Declaration × Bool)) := do
  skipSeparators
  if ← peek (·.isEof) then return none
  let d ← declaration
  terminator .declarationEnd
  return some (d, true)

theorem declarations_eq : declarations = collect declarationRound := rfl

theorem declarationRound_eq {c c' : Cursor} {d : Declaration}
    (hfirst : c.isSeparator = false ∧ c.isEof = false) (hd : declaration c = .ok (d, c'))
    (hkind : c'.kind = .newline) : declarationRound c = .ok (some (d, true), c'.advance) := by
  have hskip : skipSeparators c = .ok ((), c) := by
    obtain ⟨before, current, rest⟩ := c
    cases rest with
    | nil => rfl
    | cons t ts =>
      change Except.ok ((), if _ then _ else _) = _
      rw [hfirst.1]
      rfl
  have hseparator : c'.isSeparator = true := by simp [Cursor.isSeparator, hkind]
  have hterminator : terminator .declarationEnd c' = .ok ((), c'.advance) := by
    rw [terminator, Cursor.isTerminator, hseparator]
    simp [Cursor.isEof, hkind]
  unfold declarationRound
  simp only [bind, StateT.bind, hskip, peek, Except.bind, hfirst.2, hd, hterminator,
    Bool.false_eq_true, if_false]
  rfl

/-- A declaration at the start of a text, and those on the lines below it. -/
theorem declarations_cons {c c' : Cursor} {d : Declaration} {ks : List TokenKind} (hks : ks ≠ [])
    (hfirst : c.isSeparator = false ∧ c.isEof = false) (hd : declaration c = .ok (d, c'))
    (hc' : c.Comes c' (.newline :: ks)) (hlen : ks.length < c.kinds.length) :
    c.Comes c'.advance ks ∧
      declarations c = (declarations c'.advance).map fun r => (d :: r.1, r.2) := by
  obtain ⟨k, ks, rfl⟩ := List.exists_cons_of_ne_nil hks
  obtain ⟨b, s, rest, rfl, h₁⟩ := Cursor.exists_of_kinds hc'.kinds_eq
  obtain ⟨s₁, ts, rfl, hts⟩ := exists_tokens h₁
  have hkinds : (Cursor.advance ⟨b, ⟨.newline, s⟩, ⟨k, s₁⟩ :: ts⟩).kinds = k :: ks := by
    rw [← hts]
    rfl
  refine ⟨⟨hkinds, .trans ⟨[_], rfl⟩ hc'.suffix⟩, ?_⟩
  -- the round has read tokens, so that the loop goes on
  have hleft : (Cursor.advance ⟨b, ⟨.newline, s⟩, ⟨k, s₁⟩ :: ts⟩).left < c.left := by
    have h := congrArg List.length hkinds
    simp only [Cursor.kinds, List.length_cons, List.length_map] at h hlen
    simp only [Cursor.left]
    omega
  rw [declarations_eq, collect, declarationRound_eq hfirst hd rfl]
  simp only [hleft, and_self, dite_true]
  cases collect declarationRound (Cursor.advance ⟨b, ⟨.newline, s⟩, ⟨k, s₁⟩ :: ts⟩) <;> rfl

/-- The declarations of lines, and those below them; `line` gives the tokens of a line, and
`D` says what they declare. -/
theorem declarations_flatMap {α : Type} {line : α → List TokenKind}
    {D : α → Declaration → Prop} {l : List α} {ks : List TokenKind} (hks : ks ≠ [])
    (hline : ∀ a ∈ l, ∀ (c : Cursor) (ks : List TokenKind), c.kinds = line a ++ ks →
      (line a ≠ [] ∧ c.isSeparator = false ∧ c.isEof = false) ∧ ∃ d c',
        declaration c = .ok (d, c') ∧ D a d ∧ c.Comes c' (.newline :: ks))
    {c : Cursor} (hc : c.kinds = l.flatMap line ++ ks) :
    ∃ ds c', List.Forall₂ D l ds ∧ c.Comes c' ks ∧
      declarations c = (declarations c').map fun r => (ds ++ r.1, r.2) := by
  induction l generalizing c with
  | nil =>
    refine ⟨[], c, .nil, ⟨hc, List.suffix_refl _⟩, ?_⟩
    cases declarations c <;> rfl
  | cons a l ih =>
    rw [List.flatMap_cons, List.append_assoc] at hc
    obtain ⟨⟨hne, hfirst⟩, d, c₁, hd, hdeclares, hc₁⟩ := hline a List.mem_cons_self c _ hc
    -- a line has tokens of its own, so that fewer are left below it
    have hlen : (l.flatMap line ++ ks).length < c.kinds.length := by
      have := List.length_pos_iff.mpr hne
      simp only [hc, List.length_append] at this ⊢
      omega
    obtain ⟨hadvance, hcons⟩ := declarations_cons (by simp [hks]) hfirst hd hc₁ hlen
    obtain ⟨ds, c', hds, hc', heq⟩ := ih (fun b hb => hline b (List.mem_cons_of_mem a hb))
      hadvance.kinds_eq
    refine ⟨d :: ds, c', .cons hdeclares hds, ⟨hc'.kinds_eq, hc'.suffix.trans hadvance.suffix⟩, ?_⟩
    rw [hcons, heq]
    cases declarations c' <;> rfl

/-- **The declarations of a text start with those of its lines**: the imports and the inputs. -/
theorem declarations_of_header {imports : List String} {vars : List Variable}
    {kinds : Variable → List TokenKind} (hvars : ∀ v ∈ vars, v.Written (kinds v))
    {ks : List TokenKind} (hks : ks ≠ []) {c : Cursor}
    (hc : c.kinds = (imports.flatMap importKinds ++ vars.flatMap fun v => v.lineKinds (kinds v)) ++ ks) :
    ∃ is ds c', List.Forall₂ Declaration.Imports imports is ∧
      List.Forall₂ Declaration.Declares vars ds ∧ c.Comes c' ks ∧
      declarations c = (declarations c').map fun r => (is ++ ds ++ r.1, r.2) := by
  rw [List.append_assoc] at hc
  -- lines start with their keyword
  have hfirst : ∀ {k : Keyword} {ks : List TokenKind} {c : Cursor}, c.kinds = .keyword k :: ks →
      c.isSeparator = false ∧ c.isEof = false := by
    intro k ks c hc
    obtain ⟨b, s, rest, rfl, -⟩ := Cursor.exists_of_kinds hc
    exact ⟨rfl, rfl⟩
  obtain ⟨is, c₁, his, hc₁, heq⟩ := declarations_flatMap (D := Declaration.Imports)
    (by simp [hks]) (fun path _ c ks hc => ⟨⟨by simp [importKinds], hfirst hc⟩,
      declaration_of_importKinds hc⟩) hc
  obtain ⟨ds, c₂, hds, hc₂, heq₂⟩ := declarations_flatMap (D := Declaration.Declares) hks
    (fun v hv c ks hc => ⟨⟨by simp [Variable.lineKinds], hfirst hc⟩,
      declaration_of_lineKinds (hvars v hv) hc⟩) hc₁.kinds_eq
  refine ⟨is, ds, c₂, his, hds, ⟨hc₂.kinds_eq, hc₂.suffix.trans hc₁.suffix⟩, ?_⟩
  rw [heq, heq₂]
  cases declarations c₂ <;> simp [Except.map]

/-! ## The program -/

/-- The imports of a program whose text starts with the lines of imports. -/
theorem programOf_imports {imports : List String} {is : List Declaration}
    (h : List.Forall₂ Declaration.Imports imports is) (more : List Declaration) :
    ∃ decls : List ImportDecl, decls.map ImportDecl.path = imports ∧
      programOf (is ++ more) = ⟨decls ++ (programOf more).imports, (programOf more).items⟩ := by
  induction h with
  | nil => exact ⟨[], rfl, rfl⟩
  | @cons path d imports is hd _ ih =>
    obtain ⟨decls, hpaths, hprogram⟩ := ih
    obtain ⟨i, rfl, rfl⟩ : ∃ i : ImportDecl, d = .imports [i] ∧ i.path = path := by
      unfold Declaration.Imports at hd
      split at hd
      · exact ⟨_, rfl, hd⟩
      · exact hd.elim
    refine ⟨i :: decls, by rw [List.map_cons, hpaths], ?_⟩
    have hcons : programOf (.imports [i] :: (is ++ more)) =
        ⟨i :: (programOf (is ++ more)).imports, (programOf (is ++ more)).items⟩ := rfl
    rw [List.cons_append, hcons, hprogram]
    rfl

/-- The variables of a program whose text goes on with the lines of inputs. -/
theorem programOf_vars {vars : List Variable} {ds : List Declaration}
    (h : List.Forall₂ Declaration.Declares vars ds) (more : List Declaration) :
    ∃ vs : List VarDecl, List.Forall₂ (fun v d => VarDecl.Declares d v) vars vs ∧
      programOf (ds ++ more) =
        ⟨(programOf more).imports, vs.map Item.var ++ (programOf more).items⟩ := by
  induction h with
  | nil => exact ⟨[], .nil, rfl⟩
  | @cons v d vars ds hd _ ih =>
    obtain ⟨vs, hvs, hprogram⟩ := ih
    obtain ⟨w, rfl, hw⟩ : ∃ w, d = .item (.var w) ∧ w.Declares v := by
      unfold Declaration.Declares at hd
      split at hd
      · exact ⟨_, rfl, hd⟩
      · exact hd.elim
    refine ⟨w :: vs, .cons hw hvs, ?_⟩
    have hcons : programOf (.item (.var w) :: (ds ++ more)) =
        ⟨(programOf (ds ++ more)).imports, .var w :: (programOf (ds ++ more)).items⟩ := rfl
    rw [List.cons_append, hcons, hprogram]
    rfl

end Parse

end Formula
