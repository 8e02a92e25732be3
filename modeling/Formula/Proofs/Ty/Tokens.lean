import Formula.Proofs.Registry.Entry
import Formula.Ty.Resolve

/-!
# The tokens of a type that is shown

A type that a program can name is shown as it is written. Its text is one line of tokens: the name
of a scalar type, or `func` with the parameters in parentheses and the result, if there is one.

## Main definitions

* `Ty.Writable`: the types that a program can name
* `TokenKind.startsType`: whether a type can begin with a token
* `Ty.kinds`: the tokens of a type

## Main results

* `TypeExpr.writable_of_resolve`: no written type stands for another type
* `Ty.Writable.spelled`: the text of a type is read as its tokens
* `Ty.Writable.scan`: the tokens of a file that holds nothing else
-/

namespace Formula

open Text

/-! ## Types that can be named -/

/-- **The types that a program can name**: those of scalars, and of functions that take just so many
arguments of such types and have a result of such a type or none. -/
inductive Ty.Writable : Ty → Prop where
  | int : Writable .int
  | float : Writable .float
  | bool : Writable .bool
  | string : Writable .string
  | function {params : List Ty} {result : Ty} (params_writable : ∀ p ∈ params, Writable p)
      (result_writable : result ≠ .void → Writable result) :
      Writable (.function params none result)

mutual

/-- No written type stands for another type. -/
theorem TypeExpr.writable_of_resolve (e : TypeExpr) {t : Ty} (h : e.resolve = .ok t) :
    t.Writable := by
  cases e with
  | named name span =>
    simp only [resolve, Ty.named?] at h
    split at h
    · rename_i heq
      split at heq <;> cases heq <;> cases h
      exacts [.int, .int, .float, .float, .bool, .string]
    · cases h
  | function params result span =>
    obtain ⟨ps, r, hparams, hresult, rfl⟩ := resolve_function_eq_ok h
    refine .function (writable_of_resolveAll params hparams) fun hvoid => ?_
    cases result with
    | none =>
      cases hresult
      exact absurd rfl hvoid
    | some e => exact writable_of_resolve e hresult

@[inherit_doc TypeExpr.writable_of_resolve]
theorem TypeExpr.writable_of_resolveAll (es : List TypeExpr) {ts : List Ty}
    (h : resolveAll es = .ok ts) : ∀ t ∈ ts, t.Writable := by
  cases es with
  | nil =>
    cases h
    simp
  | cons e es =>
    obtain ⟨u, us, hfirst, hrest, rfl⟩ := resolveAll_cons_eq_ok h
    exact List.forall_mem_cons.mpr ⟨writable_of_resolve e hfirst, writable_of_resolveAll es hrest⟩

end

/-! ## Texts and tokens -/

/-- A character that is read by itself, before a text. -/
theorem Spelled.cons {c : Char} {cs rest : List Char} {k m : List TokenKind}
    (h : Spelled [c] (cs ++ rest) k) (h' : Spelled cs rest m) : Spelled (c :: cs) rest (k ++ m) :=
  h.append h'

/-- Whether a type can begin with the token. -/
def TokenKind.startsType : TokenKind → Bool
  | .identifier _ | .keyword .funcK => true
  | _ => false

namespace Ty

theorem texts_eq_map (ts : List Ty) : texts ts = ts.map text := by
  induction ts with
  | nil => rfl
  | cons t ts ih => rw [texts, ih, List.map_cons]

mutual

/-- The tokens of a type. -/
def kinds : Ty → List TokenKind
  | int => [.identifier "int"]
  | float => [.identifier "float64"]
  | bool => [.identifier "bool"]
  | string => [.identifier "string"]
  | function ps _ r =>
    .keyword .funcK :: .symbol .lparen ::
      ([.symbol .comma].intercalate (kindsAll ps) ++ .symbol .rparen :: r.kinds)
  | _ => []

/-- The tokens of several types. -/
def kindsAll : List Ty → List (List TokenKind)
  | [] => []
  | t :: ts => t.kinds :: kindsAll ts

end

theorem kindsAll_eq_map (ts : List Ty) : kindsAll ts = ts.map kinds := by
  induction ts with
  | nil => rfl
  | cons t ts ih => rw [kindsAll, ih, List.map_cons]

/-- The tokens of a list of types between the parentheses. -/
def listKinds (ts : List Ty) : List TokenKind :=
  [.symbol .comma].intercalate (ts.map kinds)

theorem listKinds_cons_cons (t u : Ty) (ts : List Ty) :
    listKinds (t :: u :: ts) = t.kinds ++ .symbol .comma :: listKinds (u :: ts) := by
  simp only [listKinds, List.map_cons, List.intercalate_cons_cons, List.append_assoc,
    List.singleton_append]

theorem kinds_function (ps : List Ty) (r : Ty) : (function ps none r).kinds =
    .keyword .funcK :: .symbol .lparen :: (listKinds ps ++ .symbol .rparen :: r.kinds) := by
  rw [kinds, kindsAll_eq_map]
  rfl

/-- What is shown of a result, behind the parameters. -/
theorem text_function (ps : List Ty) (r : Ty) : (function ps none r).text =
    "func(" ++ ", ".intercalate (ps.map text) ++ ")" ++
      (if r = .void then "" else " " ++ r.text) := by
  by_cases hvoid : r = .void
  · subst hvoid
    simp only [text, texts_eq_map, List.append_nil, if_true]
  · simp only [text, texts_eq_map, List.append_nil, if_neg hvoid]

/-- A type is told by its first token. -/
theorem Writable.first {t : Ty} (h : t.Writable) :
    ∃ k ks, t.kinds = k :: ks ∧ k.startsType = true := by
  cases h with
  | int | float | bool | string => exact ⟨_, _, rfl, rfl⟩
  | function => exact ⟨_, _, kinds_function .., rfl⟩

/-! ## Scanning a type -/

theorem spelled_comma (rest : List Char) : Spelled [','] rest [.symbol .comma] :=
  spelled_symbol rfl (fun d => by unfold symbolOfTwo?; split <;> simp_all) (by decide) (by decide)
    rest

/-- A text is read as tokens wherever it stands alone. -/
def SpelledAlone (cs : List Char) (kinds : List TokenKind) : Prop :=
  ∀ rest : List Char, (∀ c ∈ rest.head?, continuesName c = false) → Spelled cs rest kinds

/-- A name is one token. -/
theorem spelledAlone_name {name : String} (h : IsName name) :
    SpelledAlone name.toList [.identifier name] := by
  intro rest hrest
  have hword := lexes_word h.word hrest
  rw [String.ofList_toList, h.wordKind_eq] at hword
  exact .token hword

/-- Types in a list are read one after the other. -/
theorem spelled_list {ts : List Ty} (h : ∀ t ∈ ts, SpelledAlone t.text.toList t.kinds)
    (rest : List Char) :
    Spelled (", ".intercalate (ts.map text)).toList (')' :: rest) (listKinds ts) := by
  induction ts with
  | nil => exact ⟨[], .nil _, by simp, rfl⟩
  | cons t ts ih =>
    obtain ⟨ht, hts⟩ := List.forall_mem_cons.mp h
    cases ts with
    | nil =>
      simp only [List.map_cons, List.map_nil, String.intercalate_singleton, listKinds,
        List.intercalate_singleton]
      exact ht _ (by rintro c ⟨⟩; decide)
    | cons u ts =>
      rw [List.map_cons, List.map_cons, String.intercalate_cons_cons, listKinds_cons_cons,
        String.toList_append, String.toList_append, List.append_assoc]
      refine (ht _ (by rintro c ⟨⟩; decide)).append ?_
      exact (spelled_comma _).cons ((Spelled.space _).cons (ih hts))

/-- **The text of a type is read as its tokens.** -/
theorem Writable.spelled {t : Ty} (h : t.Writable) : SpelledAlone t.text.toList t.kinds := by
  induction h with
  | int | float | bool | string => exact spelledAlone_name ⟨by decide, by decide⟩
  | @function ps r _ _ hparams hresult =>
    intro rest hrest
    have hopen : ∀ rest, Spelled ("func".toList ++ ['(']) rest
        [.keyword .funcK, .symbol .lparen] := fun rest =>
      (spelled_word (by decide) (by decide) rest).append (spelled_paren rest).1
    obtain ⟨shown, hshown⟩ : ∃ s, s = if r = .void then "" else " " ++ r.text := ⟨_, rfl⟩
    have hclose : Spelled (')' :: shown.toList) rest (.symbol .rparen :: r.kinds) := by
      refine (spelled_paren _).2.cons ?_
      by_cases hvoid : r = .void
      · rw [hshown, if_pos hvoid, hvoid]
        exact ⟨[], .nil _, by simp, rfl⟩
      · rw [hshown, if_neg hvoid, String.toList_append]
        exact (Spelled.space _).cons (hresult hvoid rest hrest)
    have htext : (Ty.function ps none r).text.toList =
        "func".toList ++ ['('] ++ ((", ".intercalate (ps.map text)).toList ++ ')' :: shown.toList) := by
      rw [text_function, ← hshown]
      simp
    rw [htext, kinds_function]
    exact (hopen _).append ((spelled_list hparams _).append hclose)

/-! ## Brackets and the end of the line -/

theorem groupsBehind_append (ks ms : List TokenKind) (groups : List Symbol) :
    Outline.groupsBehind (ks ++ ms) groups =
      Outline.groupsBehind ms (Outline.groupsBehind ks groups) :=
  List.foldl_append

theorem groupsBehind_list {ts : List Ty}
    (h : ∀ t ∈ ts, ∀ groups, Outline.groupsBehind t.kinds groups = groups)
    (groups : List Symbol) : Outline.groupsBehind (listKinds ts) groups = groups := by
  induction ts with
  | nil => rfl
  | cons t ts ih =>
    obtain ⟨ht, hts⟩ := List.forall_mem_cons.mp h
    cases ts with
    | nil => simpa [listKinds] using ht groups
    | cons u ts =>
      rw [listKinds_cons_cons, groupsBehind_append, ht]
      exact ih hts

/-- All brackets that a type opens are closed in it. -/
theorem Writable.groupsBehind_kinds {t : Ty} (h : t.Writable) (groups : List Symbol) :
    Outline.groupsBehind t.kinds groups = groups := by
  induction h generalizing groups with
  | int | float | bool | string => rfl
  | @function ps r _ _ hparams hresult =>
    have hlist := groupsBehind_list hparams (.lparen :: groups)
    have hopen : Outline.groupsBehind (Ty.function ps none r).kinds groups =
        Outline.groupsBehind (.symbol .rparen :: r.kinds)
          (Outline.groupsBehind (listKinds ps) (.lparen :: groups)) := by
      rw [kinds_function, ← groupsBehind_append]
      rfl
    have hclose : Outline.groupsBehind (.symbol .rparen :: r.kinds) (.lparen :: groups) =
        Outline.groupsBehind r.kinds groups := rfl
    rw [hopen, hlist, hclose]
    by_cases hvoid : r = .void
    · rw [hvoid]
      rfl
    · exact hresult hvoid groups

/-- A line break behind a type ends the statement. -/
theorem Writable.endsStatement {t : Ty} (h : t.Writable) :
    ∃ ks k, t.kinds = ks ++ [k] ∧ k.endsStatement = true := by
  induction h with
  | int | float | bool | string => exact ⟨[], _, rfl, rfl⟩
  | @function ps r _ _ _ hresult =>
    rw [kinds_function]
    by_cases hvoid : r = .void
    · subst hvoid
      exact ⟨.keyword .funcK :: .symbol .lparen :: listKinds ps, .symbol .rparen, by simp [kinds],
        rfl⟩
    · obtain ⟨ks, k, hks, hends⟩ := hresult hvoid
      exact ⟨.keyword .funcK :: .symbol .lparen :: (listKinds ps ++ .symbol .rparen :: ks), k,
        by simp [hks], hends⟩

/-- **The tokens of a file that holds nothing but a type.** -/
theorem Writable.scan {t : Ty} (h : t.Writable) {file : SourceFile} (hfile : file.text = t.text) :
    ∃ tokens, Token.scan file = .ok tokens ∧
      tokens.map Token.kind = t.kinds ++ [.newline, .eof] := by
  obtain ⟨ls, hls, hbreak, hkinds⟩ := h.spelled [] (by simp)
  rw [← hfile] at hls
  obtain ⟨tokens, hscan, htokens⟩ := Token.scan_of_lexes hls
  obtain ⟨ks, k, hks, hends⟩ := h.endsStatement
  have hread : Outline.read {} ls = ⟨k :: ks.reverse, []⟩ := by
    rw [Outline.read_of_notMem hbreak, hkinds, h.groupsBehind_kinds, hks]
    simp
  have hbreaks : (⟨k :: ks.reverse, []⟩ : Outline).endsStatement = true := by
    simp [Outline.endsStatement, hends]
  refine ⟨tokens, hscan, ?_⟩
  rw [htokens, hread, Outline.add, if_pos hbreaks, hks]
  simp

end Ty

end Formula
