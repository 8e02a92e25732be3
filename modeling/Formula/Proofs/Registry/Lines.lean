import Formula.Proofs.Token.Literals

/-!
# The lines that declarations are written in

The comment, the imports and the inputs are written one on a line. Which tokens such lines hold does
not depend on what is written below them.

## Main definitions

* `Lines cs kinds`: the characters `cs` are lines that hold the tokens `kinds`
* `importKinds`, `Variable.Written`: the tokens of an import and of an input
* `Registry.header`, `Registry.piece`: what is written above the helper functions, and the rest

## Main results

* `Lines.statement`, `Lines.append`: lines of one statement, and lines below one another
* `Lines.scan`: the tokens of a file of whole lines
* `Registry.exists_lines_header`: the tokens above the helper functions
-/

namespace Formula

open Text

/-! ## Whole lines -/

namespace Outline

/-- Between two statements: no bracket is open, and a line break ends nothing. -/
structure Fresh (o : Outline) : Prop where
  groups : o.groups = []
  ends : o.endsStatement = false

/-- The brackets that are open after tokens. -/
def groupsBehind (kinds : List TokenKind) (groups : List Symbol) : List Symbol :=
  kinds.foldl Scanned.groupsAfter groups

theorem read_of_notMem {ls : List Lexeme} (hls : .lineBreak ∉ ls) (o : Outline) :
    o.read ls = ⟨(ls.filterMap Lexeme.kind?).reverse ++ o.kinds,
      groupsBehind (ls.filterMap Lexeme.kind?) o.groups⟩ := by
  induction ls generalizing o with
  | nil => rfl
  | cons l ls ih =>
    have hls' : .lineBreak ∉ ls := fun h => hls (List.mem_cons_of_mem l h)
    have hread : o.read (l :: ls) = (o.add l).read ls := rfl
    cases l with
    | lineBreak => exact absurd List.mem_cons_self hls
    | blank => rw [hread, ih hls']; rfl
    | token kind =>
      rw [hread, ih hls']
      simp [add, Lexeme.kind?, groupsBehind]

end Outline

/-- **Whole lines.** Whatever is written below them, the characters `cs` are read as lines that hold
the tokens `kinds`. -/
structure Lines (cs : List Char) (kinds : List TokenKind) : Prop where
  whole : ∀ c ∈ cs.getLast?, c = '\n'
  read : ∀ rest, ∃ ls, Lexes cs rest ls ∧ ∀ o : Outline, o.Fresh →
    (o.read ls).Fresh ∧ (o.read ls).kinds = kinds.reverse ++ o.kinds

namespace Lines

variable {cs ds : List Char} {k m : List TokenKind}

theorem nil : Lines [] [] :=
  ⟨nofun, fun rest => ⟨[], .nil rest, fun _ ho => ⟨ho, rfl⟩⟩⟩

/-- What ends at the end of a line. -/
theorem getLast?_line (cs : List Char) : ∀ c ∈ (cs ++ ['\n']).getLast?, c = '\n' := by
  simp

theorem append (h : Lines cs k) (h' : Lines ds m) : Lines (cs ++ ds) (k ++ m) := by
  refine ⟨fun c hc => ?_, fun rest => ?_⟩
  · rw [List.getLast?_append] at hc
    rcases hds : ds.getLast? with _ | d
    · exact h.whole c (by simpa [hds] using hc)
    · exact h'.whole c (by simpa [hds] using hc)
  obtain ⟨ls, hls, hread⟩ := h.read (ds ++ rest)
  obtain ⟨ls', hls', hread'⟩ := h'.read rest
  refine ⟨ls ++ ls', hls.append hls', fun o ho => ?_⟩
  obtain ⟨hfresh, hkinds⟩ := hread o ho
  obtain ⟨hfresh', hkinds'⟩ := hread' _ hfresh
  rw [Outline.read_append]
  exact ⟨hfresh', by rw [hkinds', hkinds, List.reverse_append, List.append_assoc]⟩

/-- Lines that are written one for each member of a list. -/
theorem flatMap {α : Type} {text : α → List Char} {kinds : α → List TokenKind} {l : List α}
    (h : ∀ a ∈ l, Lines (text a) (kinds a)) : Lines (l.flatMap text) (l.flatMap kinds) := by
  induction l with
  | nil => exact .nil
  | cons a l ih =>
    rw [List.flatMap_cons, List.flatMap_cons]
    exact (h a List.mem_cons_self).append (ih fun b hb => h b (List.mem_cons_of_mem a hb))

/-- A line with a statement, which its last token ends. -/
theorem statement {last : TokenKind} (h : ∀ rest, Spelled cs ('\n' :: rest) (k ++ [last]))
    (hgroups : Outline.groupsBehind (k ++ [last]) [] = []) (hlast : last.endsStatement = true) :
    Lines (cs ++ ['\n']) (k ++ [last, .newline]) := by
  refine ⟨getLast?_line cs, fun rest => ?_⟩
  obtain ⟨ls, hls, hbreak, hkinds⟩ := h rest
  refine ⟨ls ++ [.lineBreak], hls.append (lexes_lineBreak rest), fun o ho => ?_⟩
  have hline : o.read ls = ⟨last :: (k.reverse ++ o.kinds), []⟩ := by
    rw [Outline.read_of_notMem hbreak, hkinds, ho.groups, hgroups]
    simp
  have hends : (⟨last :: (k.reverse ++ o.kinds), []⟩ : Outline).endsStatement = true := by
    simp [Outline.endsStatement, hlast]
  rw [Outline.read_append, hline]
  change Outline.Fresh (Outline.add _ .lineBreak) ∧ (Outline.add _ .lineBreak).kinds = _
  rw [Outline.add, if_pos hends]
  exact ⟨⟨rfl, rfl⟩, by simp⟩

/-- A line that is skipped. -/
theorem skipped (h : ∀ rest, Lexes cs ('\n' :: rest) [.blank]) : Lines (cs ++ ['\n']) [] := by
  refine ⟨getLast?_line cs, fun rest => ?_⟩
  refine ⟨[.blank] ++ [.lineBreak], (h rest).append (lexes_lineBreak rest), fun o ho => ?_⟩
  have hread : o.read ([.blank] ++ [.lineBreak]) = o.add .lineBreak := rfl
  rw [hread, Outline.add, ho.ends]
  exact ⟨ho, rfl⟩

/-- The tokens of a file of whole lines. -/
theorem scan {file : SourceFile} (h : Lines file.text.toList k) :
    ∃ tokens, Token.scan file = .ok tokens ∧ tokens.map Token.kind = k ++ [.eof] := by
  obtain ⟨ls, hls, hread⟩ := h.read []
  obtain ⟨hfresh, hkinds⟩ := hread {} ⟨rfl, rfl⟩
  obtain ⟨tokens, hscan, htokens⟩ := Token.scan_of_lexes hls
  refine ⟨tokens, hscan, ?_⟩
  rw [htokens, Outline.add, hfresh.ends, if_neg Bool.false_ne_true, hkinds]
  simp

end Lines

/-! ## Declarations -/

/-- The comment with the name is one line, if the name is. -/
theorem lines_comment {name : String} (h : '\n' ∉ (trim name).toList) :
    Lines ("// evaluator: " ++ trim name ++ "\n").toList [] := by
  have htext : ("// evaluator: " ++ trim name ++ "\n").toList =
      '/' :: '/' :: (" evaluator: ".toList ++ (trim name).toList) ++ ['\n'] := by
    simp
  rw [htext]
  refine .skipped fun rest => lexes_comment ?_ rest
  simp [h]

/-- A word before a character that it does not go on with. -/
theorem spelled_word {s : String} (hs : isWord s.toList = true) {c : Char}
    (hc : continuesName c = false) (rest : List Char) :
    Spelled s.toList (c :: rest) [wordKind s] := by
  have hword : Lexes s.toList (c :: rest) [.token (wordKind (String.ofList s.toList))] :=
    lexes_word hs (by rintro d ⟨⟩; exact hc)
  rw [String.ofList_toList] at hword
  exact .token hword

/-- A word and the blank behind it. -/
theorem spelled_word_space {s : String} (hs : isWord s.toList = true) (rest : List Char) :
    Spelled (s.toList ++ [' ']) rest [wordKind s] :=
  .append (k := [_]) (spelled_word hs (by decide) rest) (.space rest)

/-- A name that can be declared is a word that is not reserved. -/
structure IsName (name : String) : Prop where
  word : isWord name.toList = true
  free : Keyword.ofWord? name = none

theorem IsName.wordKind_eq {name : String} (h : IsName name) : wordKind name = .identifier name := by
  unfold wordKind
  rw [h.free]

theorem isName_type (t : ScalarType) : IsName t.name := by
  cases t <;> exact ⟨by decide, by decide +kernel⟩

/-- The tokens of the line of an import. -/
def importKinds (path : String) : List TokenKind :=
  [.keyword .importK, .constant (.string path), .newline]

theorem lines_import (path : String) :
    Lines ("import " ++ quoteSource path ++ "\n").toList (importKinds path) := by
  have htext : ("import " ++ quoteSource path ++ "\n").toList =
      ("import".toList ++ [' ']) ++ (quoteSource path).toList ++ ['\n'] := by
    simp
  rw [htext]
  refine .statement (k := [_]) (fun rest => ?_) rfl rfl
  exact .append (k := [_]) (spelled_word_space (by decide) _) (.token (lexes_quoteSource path _))

/-- What is written behind the type of an input. -/
inductive Variable.Written (v : Variable) : List TokenKind → Prop where
  | unset (h : v.initialValue.literal? = none) : Written v []
  | set {kinds : List TokenKind} (h : v.initialValue.literal?.isSome)
      (spells : Spells kinds v.initialValue) : Written v (.symbol .equals :: kinds)

/-- The tokens of the line of an input, where `kinds` stand behind its type. -/
def Variable.lineKinds (v : Variable) (kinds : List TokenKind) : List TokenKind :=
  .keyword .varK :: .identifier v.name :: .identifier v.type.name :: kinds ++ [.newline]

/-- A value ends in a token that ends a statement, and leaves no bracket open. -/
theorem Spells.ends {kinds : List TokenKind} {v : Scalar} (h : Spells kinds v) :
    Outline.groupsBehind kinds [] = [] ∧
      ∃ ks last, kinds = ks ++ [last] ∧ last.endsStatement = true := by
  cases h with
  | constant v => exact ⟨rfl, [], _, rfl, rfl⟩
  | negatedInt n => exact ⟨rfl, [_], _, rfl, rfl⟩
  | negatedFloat x => exact ⟨rfl, [_], _, rfl, rfl⟩
  | least => exact ⟨rfl, [_, _, _, _, _], _, rfl, rfl⟩

/-- **The line of an input** has its name, its type and its value. -/
theorem Variable.exists_written {v : Variable} (hv : IsName v.name) :
    ∃ kinds, v.Written kinds ∧ Lines v.sourceLine.toList (v.lineKinds kinds) := by
  have hstart : ∀ rest, Spelled ("var".toList ++ [' '] ++ (v.name.toList ++ [' '])) rest
      [.keyword .varK, .identifier v.name] := fun rest =>
    .append (k := [_]) (spelled_word_space (by decide) _)
      (hv.wordKind_eq ▸ spelled_word_space hv.word rest)
  cases hliteral : v.initialValue.literal? with
  | none =>
    have htext : v.sourceLine.toList = "var".toList ++ [' '] ++ (v.name.toList ++ [' ']) ++
        v.type.name.toList ++ ['\n'] := by
      simp [sourceLine, hliteral]
    refine ⟨[], .unset hliteral, ?_⟩
    rw [htext]
    refine .statement (k := [_, _]) (fun rest => .append (hstart _) ?_) rfl rfl
    exact (isName_type v.type).wordKind_eq ▸ spelled_word (isName_type v.type).word (by decide) rest
  | some text =>
    obtain ⟨kinds, hspells, hread⟩ := exists_spells hliteral
    obtain ⟨hgroups, ks, last, rfl, hlast⟩ := hspells.ends
    have htext : v.sourceLine.toList = "var".toList ++ [' '] ++ (v.name.toList ++ [' ']) ++
        (v.type.name.toList ++ [' '] ++ (['='] ++ ([' '] ++ text.toList))) ++ ['\n'] := by
      simp [sourceLine, hliteral]
    refine ⟨_, .set (hliteral ▸ rfl) hspells, ?_⟩
    rw [htext, lineKinds]
    have hspelled : ∀ rest, Spelled ("var".toList ++ [' '] ++ (v.name.toList ++ [' ']) ++
        (v.type.name.toList ++ [' '] ++ (['='] ++ ([' '] ++ text.toList)))) ('\n' :: rest)
        ([.keyword .varK, .identifier v.name, .identifier v.type.name, .symbol .equals] ++ ks ++
          [last]) := by
      intro rest
      have htype := spelled_word_space (isName_type v.type).word
        ((['='] ++ ([' '] ++ text.toList)) ++ '\n' :: rest)
      rw [(isName_type v.type).wordKind_eq] at htype
      have hequals : Spelled ['='] ([' '] ++ text.toList ++ '\n' :: rest) [.symbol .equals] :=
        .token (lexes_symbol rfl (by rintro d ⟨⟩; rfl) (by decide) (by decide))
      exact .append (k := [_, _]) (hstart _) (.append (k := [_]) htype
        (.append (k := [_]) hequals (.append (k := []) (.space _) (hread rest))))
    have hbalanced : Outline.groupsBehind ([.keyword .varK, .identifier v.name,
        .identifier v.type.name, .symbol .equals] ++ ks ++ [last]) [] = [] := by
      rw [List.append_assoc]
      exact hgroups
    simpa using Lines.statement hspelled hbalanced hlast

namespace Registry

/-- What is written above the helper functions. -/
def header (r : Registry) : String :=
  "// evaluator: " ++ trim r.name ++ "\n" ++
    String.join (r.imports.map fun path => "import " ++ quoteSource path ++ "\n") ++
    String.join (r.vars.map Variable.sourceLine)

/-- The helper functions and the formula as they are written. -/
def piece (r : Registry) : String :=
  String.join (r.helpers.map Helper.sourceLine) ++
    ("func " ++ defaultEntryPoint ++ "() \x7b\n" ++ trimLines r.formula ++ "\n\x7d\n")

theorem assemble_eq (r : Registry) : r.assemble = r.header ++ r.piece := by
  unfold assemble header piece
  generalize "func " = func, "() \x7b\n" = opening, "\n\x7d\n" = closing
  simp only [String.append_assoc]

/-- **The lines above the helper functions** hold the imports and the inputs in order. -/
theorem exists_lines_header {r : Registry} (hname : '\n' ∉ (trim r.name).toList)
    (hvars : ∀ v ∈ r.vars, IsName v.name) :
    ∃ kinds : Variable → List TokenKind, (∀ v ∈ r.vars, v.Written (kinds v)) ∧
      Lines r.header.toList
        (r.imports.flatMap importKinds ++ r.vars.flatMap fun v => v.lineKinds (kinds v)) := by
  have hex : ∀ v : Variable, ∃ kinds, v ∈ r.vars →
      v.Written kinds ∧ Lines v.sourceLine.toList (v.lineKinds kinds) := by
    intro v
    by_cases hv : v ∈ r.vars
    · obtain ⟨kinds, h⟩ := v.exists_written (hvars v hv)
      exact ⟨kinds, fun _ => h⟩
    · exact ⟨[], fun h => absurd h hv⟩
  choose kinds hkinds using hex
  refine ⟨kinds, fun v hv => (hkinds v hv).1, ?_⟩
  have htext : r.header.toList = ("// evaluator: " ++ trim r.name ++ "\n").toList ++
      r.imports.flatMap (fun path => ("import " ++ quoteSource path ++ "\n").toList) ++
      r.vars.flatMap fun v => v.sourceLine.toList := by
    unfold header
    generalize "// evaluator: " ++ trim r.name ++ "\n" = comment
    rw [String.toList_append, String.toList_append, String.toList_join, String.toList_join,
      List.flatMap_map, List.flatMap_map]
  rw [htext]
  exact .append (.append (k := []) (lines_comment hname) (.flatMap fun path _ => lines_import path))
    (.flatMap fun v hv => (hkinds v hv).2)

end Registry

end Formula
