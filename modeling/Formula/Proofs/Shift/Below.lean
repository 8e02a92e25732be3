import Formula.Proofs.Registry.Parsing
import Formula.Proofs.Shift.Scanning

/-!
# A piece of a program below other lines

Text below whole lines is scanned and parsed as it is alone, further down. So a program whose text
starts with lines of declarations is what these declare, with the program of the rest of its text
behind it.

## Main results

* `Token.scan_below`: the tokens of a text whose first lines are known
* `Parse.declarations_before`, `Parse.declarations_shifted`: declarations do not depend on what stands
  before them
* `SourceFile.program_below`: the program of a text whose first lines are known
-/

namespace Formula

open SourceFile

/-- **The tokens of a text whose first lines are known**: those of the lines, and below them those
of the rest, further down. -/
theorem Token.scan_below {above : String} {kinds : List TokenKind}
    (h : Lines above.toList kinds) (piece : String) :
    ∃ ts : List Token, ts.map Token.kind = kinds ∧
      Token.scan (ofText 0 "" (above ++ piece)) =
        ((Token.scan (ofText 0 "" piece)).map fun us =>
          ts ++ us.map (Token.shift (shiftBelow above))).mapError
            (ScanError.shift (shiftBelow above).bytes) := by
  obtain ⟨ls, hls, hread⟩ := h.read piece.toList
  obtain ⟨hfresh, hkinds⟩ := hread {} ⟨rfl, rfl⟩
  obtain ⟨⟨tokens, groups⟩, houtline, hscan⟩ := hls.scanFrom (ofText 0 "" (above ++ piece)) {} 0
  have hoff : Scanned.outline {} = {} := rfl
  rw [hoff] at houtline
  rw [← houtline] at hfresh hkinds
  obtain rfl : groups = [] := hfresh.groups
  have hlast : ∀ t ∈ tokens.head?, t.kind.endsStatement = false := by
    have hends := hfresh.ends
    rw [Scanned.endsStatement_outline] at hends
    intro t ht
    simpa [Scanned.endsStatement, Option.mem_def.mp ht] using hends
  refine ⟨tokens.reverse, ?_, ?_⟩
  · rw [List.map_reverse]
    exact List.reverse_eq_iff.mpr (by simpa [Scanned.outline] using hkinds)
  · have hbelow := Scanned.scanFrom_below hlast (span_below h.whole piece 0 "")
      (size_below above piece 0 "") {}
      (.ofText piece)
    rw [Token.scan, Place.ofText, ofText, String.toList_append]
    exact hscan.trans hbelow

namespace Parse

/-- What stands before a declaration is no part of it. -/
theorem declaration_before (b b' : Span) (t : Token) (ts : List Token) :
    declaration ⟨b, t, ts⟩ = declaration ⟨b', t, ts⟩ := by
  obtain ⟨kind, span⟩ := t
  cases ts <;> cases kind with
  | keyword w => cases w <;> rfl
  | _ => rfl

theorem declarationRound_before (b b' : Span) (t : Token) (ts : List Token) :
    declarationRound ⟨b, t, ts⟩ = declarationRound ⟨b', t, ts⟩ ∨
      ∃ c c', declarationRound ⟨b, t, ts⟩ = .ok (none, c) ∧
        declarationRound ⟨b', t, ts⟩ = .ok (none, c') := by
  -- separators are skipped first, and then what stands before the cursor is one of them
  have hskip : skipFrom b t ts = skipFrom b' t ts ∨
      skipFrom b t ts = ⟨b, t, ts⟩ ∧ skipFrom b' t ts = ⟨b', t, ts⟩ := by
    cases ts with
    | nil => exact .inr ⟨rfl, rfl⟩
    | cons u us =>
      rw [skipFrom, skipFrom]
      by_cases hsep : Cursor.isSeparator ⟨b, t, u :: us⟩
      · left
        rw [if_pos hsep]
        exact (if_pos hsep).symm
      · right
        exact ⟨if_neg hsep, if_neg hsep⟩
  have hround (b : Span) : declarationRound ⟨b, t, ts⟩ =
      if (skipFrom b t ts).isEof then .ok (none, skipFrom b t ts)
      else (declaration (skipFrom b t ts) >>= fun r => terminator .declarationEnd r.2 >>=
        fun r' => .ok (some (r.1, true), r'.2)) := by
    unfold declarationRound
    simp only [bind, StateT.bind, skipSeparators, peek, Except.bind]
    split <;> rfl
  rw [hround, hround]
  rcases hskip with heq | ⟨heq, heq'⟩
  · left
    rw [heq]
  · rw [heq, heq', declaration_before b b']
    by_cases hend : Cursor.isEof ⟨b, t, ts⟩
    · right
      exact ⟨_, _, if_pos hend, if_pos hend⟩
    · left
      rw [if_neg hend, if_neg]
      exact hend

/-- **Declarations do not depend on what stands before them.** -/
theorem declarations_before (b b' : Span) (t : Token) (ts : List Token) :
    (declarations ⟨b, t, ts⟩).map Prod.fst = (declarations ⟨b', t, ts⟩).map Prod.fst := by
  rw [declarations_eq]
  rcases declarationRound_before b b' t ts with heq | ⟨c, c', h, h'⟩
  · rw [collect, collect, heq]
    rfl
  · rw [collect_of_none h, collect_of_none h']
    rfl

/-- Declarations further down are read as the declarations, further down, whatever stands before them. -/
theorem declarations_shifted (k : Descent) (b : Span) (u : Token) (us : List Token) :
    Related (fun _ _ => True) (fun _ _ => True) (List.map (Declaration.shift k) · = ·)
      (declarations ⟨.nowhere, u, us⟩) (declarations ⟨b, u.shift k, us.map (Token.shift k)⟩) := by
  have hbefore := declarations_before b (Span.shift k .nowhere) (u.shift k)
    (us.map (Token.shift k))
  have hshift : Related _ _ _ (declarations ⟨.nowhere, u, us⟩)
      (declarations ⟨Span.shift k .nowhere, u.shift k, us.map (Token.shift k)⟩) :=
    shifts_declarations ⟨.nowhere, u, us⟩ _ rfl
  generalize declarations ⟨.nowhere, u, us⟩ = alone at hshift ⊢
  generalize declarations ⟨Span.shift k .nowhere, u.shift k, _⟩ = r at hbefore hshift
  generalize declarations ⟨b, u.shift k, _⟩ = r' at hbefore ⊢
  cases hshift with
  | error =>
    cases r' with
    | error => exact .error trivial
    | ok => cases hbefore
  | ok hds =>
    cases r' with
    | error => cases hbefore
    | ok found =>
      obtain ⟨ds, c⟩ := found
      obtain rfl := Except.ok.inj hbefore
      exact .ok hds trivial

/-- What declarations further down declare. -/
theorem programOf_shift (k : Shift) (ds : List Declaration) :
    programOf (ds.map (Declaration.shift k)) =
      ⟨(programOf ds).imports.map (ImportDecl.shift k), (programOf ds).items.map (Item.shift k)⟩ := by
  simp only [programOf, List.flatMap_map, List.filterMap_map, List.map_flatMap, List.map_filterMap,
    Program.mk.injEq]
  constructor
  · congr 1
    funext d
    cases d <;> rfl
  · congr 1
    funext d
    cases d <;> rfl

end Parse

/-- A cursor that has come as far as the last tokens stands on the first of these. -/
theorem Cursor.Comes.tokens_eq {c c' : Cursor} {ts : List Token}
    (h : c.Comes c' (ts.map Token.kind)) (hts : ts <:+ c.tokens) : c'.tokens = ts := by
  have hlength : c'.tokens.length = ts.length := by
    simpa [Cursor.kinds, Cursor.tokens] using congrArg List.length h.kinds_eq
  exact (List.suffix_of_suffix_length_le h.suffix hts hlength.le).eq_of_length hlength

open Parse

/-- **The program of a text whose first lines are known.** `D` says what these declare. -/
theorem SourceFile.program_below {above : String} {kinds : List TokenKind}
    {D : List Parse.Declaration → Prop} (hlines : Lines above.toList kinds)
    (hread : ∀ (c : Cursor) (ks : List TokenKind), ks ≠ [] → c.kinds = kinds ++ ks →
      ∃ ds c', D ds ∧ c.Comes c' ks ∧
        declarations c = (declarations c').map fun r => (ds ++ r.1, r.2))
    (piece : String) :
    match (ofText 0 "" piece).program with
    | .ok p => ∃ ds more, D ds ∧ programOf more =
        ⟨p.imports.map (ImportDecl.shift (shiftBelow above)),
          p.items.map (Item.shift (shiftBelow above))⟩ ∧
        (ofText 0 "" (above ++ piece)).program = .ok (programOf (ds ++ more))
    | .error _ => ∃ e, (ofText 0 "" (above ++ piece)).program = .error e := by
  obtain ⟨ts, hts, hscan⟩ := Token.scan_below hlines piece
  rw [program, program, hscan]
  cases hpiece : Token.scan (ofText 0 "" piece) with
  | error e => exact ⟨_, rfl⟩
  | ok us =>
    obtain ⟨u, us, rfl⟩ : ∃ u us', us = u :: us' := by
      obtain ⟨t, ht, -⟩ := (Token.row_of_scan hpiece).last
      cases us with
      | nil => cases ht
      | cons u us => exact ⟨u, us, rfl⟩
    obtain ⟨k, hk⟩ : ∃ k, k = shiftBelow above := ⟨_, rfl⟩
    rw [← hk]
    obtain ⟨c, hc, htokens⟩ : ∃ c, Cursor.ofTokens? (ts ++ (u :: us).map (Token.shift k)) = some c ∧
        c.tokens = ts ++ (u :: us).map (Token.shift k) := by
      cases ts <;> exact ⟨_, rfl, rfl⟩
    have hkinds : c.kinds = kinds ++ ((u :: us).map (Token.shift k)).map Token.kind := by
      change c.tokens.map Token.kind = _
      rw [htokens, List.map_append, hts]
    obtain ⟨ds, ⟨b, t, rest⟩, hD, hcomes, hdecl⟩ := hread c _ (by simp) hkinds
    -- the cursor behind the lines stands on the first token of the piece, further down
    have hrest : t :: rest = (u :: us).map (Token.shift k) :=
      hcomes.tokens_eq (htokens ▸ List.suffix_append ..)
    obtain ⟨rfl, rfl⟩ := List.cons_eq_cons.mp hrest
    have hwhole : Program.ofTokens (ts ++ (u :: us).map (Token.shift k)) =
        (declarations ⟨b, u.shift k, us.map (Token.shift k)⟩).map fun r => programOf (ds ++ r.1) := by
      rw [Program.ofTokens, hc]
      simp only [hdecl]
      cases declarations ⟨b, u.shift k, us.map (Token.shift k)⟩ <;> rfl
    have halone : Program.ofTokens (u :: us) =
        (declarations ⟨.nowhere, u, us⟩).map fun r => programOf r.1 := rfl
    simp only [Except.map, Except.mapError_ok, hwhole, halone]
    have hboth := declarations_shifted k b u us
    generalize declarations ⟨.nowhere, u, us⟩ = r at hboth ⊢
    generalize declarations ⟨b, u.shift k, _⟩ = r' at hboth ⊢
    cases hboth with
    | error => exact ⟨_, rfl⟩
    | ok hmore =>
      subst hmore
      exact ⟨ds, _, hD, programOf_shift k _, rfl⟩

end Formula
