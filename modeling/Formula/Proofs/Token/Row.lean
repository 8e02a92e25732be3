import Formula.Proofs.Token.Forms
import Formula.Text.Backspace

/-!
# Tokens in a row

The tokens of a file stand in a row: each ends before the next one starts, and only the marks at the
ends of lines and of the text may be empty.

## Main definitions

* `Place.Leads p q`: reading on from `p` gets to `q`
* `Token.Ended`: lists of tokens of which the last one is the only end of the text
* `Token.Row`: tokens in a row, of which the last one alone is the end of the text

## Main results

* `Place.leads_of_lexeme`: a lexeme ends where its characters end
* `Token.row_of_scan`: the tokens of a file stand in a row
-/

namespace Formula

open Text

theorem byteLength_toList (text : String) : byteLength text.toList = text.utf8ByteSize := by
  have hof (cs : List Char) : (String.ofList cs).utf8ByteSize = byteLength cs := by
    induction cs with
    | nil => rfl
    | cons c cs ih =>
      rw [String.ofList_cons, String.utf8ByteSize_append, String.utf8ByteSize_singleton, ih,
        byteLength_cons]
  rw [← hof, String.ofList_toList]

/-! ## Reading on -/

/-- Reading on from the place `p` gets to the place `q`. -/
def Place.Leads (p q : Place) : Prop :=
  ∃ cs, p.rest = cs ++ q.rest ∧ q.offset = p.offset + byteLength cs

namespace Place

variable {p q r : Place}

theorem Leads.refl (p : Place) : p.Leads p :=
  ⟨[], rfl, rfl⟩

theorem Leads.trans (h : p.Leads q) (h' : q.Leads r) : p.Leads r := by
  obtain ⟨cs, hcs, hoffset⟩ := h
  obtain ⟨ds, hds, hoffset'⟩ := h'
  refine ⟨cs ++ ds, by rw [hcs, hds, List.append_assoc], ?_⟩
  rw [hoffset', hoffset, byteLength_append, Nat.add_assoc]

theorem Leads.offset_le (h : p.Leads q) : p.offset ≤ q.offset := by
  obtain ⟨cs, -, hoffset⟩ := h
  omega

theorem leads_behind {c : Char} {rest : List Char} (h : p.rest = c :: rest) :
    p.Leads (p.behind c rest) :=
  ⟨[c], h, by simp⟩

theorem leads_takeWhileFrom (keep : Char → Bool) (offset : Nat) (cs : List Char) :
    Leads ⟨offset, cs⟩ (takeWhileFrom keep offset cs).2 := by
  induction cs generalizing offset with
  | nil => exact .refl _
  | cons c cs ih =>
    simp only [takeWhileFrom]
    split
    · exact (leads_behind (p := ⟨offset, c :: cs⟩) rfl).trans (ih _)
    · exact .refl _

theorem leads_takeWhile (p : Place) (keep : Char → Bool) : p.Leads (p.takeWhile keep).2 :=
  leads_takeWhileFrom ..

theorem leads_of_eat? {c : Char} (h : p.eat? c = some q) : p.Leads q := by
  simp only [eat?] at h
  split at h
  · cases h
  · rename_i d rest heq
    split at h
    · cases h
      exact leads_behind heq
    · cases h

theorem leads_of_symbolAt? {c : Char} {s : Symbol} (h : symbolAt? c p = some (s, q)) :
    p.Leads q := by
  simp only [symbolAt?] at h
  split at h
  · simp only [Option.map_eq_some_iff, Prod.mk.injEq] at h
    obtain ⟨_, _, _, rfl⟩ := h
    exact .refl _
  · rename_i d rest heq
    split at h
    · cases h
      exact leads_behind heq
    · simp only [Option.map_eq_some_iff, Prod.mk.injEq] at h
      obtain ⟨_, _, _, rfl⟩ := h
      exact .refl _

theorem leads_fractionAt (p : Place) : p.Leads (fractionAt p).2 := by
  simp only [fractionAt]
  split
  · rename_i rest heq
    split
    · exact .refl _
    · exact (leads_behind heq).trans (leads_takeWhile ..)
  · exact .refl _

theorem leads_of_exponentDigits? {negative : Bool} {e : Int}
    (h : exponentDigits? negative p = some (e, q)) : p.Leads q := by
  have htake := leads_takeWhile p Char.isDigit
  simp only [exponentDigits?] at h
  split at h
  · cases h
  · rename_i digits r heq
    simp only [Option.some.injEq, Prod.mk.injEq] at h
    simpa only [heq, ← h.2] using htake

theorem leads_of_exponentAt? {e : Int} (h : exponentAt? p = some (e, q)) : p.Leads q := by
  simp only [exponentAt?] at h
  split at h
  · cases h
  · rename_i c rest heq
    split at h
    · refine (leads_behind heq).trans ?_
      split at h
      · rename_i hmore
        exact (leads_behind hmore).trans (leads_of_exponentDigits? h)
      · rename_i hmore
        exact (leads_behind hmore).trans (leads_of_exponentDigits? h)
      · exact leads_of_exponentDigits? h
    · cases h

theorem leads_of_numberFrom {start : Nat} {whole : List Char} {fraction : Option (List Char)}
    {k : TokenKind} (h : numberFrom start whole fraction p = .ok (k, q)) : p.Leads q := by
  simp only [numberFrom] at h
  split at h
  · split at h
    · cases h
      exact .refl _
    · cases h
  · simp only [Except.ok.injEq, Prod.mk.injEq] at h
    cases he : exponentAt? p with
    | none =>
      rw [← h.2, he]
      exact .refl _
    | some r =>
      obtain ⟨e, r⟩ := r
      rw [← h.2, he]
      exact leads_of_exponentAt? he

theorem leads_of_numberAt {start : Nat} {c : Char} {k : TokenKind}
    (h : numberAt start c p = .ok (k, q)) : p.Leads q := by
  simp only [numberAt] at h
  exact (leads_takeWhile ..).trans ((leads_fractionAt _).trans (leads_of_numberFrom h))

theorem leads_of_fractionOnlyAt {start : Nat} {k : TokenKind}
    (h : fractionOnlyAt start p = .ok (k, q)) : p.Leads q := by
  simp only [fractionOnlyAt] at h
  exact (leads_takeWhile ..).trans (leads_of_numberFrom h)

theorem leads_of_stringFrom {start offset : Nat} {done cs : List Char} {k : TokenKind}
    (h : stringFrom start done offset cs = .ok (k, q)) : Leads ⟨offset, cs⟩ q := by
  fun_induction stringFrom start done offset cs with
  | case1 | case3 | case4 | case6 => cases h
  | case2 done offset rest =>
    cases h
    exact ⟨['"'], rfl, rfl⟩
  | case5 done offset e rest c hc ih =>
    obtain ⟨ds, hds, hoffset⟩ := ih h
    refine ⟨'\\' :: e :: ds, congrArg (List.cons _ <| List.cons _ ·) hds, ?_⟩
    rw [hoffset, byteLength_cons, byteLength_cons]
    simp only [show '\\'.utf8Size = 1 from rfl]
    omega
  | case7 done offset c rest _ _ _ _ ih =>
    obtain ⟨ds, hds, hoffset⟩ := ih h
    refine ⟨c :: ds, congrArg (List.cons _) hds, ?_⟩
    rw [hoffset, byteLength_cons, Nat.add_assoc]

theorem leads_of_rawStringAt {start : Nat} {k : TokenKind}
    (h : rawStringAt start p = .ok (k, q)) : p.Leads q := by
  simp only [rawStringAt] at h
  split at h
  · rename_i r heat
    cases h
    exact (leads_takeWhile ..).trans (leads_of_eat? heat)
  · cases h

theorem leads_of_blockComment? {broken b : Bool} {offset : Nat} {cs : List Char}
    (h : blockComment? broken offset cs = some (b, q)) : Leads ⟨offset, cs⟩ q := by
  fun_induction blockComment? broken offset cs with
  | case1 => cases h
  | case2 _ offset rest =>
    cases h
    exact ⟨['*', '/'], rfl, rfl⟩
  | case3 _ offset c rest _ ih =>
    obtain ⟨ds, hds, hoffset⟩ := ih h
    refine ⟨c :: ds, congrArg (List.cons _) hds, ?_⟩
    rw [hoffset, byteLength_cons, Nat.add_assoc]

theorem leads_of_commentAt {start : Nat} {l : Lexeme} (h : commentAt start p = .ok (l, q)) :
    p.Leads q := by
  simp only [commentAt] at h
  split at h
  · rename_i b r hr
    cases h
    exact leads_of_blockComment? hr
  · cases h

/-- **A lexeme ends where its characters end.** -/
theorem leads_of_lexeme {start : Nat} {c : Char} {l : Lexeme}
    (h : lexeme start c p = .ok (l, q)) : p.Leads q := by
  cases LexemeAt.of_lexeme h with
  | lineBreak | blank => exact .refl _
  | lineComment | word => exact leads_takeWhile ..
  | comment _ hnext hread =>
    obtain ⟨rest, hrest⟩ := List.head?_eq_some_iff.mp hnext
    rw [hrest] at hread
    exact (leads_behind hrest).trans (leads_of_commentAt hread)
  | number _ hread => exact leads_of_numberAt hread
  | fraction _ _ hread => exact leads_of_fractionOnlyAt hread
  | string _ hread => exact leads_of_stringFrom hread
  | rawString _ hread => exact leads_of_rawStringAt hread
  | symbol _ _ hread => exact leads_of_symbolAt? hread

/-- Reading on, the bytes that are read and those that are left make up the text. -/
theorem Leads.total (h : p.Leads q) :
    p.offset + byteLength p.rest = q.offset + byteLength q.rest := by
  obtain ⟨cs, hcs, hoffset⟩ := h
  rw [hcs, hoffset, byteLength_append, Nat.add_assoc]

end Place

/-! ## Tokens in a row -/

/-- The last token, and no other one, is the end of the text. -/
def Token.Ended (tokens : List Token) : Prop :=
  ∃ ts t, tokens = ts ++ [t] ∧ t.kind = .eof ∧ ∀ u ∈ ts, u.kind ≠ .eof

/-- Whether a token is a mark at the end of a line or of the text, which may be empty. -/
def TokenKind.isMark : TokenKind → Bool
  | newline | eof => true
  | _ => false

/-- **Tokens stand in a row**: each ends before the next one starts, and the last one is the end of
the text. -/
structure Token.Row (tokens : List Token) : Prop where
  ordered : tokens.Pairwise fun t u => t.span.stop.offset ≤ u.span.start.offset
  forward : ∀ t ∈ tokens, t.span.start.offset ≤ t.span.stop.offset
  solid : ∀ t ∈ tokens, t.kind.isMark = false → t.span.start.offset < t.span.stop.offset
  last : ∃ t, tokens.getLast? = some t ∧ t.kind = .eof

/-- The tokens that have been read stand in a row up to an offset; the last one comes first. -/
structure Scanned.UpTo (s : Scanned) (offset : Nat) : Prop where
  ordered : s.tokens.Pairwise fun u t => t.span.stop.offset ≤ u.span.start.offset
  forward : ∀ t ∈ s.tokens, t.span.start.offset ≤ t.span.stop.offset
  solid : ∀ t ∈ s.tokens, t.kind.isMark = false → t.span.start.offset < t.span.stop.offset
  below : ∀ t ∈ s.tokens, t.span.stop.offset ≤ offset

namespace Scanned

variable {s : Scanned} {file : SourceFile} {offset start stop : Nat}

theorem UpTo.weaken (h : s.UpTo start) (hle : start ≤ stop) : s.UpTo stop :=
  { h with below := fun t ht => Nat.le_trans (h.below t ht) hle }

/-- A token can be added where the others end. -/
theorem UpTo.cons (h : s.UpTo start) {t : Token} (groups : List Symbol)
    (hstart : start ≤ t.span.start.offset) (hforward : t.span.start.offset ≤ t.span.stop.offset)
    (hsolid : t.kind.isMark = false → t.span.start.offset < t.span.stop.offset) :
    UpTo ⟨t :: s.tokens, groups⟩ t.span.stop.offset where
  ordered := List.pairwise_cons.mpr ⟨fun u hu => Nat.le_trans (h.below u hu) hstart, h.ordered⟩
  forward := List.forall_mem_cons.mpr ⟨hforward, h.forward⟩
  solid := List.forall_mem_cons.mpr ⟨hsolid, h.solid⟩
  below := List.forall_mem_cons.mpr
    ⟨Nat.le_refl _, fun u hu => Nat.le_trans (h.below u hu) (Nat.le_trans hstart hforward)⟩

theorem UpTo.endLine (h : s.UpTo start) (hsize : start ≤ file.size) :
    (s.endLine file start).UpTo (min (start + 1) file.size) := by
  unfold Scanned.endLine
  split
  · exact h.cons s.groups (Nat.le_refl _)
      (show start ≤ min (start + 1) file.size by omega) nofun
  · exact h.weaken (by omega)

theorem UpTo.add (h : s.UpTo start) (l : Lexeme) (hlt : start < stop) (hsize : stop ≤ file.size) :
    (s.add file start stop l).UpTo stop := by
  cases l with
  | token kind => exact h.cons _ (Nat.le_refl _) (Nat.le_of_lt hlt) fun _ => hlt
  | lineBreak => exact (h.endLine (by omega)).weaken (by omega)
  | blank => exact h.weaken (Nat.le_of_lt hlt)

theorem UpTo.finish (h : s.UpTo file.size) : Token.Row (s.finish file) := by
  have hline : (s.endLine file file.size).UpTo file.size :=
    (h.endLine (Nat.le_refl _)).weaken (Nat.min_le_right _ _)
  have hall := hline.cons (t := ⟨.eof, file.span file.size file.size⟩) [] (Nat.le_refl _)
    (Nat.le_refl _) nofun
  exact
    { ordered := List.pairwise_reverse.mpr hall.ordered
      forward := fun t ht => hall.forward t (List.mem_reverse.mp ht)
      solid := fun t ht => hall.solid t (List.mem_reverse.mp ht)
      last := ⟨_, by rw [Scanned.finish, List.getLast?_reverse]; rfl, rfl⟩ }

/-- What is scanned from a place on goes on the row of what has been read. -/
theorem UpTo.scanFrom {p : Place} {tokens : List Token} (h : s.UpTo p.offset)
    (hp : p.offset + byteLength p.rest = file.size) (hscan : scanFrom file s p = .ok tokens) :
    Token.Row tokens := by
  fun_induction Scanned.scanFrom file s p with
  | case1 s p hrest =>
    cases hscan
    rw [hrest, byteLength_nil, Nat.add_zero] at hp
    exact (hp ▸ h).finish
  | case2 => cases hscan
  | case3 s p c rest hrest l q hl ih =>
    have hbehind := Place.leads_behind hrest
    have hq := Place.leads_of_lexeme hl
    have htotal := (hbehind.trans hq).total
    have hlt : p.offset < q.offset := by
      have := hq.offset_le
      have := c.utf8Size_pos
      simp only [Place.behind_offset] at *
      omega
    exact ih (h.add l hlt (by omega)) (by omega) hscan

end Scanned

/-- **The tokens of a file stand in a row.** -/
theorem Token.row_of_scan {file : SourceFile} {tokens : List Token}
    (h : Token.scan file = .ok tokens) : Row tokens := by
  refine Scanned.UpTo.scanFrom (s := {}) ⟨.nil, nofun, nofun, nofun⟩ ?_ h
  exact (Nat.zero_add _).trans (byteLength_toList file.text)

end Formula
