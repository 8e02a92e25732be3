import Formula.Proofs.Program.Node
import Formula.Proofs.Token.Row

/-!
# Where tokens stand in a text

The spans that the scanner makes are stretches of the text: they go from one offset in it to a later
one, and their lines and columns are those of these offsets.

## Main definitions

* `SourceFile.Holds f s`: the span `s` is a stretch of the text of `f`
* `SourceFile.region`: these spans, which are closed under joining

## Main results

* `Token.holds_of_scan`: tokens are stretches of the text
* `Token.ended_of_scan`: the tokens of a text end with it
* `ScanError.holds_of_scan`: so is the place of an error
-/

namespace Formula

open Text

namespace SourceFile

variable {f : SourceFile} {s t : Span} {a b : Nat}

/-- **A span is a stretch of a text**: it goes from one offset in the text to a later one, and its
positions are those of these offsets. -/
structure Holds (f : SourceFile) (s : Span) : Prop where
  file_eq : s.file = f.id
  start_eq : s.start = f.position s.start.offset
  stop_eq : s.stop = f.position s.stop.offset
  start_le : s.start.offset ≤ s.stop.offset
  stop_le : s.stop.offset ≤ f.size

theorem holds_span (hab : a ≤ b) (hb : b ≤ f.size) : f.Holds (f.span a b) :=
  ⟨rfl, rfl, rfl, hab, hb⟩

/-- What marks one byte, or the end of the text. -/
theorem holds_byte (ha : a ≤ f.size) : f.Holds (f.span a (min (a + 1) f.size)) :=
  holds_span (by omega) (Nat.min_le_right _ _)

theorem Holds.join (hs : f.Holds s) (ht : f.Holds t) : f.Holds (s.join t) where
  file_eq := hs.file_eq
  start_eq := by
    simp only [Span.join, Position.earlier]
    split
    · exact hs.start_eq
    · exact ht.start_eq
  stop_eq := by
    simp only [Span.join, Position.later]
    split
    · exact hs.stop_eq
    · exact ht.stop_eq
  start_le := by
    have := hs.start_le
    rw [Span.join_start_offset, Span.join_stop_offset]
    omega
  stop_le := by
    have := hs.stop_le
    have := ht.stop_le
    rw [Span.join_stop_offset]
    omega

/-- The first line starts at the beginning of the text, so every offset is in some line. -/
theorem position_line_pos (f : SourceFile) (a : Nat) : 0 < (f.position a).line := by
  have hmem : 0 ∈ f.lineStarts.filter (· ≤ a) := by
    rw [f.lineStarts_eq, lineStartsOf]
    simp
  exact List.length_pos_of_mem hmem

/-- What stands nowhere is no stretch of a text. -/
theorem Holds.ne_nowhere (h : f.Holds s) : s ≠ .nowhere := by
  rintro rfl
  have hline := f.position_line_pos (Span.nowhere.start.offset)
  rw [← h.start_eq] at hline
  exact Nat.lt_irrefl 0 hline

/-- The stretches of a text. -/
def region (f : SourceFile) : Region :=
  ⟨f.Holds, Holds.join⟩

theorem mem_region : s ∈ f.region ↔ f.Holds s :=
  Iff.rfl

end SourceFile

/-! ## Lexemes -/

theorem constant_of_numberFrom {start : Nat} {whole : List Char} {fraction : Option (List Char)}
    {p q : Place} {k : TokenKind} (h : numberFrom start whole fraction p = .ok (k, q)) :
    ∃ value, k = .constant value := by
  simp only [numberFrom] at h
  split at h
  · split at h
    · cases h
      exact ⟨_, rfl⟩
    · cases h
  · cases h
    exact ⟨_, rfl⟩

theorem constant_of_stringFrom {start offset : Nat} {done cs : List Char} {q : Place}
    {k : TokenKind} (h : stringFrom start done offset cs = .ok (k, q)) :
    ∃ value, k = .constant value := by
  fun_induction stringFrom start done offset cs with
  | case1 | case3 | case4 | case6 => cases h
  | case2 =>
    cases h
    exact ⟨_, rfl⟩
  | case5 _ _ _ _ _ _ ih | case7 _ _ _ _ _ _ _ _ ih => exact ih h

theorem constant_of_rawStringAt {start : Nat} {p q : Place} {k : TokenKind}
    (h : rawStringAt start p = .ok (k, q)) : ∃ value, k = .constant value := by
  simp only [rawStringAt] at h
  split at h
  · cases h
    exact ⟨_, rfl⟩
  · cases h

theorem isMark_wordKind (word : String) : (wordKind word).isMark = false := by
  unfold wordKind
  split <;> rfl

/-- **No lexeme is a mark**, neither of the end of a line nor of the end of the text. -/
theorem isMark_of_lexeme {start : Nat} {c : Char} {p q : Place} {k : TokenKind}
    (h : lexeme start c p = .ok (.token k, q)) : k.isMark = false := by
  have hconstant (hk : ∃ value, k = .constant value) : k.isMark = false := by
    obtain ⟨value, rfl⟩ := hk
    rfl
  cases LexemeAt.of_lexeme h with
  | comment _ _ hread => exact absurd rfl (ne_token_of_commentAt hread k)
  | number _ hread =>
    simp only [numberAt] at hread
    exact hconstant (constant_of_numberFrom hread)
  | fraction _ _ hread =>
    simp only [fractionOnlyAt] at hread
    exact hconstant (constant_of_numberFrom hread)
  | word => exact isMark_wordKind _
  | string _ hread => exact hconstant (constant_of_stringFrom hread)
  | rawString _ hread => exact hconstant (constant_of_rawStringAt hread)
  | symbol => rfl

/-! ## Errors -/

theorem offset_of_numberFrom {start : Nat} {whole : List Char} {fraction : Option (List Char)}
    {p : Place} {e : ScanError} (h : numberFrom start whole fraction p = .error e) :
    e.offset = start := by
  simp only [numberFrom] at h
  split at h
  · split at h
    · cases h
    · cases h
      rfl
  · cases h

/-- What is wrong with a string is reported where it starts, or where an escape does. -/
theorem offset_of_stringFrom {start offset : Nat} {done cs : List Char} {e : ScanError}
    (h : stringFrom start done offset cs = .error e) :
    e.offset = start ∨ e.offset ≤ offset + byteLength cs := by
  fun_induction stringFrom start done offset cs with
  | case1 | case3 | case4 =>
    cases h
    exact .inl rfl
  | case2 => cases h
  | case6 =>
    cases h
    exact .inr (Nat.le_add_right _ _)
  | case5 done offset e rest c _ ih =>
    refine (ih h).imp id fun hle => ?_
    simp only [byteLength_cons, show '\\'.utf8Size = 1 from rfl]
    omega
  | case7 done offset c rest _ _ _ _ ih =>
    refine (ih h).imp id fun hle => ?_
    rw [byteLength_cons]
    omega

theorem error_of_map_asLexeme {r : Except ScanError (TokenKind × Place)} {e : ScanError}
    (h : r.map asLexeme = .error e) : r = .error e := by
  cases r with
  | error e' =>
    cases h
    rfl
  | ok v => cases h

/-- **What is wrong with a lexeme is reported where it starts, or in what is left of the text.** -/
theorem offset_of_lexeme {start : Nat} {c : Char} {p : Place} {e : ScanError}
    (h : lexeme start c p = .error e) :
    e.offset = start ∨ e.offset ≤ p.offset + byteLength p.rest := by
  simp only [lexeme] at h
  split at h
  · cases h
  split at h
  · cases h
  split at h
  · cases h
  split at h
  · simp only [commentAt] at h
    split at h
    · cases h
    · cases h
      exact .inl rfl
  split at h
  · have hnumber := error_of_map_asLexeme h
    simp only [numberAt] at hnumber
    exact .inl (offset_of_numberFrom hnumber)
  split at h
  · have hnumber := error_of_map_asLexeme h
    simp only [fractionOnlyAt] at hnumber
    exact .inl (offset_of_numberFrom hnumber)
  split at h
  · cases h
  split at h
  · exact offset_of_stringFrom (error_of_map_asLexeme h)
  split at h
  · have hraw := error_of_map_asLexeme h
    simp only [rawStringAt] at hraw
    split at hraw
    · cases hraw
    · cases hraw
      exact .inl rfl
  split at h
  · cases h
  · cases h
    exact .inl rfl

/-! ## Texts -/

/-- What has been read of a text consists of stretches of it, none of which is its end. -/
def Scanned.Placed (f : SourceFile) (s : Scanned) : Prop :=
  ∀ t ∈ s.tokens, f.Holds t.span ∧ t.kind ≠ .eof

namespace Scanned

variable {f : SourceFile} {s : Scanned} {start stop : Nat}

theorem Placed.endLine (h : s.Placed f) (hstart : start ≤ f.size) :
    (s.endLine f start).Placed f := by
  unfold Scanned.endLine
  split
  · exact List.forall_mem_cons.mpr ⟨⟨SourceFile.holds_byte hstart, nofun⟩, h⟩
  · exact h

theorem Placed.add (h : s.Placed f) {l : Lexeme} (hl : ∀ k, l = .token k → k ≠ .eof)
    (hle : start ≤ stop) (hstop : stop ≤ f.size) : (s.add f start stop l).Placed f := by
  cases l with
  | token kind =>
    exact List.forall_mem_cons.mpr ⟨⟨SourceFile.holds_span hle hstop, hl kind rfl⟩, h⟩
  | lineBreak => exact h.endLine (Nat.le_trans hle hstop)
  | blank => exact h

theorem Placed.finish (h : s.Placed f) :
    Token.Ended (s.finish f) ∧ ∀ t ∈ s.finish f, f.Holds t.span := by
  have hline := h.endLine (Nat.le_refl f.size)
  rw [Scanned.finish, List.reverse_cons]
  refine ⟨⟨_, _, rfl, rfl, fun t ht => (hline t (List.mem_reverse.mp ht)).2⟩, ?_⟩
  refine List.forall_mem_append.mpr ⟨fun t ht => (hline t (List.mem_reverse.mp ht)).1, ?_⟩
  exact List.forall_mem_singleton.mpr (SourceFile.holds_span (Nat.le_refl _) (Nat.le_refl _))

/-- What is scanned from a place on stands in the text, and so does what is wrong with it. -/
theorem Placed.scanFrom {p : Place} (h : s.Placed f)
    (hp : p.offset + byteLength p.rest = f.size) :
    match scanFrom f s p with
    | .ok tokens => Token.Ended tokens ∧ ∀ t ∈ tokens, f.Holds t.span
    | .error e => e.offset ≤ f.size := by
  fun_induction Scanned.scanFrom f s p with
  | case1 s p hrest => exact h.finish
  | case2 s p c rest hrest e hl =>
    have htotal := (Place.leads_behind hrest).total
    have hoffset := offset_of_lexeme hl
    simp only
    omega
  | case3 s p c rest hrest l q hl ih =>
    have hbehind := Place.leads_behind hrest
    have hq := Place.leads_of_lexeme hl
    have htotal := (hbehind.trans hq).total
    refine ih (h.add ?_ (hbehind.trans hq).offset_le (by omega)) (by omega)
    rintro k rfl heof
    exact absurd (isMark_of_lexeme hl) (by simp [heof, TokenKind.isMark])

end Scanned

namespace Token

variable {f : SourceFile} {tokens : List Token}

theorem placed_of_scan (f : SourceFile) :
    match Token.scan f with
    | .ok tokens => Token.Ended tokens ∧ ∀ t ∈ tokens, f.Holds t.span
    | .error e => e.offset ≤ f.size :=
  Scanned.Placed.scanFrom (s := {}) nofun ((Nat.zero_add _).trans (byteLength_toList f.text))

/-- **The tokens of a text end with it**, and none before the last one is its end. -/
theorem ended_of_scan (h : Token.scan f = .ok tokens) : Token.Ended tokens := by
  have hplaced := placed_of_scan f
  rw [h] at hplaced
  exact hplaced.1

/-- **Tokens are stretches of the text.** -/
theorem holds_of_scan (h : Token.scan f = .ok tokens) : ∀ t ∈ tokens, f.Holds t.span := by
  have hplaced := placed_of_scan f
  rw [h] at hplaced
  exact hplaced.2

end Token

/-- **What is wrong with a text is marked in it.** -/
theorem ScanError.holds_of_scan {f : SourceFile} {e : ScanError} (h : Token.scan f = .error e) :
    ∀ label ∈ (e.diagnostic f).primary, f.Holds label.span := by
  have hplaced := Token.placed_of_scan f
  rw [h] at hplaced
  rintro label ⟨⟩
  exact SourceFile.holds_byte hplaced

end Formula
