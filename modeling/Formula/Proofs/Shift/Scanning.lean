import Formula.Proofs.Shift.Reading
import Formula.Proofs.Token.Row

/-!
# Scanning further down in a text

What stands at a place is read without a look at the offset of the place; offsets are only counted
on. So a piece of a text that is put behind whole lines has the tokens that it has alone, further
down. The lines above must not leave a bracket open, or end in a token that a line break would end
a statement after.

## Main definitions

* `Place.shift`, `ScanError.shift`: places and errors further down
* `Scanned.below`: what has been read of a piece, behind the tokens above it

## Main results

* `lexeme_shift`: what stands at a place further down
* `SourceFile.span_below`: the spans of a piece further down
* `Token.scan_below`: the tokens of a piece further down
-/

namespace Formula

open Text

/-! ## Places -/

/-- A place so many bytes further down. -/
def Place.shift (b : Nat) (p : Place) : Place :=
  ⟨p.offset + b, p.rest⟩

/-- An error so many bytes further down. -/
def ScanError.shift (b : Nat) (e : ScanError) : ScanError :=
  ⟨e.cause, e.offset + b⟩

/-- What is read so many bytes further down. -/
def readBelow {α : Type} (b : Nat) (r : Except ScanError (α × Place)) :
    Except ScanError (α × Place) :=
  (r.map (Prod.map id (Place.shift b))).mapError (ScanError.shift b)

variable (b : Nat)

namespace Place

@[simp]
theorem shift_mk (offset : Nat) (rest : List Char) :
    shift b ⟨offset, rest⟩ = ⟨offset + b, rest⟩ := rfl

@[simp]
theorem rest_shift (p : Place) : (p.shift b).rest = p.rest := rfl

@[simp]
theorem offset_shift (p : Place) : (p.shift b).offset = p.offset + b := rfl

@[simp]
theorem behind_shift (p : Place) (c : Char) (rest : List Char) :
    (p.shift b).behind c rest = (p.behind c rest).shift b := by
  simp only [behind, shift, Nat.add_right_comm]

theorem takeWhileFrom_shift (keep : Char → Bool) (offset : Nat) (cs : List Char) :
    takeWhileFrom keep (offset + b) cs = Prod.map id (shift b) (takeWhileFrom keep offset cs) := by
  induction cs generalizing offset with
  | nil => rfl
  | cons c cs ih =>
    rw [takeWhileFrom, takeWhileFrom, Nat.add_right_comm, ih]
    split <;> rfl

@[simp]
theorem takeWhile_shift (p : Place) (keep : Char → Bool) :
    (p.shift b).takeWhile keep = Prod.map id (shift b) (p.takeWhile keep) :=
  takeWhileFrom_shift b keep p.offset p.rest

theorem eat?_shift (p : Place) (c : Char) : (p.shift b).eat? c = (p.eat? c).map (shift b) := by
  simp only [eat?, rest_shift, behind_shift]
  split
  · rfl
  · split <;> rfl

end Place

/-! ## What stands at a place -/

theorem symbolAt?_shift (c : Char) (p : Place) :
    symbolAt? c (p.shift b) = (symbolAt? c p).map (Prod.map id (Place.shift b)) := by
  simp only [symbolAt?, Place.rest_shift, Place.behind_shift]
  split
  · simp [Function.comp_def]
  · split
    · rfl
    · simp [Function.comp_def]

theorem fractionAt_shift (p : Place) :
    fractionAt (p.shift b) = Prod.map id (Place.shift b) (fractionAt p) := by
  simp only [fractionAt, Place.rest_shift, Place.behind_shift, Place.takeWhile_shift]
  split
  · split <;> rfl
  · rfl

theorem exponentDigits?_shift (negative : Bool) (p : Place) :
    exponentDigits? negative (p.shift b) =
      (exponentDigits? negative p).map (Prod.map id (Place.shift b)) := by
  simp only [exponentDigits?, Place.takeWhile_shift]
  obtain ⟨digits, q⟩ := p.takeWhile Char.isDigit
  cases digits <;> rfl

theorem exponentAt?_shift (p : Place) :
    exponentAt? (p.shift b) = (exponentAt? p).map (Prod.map id (Place.shift b)) := by
  simp only [exponentAt?, Place.rest_shift, Place.behind_shift]
  split
  · rfl
  · split
    · split <;> exact exponentDigits?_shift ..
    · rfl

theorem numberFrom_shift (start : Nat) (whole : List Char) (fraction : Option (List Char))
    (p : Place) :
    numberFrom (start + b) whole fraction (p.shift b) =
      readBelow b (numberFrom start whole fraction p) := by
  simp only [numberFrom, exponentAt?_shift]
  cases fraction <;> cases exponentAt? p
  · simp only [Option.map_none]
    split <;> rfl
  all_goals rfl

theorem numberAt_shift (start : Nat) (c : Char) (p : Place) :
    numberAt (start + b) c (p.shift b) = readBelow b (numberAt start c p) := by
  simp only [numberAt, Place.takeWhile_shift, Prod.map, fractionAt_shift, id_eq, numberFrom_shift]

theorem fractionOnlyAt_shift (start : Nat) (p : Place) :
    fractionOnlyAt (start + b) (p.shift b) = readBelow b (fractionOnlyAt start p) := by
  simp only [fractionOnlyAt, Place.takeWhile_shift, Prod.map, id_eq, numberFrom_shift]

theorem stringFrom_shift (start : Nat) (done : List Char) (offset : Nat) (cs : List Char) :
    stringFrom (start + b) done (offset + b) cs =
      readBelow b (stringFrom start done offset cs) := by
  fun_induction stringFrom start done offset cs with
  | case1 | case3 | case4 => rfl
  | case2 =>
    rw [stringFrom, Nat.add_right_comm]
    rfl
  | case5 done offset e rest c hc ih =>
    rw [stringFrom, hc, ← ih]
    simp only [Nat.add_right_comm _ b]
  | case6 done offset e rest hnone =>
    rw [stringFrom, hnone]
    rfl
  | case7 done offset c rest h₁ h₂ h₃ h₄ ih =>
    rw [stringFrom, Nat.add_right_comm, ih]
    all_goals assumption

theorem rawStringAt_shift (start : Nat) (p : Place) :
    rawStringAt (start + b) (p.shift b) = readBelow b (rawStringAt start p) := by
  simp only [rawStringAt, Place.takeWhile_shift, Prod.map, id_eq, Place.eat?_shift]
  cases (p.takeWhile (· != '\x60')).2.eat? '\x60' <;> rfl

theorem blockComment?_shift (broken : Bool) (offset : Nat) (cs : List Char) :
    blockComment? broken (offset + b) cs =
      (blockComment? broken offset cs).map (Prod.map id (Place.shift b)) := by
  fun_induction blockComment? broken offset cs with
  | case1 => rfl
  | case2 =>
    rw [blockComment?, Nat.add_right_comm]
    rfl
  | case3 broken offset c rest h ih =>
    rw [blockComment?, Nat.add_right_comm, ih]
    exact h

theorem commentAt_shift (start : Nat) (p : Place) :
    commentAt (start + b) (p.shift b) = readBelow b (commentAt start p) := by
  simp only [commentAt, Place.rest_shift, Place.offset_shift, blockComment?_shift]
  cases blockComment? false p.offset p.rest <;> rfl

theorem map_asLexeme_readBelow (r : Except ScanError (TokenKind × Place)) :
    (readBelow b r).map asLexeme = readBelow b (r.map asLexeme) := by
  cases r <;> rfl

/-- **What stands at a place further down** is what stands at the place. -/
theorem lexeme_shift (start : Nat) (c : Char) (p : Place) :
    lexeme (start + b) c (p.shift b) = readBelow b (lexeme start c p) := by
  have hcomment := commentAt_shift b start ⟨p.offset + 1, p.rest.tail⟩
  rw [Place.shift_mk, Nat.add_right_comm] at hcomment
  rw [lexeme, lexeme, symbolAt?_shift]
  simp only [Place.rest_shift, Place.offset_shift, Place.takeWhile_shift, hcomment,
    numberAt_shift, fractionOnlyAt_shift, stringFrom_shift, rawStringAt_shift,
    map_asLexeme_readBelow, apply_ite (readBelow b)]
  cases symbolAt? c p <;> rfl

/-! ## Positions -/

theorem lineStartsAfter_append (offset : Nat) (cs ds : List Char) :
    lineStartsAfter offset (cs ++ ds) =
      lineStartsAfter offset cs ++ lineStartsAfter (offset + byteLength cs) ds := by
  induction cs generalizing offset with
  | nil => rfl
  | cons c cs ih =>
    simp only [List.cons_append, lineStartsAfter, ih, byteLength_cons, Nat.add_assoc]
    split <;> rfl

theorem lineStartsAfter_shift (offset : Nat) (cs : List Char) :
    lineStartsAfter (offset + b) cs = (lineStartsAfter offset cs).map (· + b) := by
  induction cs generalizing offset with
  | nil => rfl
  | cons c cs ih =>
    simp only [lineStartsAfter, Nat.add_right_comm _ b, ih]
    split <;> rfl

theorem le_of_mem_lineStartsAfter {offset start : Nat} {cs : List Char}
    (h : start ∈ lineStartsAfter offset cs) : start ≤ offset + byteLength cs := by
  induction cs generalizing offset with
  | nil => cases h
  | cons c cs ih =>
    rw [byteLength_cons, ← Nat.add_assoc]
    simp only [lineStartsAfter] at h
    split at h
    · rcases List.mem_cons.mp h with rfl | h
      · omega
      · exact ih h
    · exact ih h

/-- Behind whole lines a line starts. -/
theorem getLastD_lineStartsAfter {cs : List Char} (h : ∀ c ∈ cs.getLast?, c = '\n') :
    (0 :: lineStartsAfter 0 cs).getLastD 0 = byteLength cs := by
  rcases List.eq_nil_or_concat cs with rfl | ⟨ds, c, rfl⟩
  · rfl
  · rw [List.concat_eq_append] at h ⊢
    obtain rfl : c = '\n' := h c (by simp)
    rw [lineStartsAfter_append, byteLength_append, Nat.zero_add, ← List.cons_append]
    exact List.getLastD_concat ..

namespace SourceFile

variable {above : String} (h : ∀ c ∈ above.toList.getLast?, c = '\n') (piece : String)

/-- How far down a piece of a text is put behind what stands above it. -/
def shiftBelow (above : String) : Descent :=
  ⟨(lineStartsAfter 0 above.toList).length, byteLength above.toList⟩

include h in
theorem position_below (id : Nat) (name : String) (offset : Nat) :
    (ofText id name (above ++ piece)).position (offset + (shiftBelow above).bytes) =
      ((ofText id name piece).position offset).shift (shiftBelow above) := by
  have hstarts : lineStartsOf (above ++ piece) = (0 :: lineStartsAfter 0 above.toList) ++
      (lineStartsAfter 0 piece.toList).map (· + byteLength above.toList) := by
    rw [lineStartsOf, String.toList_append, lineStartsAfter_append, lineStartsAfter_shift,
      List.cons_append]
  -- all lines above start before the offset
  have hreached : (lineStartsOf (above ++ piece)).filter (· ≤ offset + (shiftBelow above).bytes) =
      (0 :: lineStartsAfter 0 above.toList) ++
        ((lineStartsAfter 0 piece.toList).filter (· ≤ offset)).map
          (· + byteLength above.toList) := by
    rw [hstarts, List.filter_append, List.filter_map, List.filter_eq_self.mpr]
    · simp [Function.comp_def, shiftBelow]
    · intro start hstart
      have hle : start ≤ byteLength above.toList := by
        rcases List.mem_cons.mp hstart with rfl | hstart
        · exact Nat.zero_le _
        · rw [← Nat.zero_add (byteLength _)]
          exact le_of_mem_lineStartsAfter hstart
      exact decide_eq_true (Nat.le_trans hle (Nat.le_add_left ..))
  have hlast := getLastD_lineStartsAfter h
  have hpiece : (lineStartsOf piece).filter (· ≤ offset) =
      0 :: (lineStartsAfter 0 piece.toList).filter (· ≤ offset) := by
    simp [lineStartsOf]
  simp only [position, ofText, hreached, hpiece, Position.shift, Position.mk.injEq]
  generalize (lineStartsAfter 0 piece.toList).filter (· ≤ offset) = reached
  refine ⟨?_, ?_, trivial⟩
  · simp only [shiftBelow, List.length_append, List.length_cons, List.length_map]
    omega
  · -- the line starts in the piece, or with it
    rcases List.eq_nil_or_concat reached with rfl | ⟨starts, start, rfl⟩
    · rw [List.map_nil, List.append_nil, hlast]
      simp [shiftBelow]
    · rw [List.concat_eq_append, List.map_append, ← List.append_assoc, List.map_singleton,
        List.getLastD_concat, ← List.cons_append, List.getLastD_concat]
      simp only [shiftBelow]
      omega

include h in
/-- The spans of a piece further down. -/
theorem span_below (id : Nat) (name : String) (start stop : Nat) :
    (ofText id name (above ++ piece)).span (start + (shiftBelow above).bytes)
        (stop + (shiftBelow above).bytes) =
      ((ofText id name piece).span start stop).shift (shiftBelow above) := by
  simp only [span, position_below h piece]
  rfl

theorem size_below (above piece : String) (id : Nat) (name : String) :
    (ofText id name (above ++ piece)).size =
      (ofText id name piece).size + (shiftBelow above).bytes := by
  simp only [size, ofText, shiftBelow, String.utf8ByteSize_append, byteLength_toList]
  omega

end SourceFile

/-! ## Tokens -/

namespace Scanned

/-- What has been read of a piece, behind the tokens above it, the last of which comes first. -/
def below (k : Descent) (above : List Token) (s : Scanned) : Scanned :=
  ⟨s.tokens.map (Token.shift k) ++ above, s.groups⟩

theorem scanFrom_eq (f : SourceFile) (s : Scanned) (p : Place) :
    scanFrom f s p = match p.rest with
      | [] => .ok (s.finish f)
      | c :: rest =>
        match lexeme p.offset c (p.behind c rest) with
        | .error e => .error e
        | .ok (l, q) => scanFrom f (s.add f p.offset q.offset l) q := by
  rw [scanFrom]
  split
  · rename_i h
    rw [h]
  · rename_i c rest h
    rw [h]
    dsimp only
    split
    · rename_i e he
      rw [he]
    · rename_i l q hl
      rw [hl]

variable {f g : SourceFile} {k : Descent} {above : List Token}

/-- A line break ends a statement where it did, as it ends none behind the tokens above. -/
theorem endsStatement_below (habove : ∀ t ∈ above.head?, t.kind.endsStatement = false)
    (s : Scanned) : (s.below k above).endsStatement = s.endsStatement := by
  obtain ⟨tokens, groups⟩ := s
  cases tokens with
  | cons t ts => rfl
  | nil =>
    cases above with
    | nil => rfl
    | cons t ts => simp [below, endsStatement, habove t rfl]

section Below

variable (habove : ∀ t ∈ above.head?, t.kind.endsStatement = false)
  (hspan : ∀ start stop, g.span (start + k.bytes) (stop + k.bytes) = (f.span start stop).shift k)
  (hsize : g.size = f.size + k.bytes)
include habove hspan hsize

theorem endLine_below (s : Scanned) (offset : Nat) :
    (s.below k above).endLine g (offset + k.bytes) = (s.endLine f offset).below k above := by
  have hstop : min (offset + k.bytes + 1) g.size = min (offset + 1) f.size + k.bytes := by omega
  rw [endLine, endLine, endsStatement_below habove, hstop, hspan]
  split <;> rfl

theorem add_below (s : Scanned) (start stop : Nat) (l : Lexeme) :
    (s.below k above).add g (start + k.bytes) (stop + k.bytes) l =
      (s.add f start stop l).below k above := by
  cases l with
  | token kind => simp only [add, below, hspan, List.map_cons, List.cons_append, Token.shift]
  | lineBreak => exact endLine_below habove hspan hsize s start
  | blank => rfl

theorem finish_below (s : Scanned) :
    (s.below k above).finish g = above.reverse ++ (s.finish f).map (Token.shift k) := by
  rw [finish, finish, hsize, endLine_below habove hspan hsize, hspan]
  simp [below, Token.shift]

/-- **Scanning a piece further down.** -/
theorem scanFrom_below (s : Scanned) (p : Place) :
    scanFrom g (s.below k above) (p.shift k.bytes) =
      ((scanFrom f s p).map fun ts => above.reverse ++ ts.map (Token.shift k)).mapError
        (ScanError.shift k.bytes) := by
  induction hn : p.rest.length using Nat.strongRecOn generalizing s p with
  | _ n ih =>
    rw [scanFrom_eq g, scanFrom_eq f, Place.rest_shift]
    cases hrest : p.rest with
    | nil =>
      simp only [finish_below habove hspan hsize]
      rfl
    | cons c rest =>
      simp only [Place.behind_shift, Place.offset_shift, lexeme_shift]
      cases hl : lexeme p.offset c (p.behind c rest) with
      | error e => rfl
      | ok r =>
        have hle := length_of_lexeme hl
        simp only [Place.behind_rest] at hle
        have hrec := ih r.2.rest.length (by rw [← hn, hrest, List.length_cons]; omega)
          (s.add f p.offset r.2.offset r.1) r.2 rfl
        rw [← add_below habove hspan hsize] at hrec
        exact hrec

end Below

end Scanned

end Formula
