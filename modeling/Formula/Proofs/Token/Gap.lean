import Formula.Proofs.Token.Places
import Mathlib.Data.String.Basic

/-!
# Between the tokens

What a text holds between its tokens, and where the scanner marks the end of a statement. Nothing is
lost: between two tokens there is only what a reader may skip. A mark stands between two tokens if
and only if the text breaks the line there, the token before ends a statement, and the innermost
bracket that is open is not a parenthesis.

## Main definitions

* `SourceFile.between`: the text between two offsets
* `Gap cs rest`: before `rest`, the characters `cs` are blanks and complete comments
* `Token.openAfter`: the brackets that tokens leave open
* `Token.Spaced f tokens`: how the tokens of `f` are spaced, and where ends of statements are marked

## Main results

* `gap_of_lexeme`: what the scanner skips is a gap, which it takes for a line break iff it holds one
* `Token.spaced_of_scan`: the tokens of a text are spaced so
-/

namespace Formula

open Text

/-! ## Stretches of a text -/

namespace SourceFile

/-- The text between two byte offsets. -/
def between (f : SourceFile) (start stop : Nat) : String :=
  String.Pos.Raw.extract f.text ⟨start⟩ ⟨stop⟩

/-- The place `p` is reached when the text is read from its start. -/
def Reaches (f : SourceFile) (p : Place) : Prop :=
  (Place.ofText f.text).Leads p

variable {f : SourceFile} {p q : Place}

theorem reaches_start (f : SourceFile) : f.Reaches (.ofText f.text) :=
  .refl _

theorem Reaches.trans (hp : f.Reaches p) (h : p.Leads q) : f.Reaches q :=
  Place.Leads.trans hp h

/-- The bytes before a place and those behind it make up the text. -/
theorem Reaches.total (hp : f.Reaches p) : p.offset + byteLength p.rest = f.size :=
  (Place.Leads.total hp).symm.trans ((Nat.zero_add _).trans (byteLength_toList f.text))

theorem utf8Len_eq (cs : List Char) : String.utf8Len cs = byteLength cs := by
  rw [← String.utf8ByteSize_ofList, ← byteLength_toList, String.toList_ofList]

/-- **What is read between two places** is the text between their offsets. -/
theorem Reaches.between_eq (hp : f.Reaches p) {cs : List Char} (hrest : p.rest = cs ++ q.rest)
    (hoffset : q.offset = p.offset + byteLength cs) :
    f.between p.offset q.offset = String.ofList cs := by
  obtain ⟨before, htext, hstart⟩ := hp
  have htotal : f.text = String.ofList (before ++ cs ++ q.rest) := by
    rw [List.append_assoc, ← hrest, ← String.ofList_toList (s := f.text)]
    exact congrArg String.ofList htext
  have hzero : p.offset = byteLength before := hstart.trans (Nat.zero_add _)
  rw [between, htotal, hoffset, hzero, ← utf8Len_eq, ← utf8Len_eq]
  exact String.extract_of_valid before cs q.rest

/-- What is left at a place is the text from its offset on. -/
theorem Reaches.between_size (hp : f.Reaches p) :
    f.between p.offset f.size = String.ofList p.rest := by
  have hq := hp.between_eq (q := ⟨f.size, []⟩) (List.append_nil _).symm hp.total.symm
  exact hq

end SourceFile

/-! ## Gaps -/

/-- **What may stand between tokens.** Before `rest`, the characters `cs` are blanks and complete
comments: a line comment goes on to a line feed or to the end of the text, and a block comment to
the first mark that closes it. -/
inductive Gap : List Char → List Char → Prop where
  | nil (rest : List Char) : Gap [] rest
  | blank {c : Char} {cs rest : List Char} (hc : isBlank c = true) (h : Gap cs rest) :
      Gap (c :: cs) rest
  | lineComment {body cs rest : List Char} (hbody : '\n' ∉ body)
      (hstop : ∀ c ∈ (cs ++ rest).head?, c = '\n') (h : Gap cs rest) :
      Gap ('/' :: '/' :: (body ++ cs)) rest
  | blockComment {body cs rest : List Char} (hbody : ¬ ['*', '/'] <:+: body) (h : Gap cs rest) :
      Gap ('/' :: '*' :: (body ++ '*' :: '/' :: cs)) rest

/-- A gap goes on with a gap. -/
theorem Gap.append {cs ds rest : List Char} (h : Gap cs (ds ++ rest)) (h' : Gap ds rest) :
    Gap (cs ++ ds) rest := by
  generalize hr : ds ++ rest = r at h
  induction h with
  | nil r => exact h'
  | blank hc _ ih => exact .blank hc (ih hr)
  | lineComment hbody hstop _ ih =>
    subst hr
    rw [List.cons_append, List.cons_append, List.append_assoc]
    exact .lineComment hbody (by rwa [List.append_assoc]) (ih rfl)
  | blockComment hbody _ ih =>
    rw [List.cons_append, List.cons_append, List.append_assoc, List.cons_append, List.cons_append]
    exact .blockComment hbody (ih hr)

/-! ## What the scanner skips -/

/-- What is read behind a character is read with it from where it stands. -/
theorem Place.read_cons {p q : Place} {c : Char} {rest cs : List Char} (hrest : p.rest = c :: rest)
    (hcs : rest = cs ++ q.rest) (hoffset : q.offset = (p.behind c rest).offset + byteLength cs) :
    p.rest = c :: cs ++ q.rest ∧ q.offset = p.offset + byteLength (c :: cs) := by
  refine ⟨hrest.trans (congrArg (List.cons c) hcs), ?_⟩
  rw [hoffset, byteLength_cons, behind_offset, Nat.add_assoc]

/-- Reading on stops at a character that does not satisfy the condition, or with the text. -/
theorem Place.takeWhileFrom_spec (keep : Char → Bool) (offset : Nat) (cs : List Char) :
    (∀ c ∈ (takeWhileFrom keep offset cs).1, keep c = true) ∧
      ∀ c ∈ (takeWhileFrom keep offset cs).2.rest.head?, keep c = false := by
  induction cs generalizing offset with
  | nil => simp [takeWhileFrom]
  | cons c cs ih =>
    simp only [takeWhileFrom]
    split
    · rename_i hc
      exact ⟨List.forall_mem_cons.mpr ⟨hc, (ih _).1⟩, (ih _).2⟩
    · rename_i hc
      refine ⟨List.forall_mem_nil _, ?_⟩
      rintro d ⟨⟩
      exact Bool.not_eq_true _ ▸ hc

/-- **A block comment ends at the first mark that closes it.** -/
theorem exists_of_blockComment? {broken b : Bool} {offset : Nat} {cs : List Char} {q : Place}
    (h : blockComment? broken offset cs = some (b, q)) :
    ∃ body, cs = body ++ '*' :: '/' :: q.rest ∧ ¬ ['*', '/'] <:+: body ∧
      (b = true ↔ broken = true ∨ '\n' ∈ body) := by
  fun_induction blockComment? broken offset cs with
  | case1 => cases h
  | case2 broken offset rest =>
    cases h
    exact ⟨[], rfl, by simp, by simp⟩
  | case3 broken offset c rest hopen ih =>
    obtain ⟨body, rfl, hbody, hb⟩ := ih h
    refine ⟨c :: body, rfl, ?_, ?_⟩
    · -- the mark would stand at the head, where the comment would have ended
      rw [List.infix_cons_iff]
      rintro (hhead | hinfix)
      · obtain ⟨ds, hds⟩ := hhead
        cases hds
        exact hopen _ rfl rfl
      · exact hbody hinfix
    · rw [hb, Bool.or_eq_true, beq_iff_eq, List.mem_cons, or_assoc, eq_comm (a := c)]

/-- What is read up to a line feed, behind two slashes, is a comment. -/
theorem gap_of_takeWhile {p : Place} (hslash : p.rest.head? = some '/') {cs : List Char}
    (hcs : p.rest = cs ++ (p.takeWhile (· != '\n')).2.rest) :
    Gap ('/' :: cs) (p.takeWhile (· != '\n')).2.rest ∧ '\n' ∉ '/' :: cs := by
  obtain ⟨hkeep, hstop⟩ := Place.takeWhileFrom_spec (· != '\n') p.offset p.rest
  have htaken : (p.takeWhile (· != '\n')).1 = cs :=
    List.append_cancel_right ((p.takeWhile_append _).trans hcs)
  rw [← Place.takeWhile] at hkeep hstop
  rw [htaken] at hkeep
  cases cs with
  | nil =>
    -- nothing was read, though a slash comes next
    rw [List.nil_append] at hcs
    rw [← hcs] at hstop
    exact absurd (hstop '/' hslash) (by decide)
  | cons d body =>
    rw [hcs] at hslash
    obtain rfl : d = '/' := Option.some.inj hslash
    have hbody : '\n' ∉ body := fun hmem => by simpa using hkeep _ (List.mem_cons_of_mem _ hmem)
    refine ⟨?_, by simpa using hbody⟩
    have hgap : Gap ('/' :: '/' :: (body ++ [])) (p.takeWhile (· != '\n')).2.rest :=
      .lineComment hbody (fun c hc => by simpa using hstop c hc) (.nil _)
    rwa [List.append_nil] at hgap

/-- What is read by a block comment is one. -/
theorem gap_of_commentAt {start : Nat} {p q : Place} {l : Lexeme} {cs : List Char}
    (h : commentAt start p = .ok (l, q)) (hcs : p.rest = cs ++ q.rest) :
    Gap ('/' :: '*' :: cs) q.rest ∧ (l = .lineBreak ↔ '\n' ∈ '/' :: '*' :: cs) := by
  simp only [commentAt] at h
  split at h
  · rename_i broken r hr
    cases h
    obtain ⟨body, hbody, hopen, hbroken⟩ := exists_of_blockComment? hr
    obtain rfl : cs = body ++ ['*', '/'] := by
      refine List.append_cancel_right (hcs.symm.trans (hbody.trans ?_))
      rw [List.append_assoc]
      rfl
    refine ⟨.blockComment hopen (.nil _), ?_⟩
    cases broken <;> simp_all
  · cases h

/-- **What the scanner skips is a gap**, and it takes it for a line break iff there is a line feed
in it. -/
theorem gap_of_lexeme {start : Nat} {c : Char} {p q : Place} {l : Lexeme}
    (h : lexeme start c p = .ok (l, q)) {cs : List Char} (hcs : p.rest = cs ++ q.rest)
    (hl : ∀ k, l ≠ .token k) :
    Gap (c :: cs) q.rest ∧ (l = .lineBreak ↔ '\n' ∈ c :: cs) := by
  have hself {r : Place} (hr : r.rest = cs ++ r.rest) : cs = [] :=
    List.self_eq_append_left.mp hr
  cases LexemeAt.of_lexeme h with
  | lineBreak hc =>
    rw [hself hcs, hc]
    exact ⟨.blank rfl (.nil _), by simp⟩
  | blank hblank hne =>
    rw [hself hcs]
    exact ⟨.blank hblank (.nil _), by simp [Ne.symm hne]⟩
  | lineComment hc hnext =>
    subst hc
    obtain ⟨hgap, hnone⟩ := gap_of_takeWhile hnext hcs
    exact ⟨hgap, by simpa using hnone⟩
  | comment hc hnext hread =>
    subst hc
    obtain ⟨more, hmore⟩ := List.head?_eq_some_iff.mp hnext
    rw [hmore] at hread hcs
    -- the star belongs to the mark that opens the comment
    cases cs with
    | nil =>
      have hle := length_of_commentAt hread
      rw [← List.nil_append q.rest, ← hcs] at hle
      simp at hle
    | cons d cs =>
      obtain ⟨rfl, htail⟩ := List.cons.inj hcs
      exact gap_of_commentAt hread htail
  | number | fraction | word | string | rawString | symbol => exact absurd rfl (hl _)

/-! ## How tokens are spaced -/

/-- The text between two offsets is a gap. -/
def SourceFile.IsGap (f : SourceFile) (start stop : Nat) : Prop :=
  Gap (f.between start stop).toList (f.between stop f.size).toList

namespace Token

/-- The brackets that tokens leave open, the innermost one first. A closing bracket closes the
innermost one if that is of its own kind, and is otherwise ignored. -/
def openAfter (tokens : List Token) : List Symbol :=
  tokens.foldl (fun groups t => Scanned.groupsAfter groups t.kind) []

/-- The statement ends if the line does behind `t`, which follows the tokens `before`. -/
def EndsAt (before : List Token) (t : Token) : Prop :=
  t.kind.endsStatement = true ∧ (openAfter (before ++ [t])).head? ≠ some .lparen

/-- **How the tokens of a text are spaced.** -/
structure Spaced (f : SourceFile) (tokens : List Token) : Prop where
  /-- Before the first token there is a gap, and it is no mark of a line that ends. -/
  first : ∀ t ∈ tokens.head?, t.kind ≠ .newline ∧ f.IsGap 0 t.span.start.offset
  /-- Between two tokens with marks at most between them, there is a gap. There is one mark if the
  statement can end behind the first of them and the gap breaks the line or is the last one, and
  there is none otherwise. -/
  next : ∀ {before marks after : List Token} {t u : Token},
    tokens = before ++ t :: (marks ++ u :: after) → t.kind ≠ .newline → u.kind ≠ .newline →
    (∀ m ∈ marks, m.kind = .newline) →
    f.IsGap t.span.stop.offset u.span.start.offset ∧ marks.length ≤ 1 ∧
      (marks.length = 1 ↔ EndsAt before t ∧
        ('\n' ∈ (f.between t.span.stop.offset u.span.start.offset).toList ∨ after = []))
  /-- The last token stands at the end of the text. -/
  last : ∀ t ∈ tokens.getLast?, t.span.start.offset = f.size

theorem openAfter_concat (tokens : List Token) (t : Token) :
    openAfter (tokens ++ [t]) = Scanned.groupsAfter (openAfter tokens) t.kind :=
  List.foldl_append

end Token

/-! ## Gaps up to a place -/

/-- From the offset `start` on, the gap `cs` is read up to the place `p`. -/
structure SourceFile.Skips (f : SourceFile) (start : Nat) (cs : List Char) (p : Place) : Prop where
  reaches : ∃ r : Place, f.Reaches r ∧ r.offset = start ∧ r.rest = cs ++ p.rest
  offset_eq : p.offset = start + byteLength cs
  gap : Gap cs p.rest

namespace SourceFile

variable {f : SourceFile} {p q : Place} {start : Nat} {cs ds : List Char}

theorem Reaches.skips_nil (hp : f.Reaches p) : f.Skips p.offset [] p :=
  ⟨⟨p, hp, rfl, rfl⟩, rfl, .nil _⟩

/-- A gap goes on up to a later place. -/
theorem Skips.append (h : f.Skips start cs p) (hrest : p.rest = ds ++ q.rest)
    (hoffset : q.offset = p.offset + byteLength ds) (hgap : Gap ds q.rest) :
    f.Skips start (cs ++ ds) q where
  reaches := by
    obtain ⟨r, hr, hstart, hcs⟩ := h.reaches
    exact ⟨r, hr, hstart, by rw [hcs, hrest, List.append_assoc]⟩
  offset_eq := by rw [hoffset, h.offset_eq, byteLength_append, Nat.add_assoc]
  gap := .append (hrest ▸ h.gap) hgap

/-- What is skipped is the text between the offsets, which is a gap. -/
theorem Skips.isGap (h : f.Skips start cs p) :
    f.IsGap start p.offset ∧ (f.between start p.offset).toList = cs := by
  obtain ⟨r, hr, rfl, hcs⟩ := h.reaches
  have hp : f.Reaches p := hr.trans ⟨cs, hcs, h.offset_eq⟩
  have hbetween : (f.between r.offset p.offset).toList = cs := by
    rw [hr.between_eq hcs h.offset_eq, String.toList_ofList]
  refine ⟨?_, hbetween⟩
  rw [IsGap, hbetween, hp.between_size, String.toList_ofList]
  exact h.gap

end SourceFile

/-! ## What has been read is spaced -/

open Token

/-- What has been read up to the place `p` is spaced so; the last token comes first. -/
structure Scanned.SpacedTo (f : SourceFile) (s : Scanned) (p : Place) : Prop where
  groups_eq : s.groups = openAfter s.tokens.reverse
  first : ∀ t ∈ s.tokens.getLast?, t.kind ≠ .newline ∧ f.IsGap 0 t.span.start.offset
  next : ∀ {before marks after : List Token} {t u : Token},
    s.tokens = after ++ u :: (marks ++ t :: before) → t.kind ≠ .newline → u.kind ≠ .newline →
    (∀ m ∈ marks, m.kind = .newline) →
    f.IsGap t.span.stop.offset u.span.start.offset ∧ marks.length ≤ 1 ∧
      (marks.length = 1 ↔ EndsAt before.reverse t ∧
        '\n' ∈ (f.between t.span.stop.offset u.span.start.offset).toList)
  /-- Behind the last token there is a gap up to the place. -/
  behind : ∀ {before marks : List Token} {t : Token},
    s.tokens = marks ++ t :: before → t.kind ≠ .newline → (∀ m ∈ marks, m.kind = .newline) →
    ∃ cs, f.Skips t.span.stop.offset cs p ∧ marks.length ≤ 1 ∧
      (marks.length = 1 ↔ EndsAt before.reverse t ∧ '\n' ∈ cs)
  /-- Before any token there is one from the start of the text on. -/
  start : s.tokens = [] → ∃ cs, f.Skips 0 cs p

namespace Scanned

variable {f : SourceFile} {s : Scanned} {p q : Place} {cs : List Char}

theorem spacedTo_start (f : SourceFile) : SpacedTo f {} (.ofText f.text) where
  groups_eq := rfl
  first := nofun
  next h := by simp at h
  behind h := by simp at h
  start _ := ⟨[], (SourceFile.reaches_start f).skips_nil⟩

/-- A line break ends a statement here if it does behind the last token. -/
theorem SpacedTo.endsStatement_iff (h : s.SpacedTo f p) : s.endsStatement = true ↔
    ∃ t before, s.tokens = t :: before ∧ EndsAt before.reverse t := by
  rw [endsStatement, h.groups_eq]
  cases hs : s.tokens with
  | nil => simp
  | cons t before => simp [EndsAt, and_comm]

/-- **A token is added** where the gap ends. -/
theorem SpacedTo.token (h : s.SpacedTo f p) (hq : f.Reaches q) {kind : TokenKind}
    (hkind : kind ≠ .newline) : (s.add f p.offset q.offset (.token kind)).SpacedTo f q where
  groups_eq := by
    rw [add, List.reverse_cons, openAfter_concat, ← h.groups_eq]
  first t ht := by
    cases hs : s.tokens with
    | nil =>
      obtain ⟨cs, hcs⟩ := h.start hs
      rw [add, hs] at ht
      cases ht
      exact ⟨hkind, hcs.isGap.1⟩
    | cons u before =>
      rw [add, hs, List.getLast?_cons_cons, ← hs] at ht
      exact h.first t ht
  next {before marks after t u} heq ht hu hmarks := by
    cases after with
    | nil =>
      obtain ⟨rfl, hs⟩ := List.cons.inj heq
      obtain ⟨cs, hcs, hle, hone⟩ := h.behind hs ht hmarks
      exact ⟨hcs.isGap.1, hle, by rw [hone]; exact hcs.isGap.2 ▸ Iff.rfl⟩
    | cons v after => exact h.next (List.cons.inj heq).2 ht hu hmarks
  behind {before marks t} heq ht hmarks := by
    cases marks with
    | nil =>
      obtain ⟨rfl, rfl⟩ := List.cons.inj heq
      exact ⟨[], hq.skips_nil, by simp, by simp⟩
    | cons m marks =>
      -- the token that was added is no mark
      obtain ⟨rfl, -⟩ := List.cons.inj heq
      exact absurd (hmarks _ List.mem_cons_self) hkind
  start h := by cases h

/-- **Where a line ends**, there is one mark behind the last token if the statement ends there, and
none otherwise. -/
theorem SpacedTo.marks_endLine (h : s.SpacedTo f p) (offset : Nat) {before marks : List Token}
    {t : Token} (heq : (s.endLine f offset).tokens = marks ++ t :: before)
    (ht : t.kind ≠ .newline) (hmarks : ∀ m ∈ marks, m.kind = .newline) :
    marks.length ≤ 1 ∧ (marks.length = 1 ↔ EndsAt before.reverse t) ∧
      ∃ cs, f.Skips t.span.stop.offset cs p := by
  unfold endLine at heq
  split at heq
  · rename_i hends
    obtain ⟨u, us, hs, hu⟩ := h.endsStatement_iff.mp hends
    have hsolid : u.kind ≠ .newline := fun hk => by simp [EndsAt, hk, TokenKind.endsStatement] at hu
    cases marks with
    | nil =>
      obtain ⟨rfl, -⟩ := List.cons.inj heq
      exact absurd rfl ht
    | cons m marks =>
      have htail := (List.cons.inj heq).2
      rw [hs] at htail
      cases marks with
      | nil =>
        obtain ⟨rfl, rfl⟩ := List.cons.inj htail
        have hlast : s.tokens = [] ++ u :: us := hs
        obtain ⟨cs, hcs, -⟩ := h.behind hlast ht nofun
        exact ⟨Nat.le_refl 1, by simpa using hu, cs, hcs⟩
      | cons m' marks =>
        -- a mark ends no statement, so there is none yet
        obtain ⟨rfl, -⟩ := List.cons.inj htail
        exact absurd (hmarks _ (by simp)) hsolid
  · rename_i hends
    obtain ⟨cs, hcs, hle, hone⟩ := h.behind heq ht hmarks
    refine ⟨hle, ⟨fun h1 => (hone.mp h1).1, fun hends' => ?_⟩, cs, hcs⟩
    -- the statement ends behind the token, but not here: its mark is there already
    cases marks with
    | nil => exact absurd (h.endsStatement_iff.mpr ⟨t, before, heq, hends'⟩) hends
    | cons m marks =>
      rw [List.length_cons] at hle ⊢
      omega

/-- What was there before a line ends is there behind it. -/
theorem exists_of_endLine {offset : Nat} {before after : List Token} {u : Token}
    (heq : (s.endLine f offset).tokens = after ++ u :: before) (hu : u.kind ≠ .newline) :
    ∃ after', s.tokens = after' ++ u :: before := by
  unfold endLine at heq
  split at heq
  · cases after with
    | nil =>
      obtain ⟨rfl, -⟩ := List.cons.inj heq
      exact absurd rfl hu
    | cons v after => exact ⟨after, (List.cons.inj heq).2⟩
  · exact ⟨after, heq⟩

theorem getLast?_endLine (offset : Nat) (s : Scanned) :
    (s.endLine f offset).tokens.getLast? = s.tokens.getLast? := by
  unfold endLine
  split
  · rename_i hends
    cases hs : s.tokens with
    | nil => simp [endsStatement, hs] at hends
    | cons t before => exact List.getLast?_cons_cons
  · rfl

theorem groups_endLine (offset : Nat) (h : s.groups = openAfter s.tokens.reverse) :
    (s.endLine f offset).groups = openAfter (s.endLine f offset).tokens.reverse := by
  unfold endLine
  split
  · rw [List.reverse_cons, openAfter_concat]
    exact h
  · exact h

/-- **A line break is skipped.** -/
theorem SpacedTo.lineBreak (h : s.SpacedTo f p) (hrest : p.rest = cs ++ q.rest)
    (hoffset : q.offset = p.offset + byteLength cs) (hgap : Gap cs q.rest) (hline : '\n' ∈ cs) :
    (s.add f p.offset q.offset .lineBreak).SpacedTo f q where
  groups_eq := groups_endLine _ h.groups_eq
  first t ht := h.first t (getLast?_endLine (f := f) p.offset s ▸ ht)
  next heq ht hu hmarks := by
    obtain ⟨after', hs⟩ := exists_of_endLine heq hu
    exact h.next hs ht hu hmarks
  behind heq ht hmarks := by
    obtain ⟨hle, hone, ds, hds⟩ := h.marks_endLine p.offset heq ht hmarks
    exact ⟨ds ++ cs, hds.append hrest hoffset hgap, hle, by simp [hone, hline]⟩
  start hs := by
    have hnil : s.tokens = [] := by
      rw [← List.getLast?_eq_none_iff, ← getLast?_endLine (f := f) p.offset,
        List.getLast?_eq_none_iff]
      exact hs
    obtain ⟨ds, hds⟩ := h.start hnil
    exact ⟨ds ++ cs, hds.append hrest hoffset hgap⟩

/-- **A blank is skipped.** -/
theorem SpacedTo.blank (h : s.SpacedTo f p) (hrest : p.rest = cs ++ q.rest)
    (hoffset : q.offset = p.offset + byteLength cs) (hgap : Gap cs q.rest) (hline : '\n' ∉ cs) :
    s.SpacedTo f q :=
  { h with
    behind := fun heq ht hmarks => by
      obtain ⟨ds, hds, hle, hone⟩ := h.behind heq ht hmarks
      exact ⟨ds ++ cs, hds.append hrest hoffset hgap, hle, by simp [hone, hline]⟩
    start := fun hs => by
      obtain ⟨ds, hds⟩ := h.start hs
      exact ⟨ds ++ cs, hds.append hrest hoffset hgap⟩ }

/-- At the end of the text the last line ends. -/
theorem SpacedTo.finish (h : s.SpacedTo f p) (hp : p.offset = f.size) :
    Token.Spaced f (s.finish f) where
  first t ht := by
    rw [Scanned.finish, List.head?_reverse, List.getLast?_cons, getLast?_endLine] at ht
    cases hs : s.tokens.getLast? with
    | none =>
      obtain ⟨cs, hcs⟩ := h.start (List.getLast?_eq_none_iff.mp hs)
      rw [hs] at ht
      cases ht
      exact ⟨by rintro ⟨⟩, hp ▸ hcs.isGap.1⟩
    | some u =>
      rw [hs] at ht
      cases ht
      exact h.first u hs
  next {before marks after t u} heq ht hu hmarks := by
    have hrev : ⟨.eof, f.span f.size f.size⟩ :: (s.endLine f f.size).tokens =
        after.reverse ++ u :: (marks.reverse ++ t :: before.reverse) := by
      rw [Scanned.finish, List.reverse_eq_iff] at heq
      simpa using heq
    have hmarks' : ∀ m ∈ marks.reverse, m.kind = .newline := by simpa using hmarks
    -- the second token is the end of the text, before which the last line ends, or one that was read
    rcases List.eq_nil_or_concat after with rfl | ⟨after, v, rfl⟩
    · obtain ⟨rfl, htail⟩ := List.cons.inj hrev
      obtain ⟨hle, hone, cs, hcs⟩ := h.marks_endLine f.size htail ht hmarks'
      rw [List.length_reverse, List.reverse_reverse] at *
      exact ⟨hp ▸ hcs.isGap.1, hle, by simpa using hone⟩
    · rw [List.concat_eq_append, List.reverse_append] at hrev
      obtain ⟨after', hs⟩ := exists_of_endLine (List.cons.inj hrev).2 hu
      have hnext := h.next hs ht hu hmarks'
      rw [List.length_reverse, List.reverse_reverse] at hnext
      simpa using hnext
  last t ht := by
    rw [Scanned.finish, List.getLast?_reverse] at ht
    cases ht
    rfl

/-- **What is scanned from a place on goes on so.** -/
theorem SpacedTo.scanFrom {tokens : List Token} (h : s.SpacedTo f p) (hp : f.Reaches p)
    (hscan : scanFrom f s p = .ok tokens) : Token.Spaced f tokens := by
  -- the induction is on the lexemes; what has been read so far is spaced before each of them
  fun_induction Scanned.scanFrom f s p with
  | case1 s p hrest =>
    cases hscan
    have htotal := hp.total
    rw [hrest] at htotal
    exact h.finish htotal
  | case2 => cases hscan
  | case3 s p c rest hrest l q hl ih =>
    have hbehind := Place.leads_behind hrest
    obtain ⟨cs, hcs, hoffset⟩ := Place.leads_of_lexeme hl
    have hq : f.Reaches q := hp.trans (hbehind.trans ⟨cs, hcs, hoffset⟩)
    refine ih ?_ hq hscan
    obtain ⟨hrest', hoffset'⟩ := Place.read_cons hrest hcs hoffset
    cases l with
    | token kind =>
      have hmark := isMark_of_lexeme hl
      exact h.token hq fun hkind => by simp [hkind, TokenKind.isMark] at hmark
    | lineBreak =>
      obtain ⟨hgap, hline⟩ := gap_of_lexeme hl hcs (by rintro _ ⟨⟩)
      exact h.lineBreak hrest' hoffset' hgap (hline.mp rfl)
    | blank =>
      obtain ⟨hgap, hline⟩ := gap_of_lexeme hl hcs (by rintro _ ⟨⟩)
      refine h.blank hrest' hoffset' hgap fun hmem => ?_
      cases hline.mpr hmem

end Scanned

/-- **Scanning loses nothing, and marks the ends of statements where it should.** -/
theorem Token.spaced_of_scan {f : SourceFile} {tokens : List Token}
    (h : Token.scan f = .ok tokens) : Token.Row tokens ∧ Token.Spaced f tokens :=
  ⟨Token.row_of_scan h,
    (Scanned.spacedTo_start f).scanFrom (SourceFile.reaches_start f) h⟩

/-- Inside the parenthesis a line feed ends no statement, and the brace that comes next closes
nothing. Behind the parenthesis, the line feed of the comment ends a statement, and so does the end
of the text. -/
theorem Token.spaced_of_scan_comment : ∃ tokens,
    Token.scan (.ofText 0 "" "f(\n1\x7d\n) /* a\nb */ // c\nx") = .ok tokens ∧
      tokens.map (fun t => (t.span.start.offset, t.kind.isMark)) = [(0, false), (1, false),
        (3, false), (4, false), (6, false), (8, true), (23, false), (24, true), (24, true)] ∧
      Token.Row tokens ∧
      Token.Spaced (.ofText 0 "" "f(\n1\x7d\n) /* a\nb */ // c\nx") tokens := by
  have hmarks : (Token.scan (.ofText 0 "" "f(\n1\x7d\n) /* a\nb */ // c\nx")).toOption.map
      (fun tokens => tokens.map fun t => (t.span.start.offset, t.kind.isMark)) =
        some [(0, false), (1, false), (3, false), (4, false), (6, false), (8, true), (23, false),
          (24, true), (24, true)] := by
    decide +kernel
  rcases hscan : Token.scan (.ofText 0 "" "f(\n1\x7d\n) /* a\nb */ // c\nx") with e | tokens
  · rw [hscan] at hmarks
    cases hmarks
  · rw [hscan] at hmarks
    exact ⟨tokens, rfl, Option.some.inj hmarks, Token.spaced_of_scan hscan⟩

end Formula
