import Formula.Proofs.Registry.Parsing

/-!
# The entry function that returns a variable

The formula `return v` is written as an entry function of three lines. Its tokens are parsed as a
function that returns the variable.

## Main definitions

* `entryKinds`: the tokens of that function
* `FunctionDecl.Returns`: a function is that function

## Main results

* `lines_entry`: the lines of the function hold its tokens
* `Parse.declarations_of_entryKinds`: the tokens are parsed as the function
-/

namespace Formula

open Text

/-! ## The text -/

theorem trimLines_of_notMem {s : String} (h : '\n' ∉ s.toList) : trimLines s = s := by
  have hkeep : ∀ cs : List Char, '\n' ∉ cs → cs.dropWhile (· == '\n') = cs := by
    intro cs hcs
    cases cs with
    | nil => rfl
    | cons c cs =>
      have hc : c ≠ '\n' := fun heq => hcs (heq ▸ List.mem_cons_self)
      simp [hc]
  rw [trimLines, hkeep _ h, hkeep _ (by simpa using h), List.reverse_reverse, String.ofList_toList]

/-- No character of a word is a line feed. -/
theorem notMem_of_isWord {cs : List Char} (h : isWord cs = true) : '\n' ∉ cs := by
  cases cs with
  | nil => simp
  | cons c cs =>
    simp only [isWord, Bool.and_eq_true, List.all_eq_true] at h
    rintro hmem
    rcases List.mem_cons.mp hmem with heq | hmem
    · rw [← heq] at h
      exact absurd h.1 (by decide)
    · exact absurd (h.2 _ hmem) (by decide)

/-- The tokens of the entry function that returns a variable. -/
def entryKinds (name : String) : List TokenKind :=
  [.keyword .funcK, .identifier defaultEntryPoint, .symbol .lparen, .symbol .rparen,
    .symbol .lbrace, .keyword .returnK, .identifier name, .newline, .symbol .rbrace, .newline]

/-- What is read of a line up to its end. -/
theorem Outline.read_broken {ls : List Lexeme} (hls : .lineBreak ∉ ls) (o : Outline) :
    o.read (ls ++ [.lineBreak]) = Outline.add ⟨(ls.filterMap Lexeme.kind?).reverse ++ o.kinds,
      groupsBehind (ls.filterMap Lexeme.kind?) o.groups⟩ .lineBreak := by
  rw [read_append, read_of_notMem hls]
  rfl

/-- A sign that is no start of a longer one stands for itself. -/
theorem spelled_symbol {c : Char} {s : Symbol} (hone : symbolOfOne? c = some s)
    (htwo : ∀ d, symbolOfTwo? c d = none) (hslash : c ≠ '/') (hdot : c ≠ '.') (rest : List Char) :
    Spelled [c] rest [.symbol s] :=
  .token (lexes_symbol hone (fun d _ => htwo d) hslash hdot)

theorem spelled_lbrace (rest : List Char) : Spelled ['\x7b'] rest [.symbol .lbrace] :=
  spelled_symbol rfl (fun d => by unfold symbolOfTwo?; split <;> simp_all) (by decide) (by decide) rest

theorem spelled_rbrace (rest : List Char) : Spelled ['\x7d'] rest [.symbol .rbrace] :=
  spelled_symbol rfl (fun d => by unfold symbolOfTwo?; split <;> simp_all) (by decide) (by decide) rest

/-- **The entry function that returns a variable** as lines. -/
theorem lines_entry {name : String} (hname : IsName name) :
    Lines ("func " ++ defaultEntryPoint ++ "() \x7b\n" ++ trimLines ("return " ++ name) ++
      "\n\x7d\n").toList (entryKinds name) := by
  have hformula : trimLines ("return " ++ name) = "return " ++ name := by
    refine trimLines_of_notMem ?_
    have := notMem_of_isWord hname.word
    simp [this]
  have htext : ("func " ++ defaultEntryPoint ++ "() \x7b\n" ++ ("return " ++ name) ++
      "\n\x7d\n").toList =
      ("func".toList ++ [' '] ++ (defaultEntryPoint.toList ++ (['('] ++ ([')'] ++ ([' '] ++
        ['\x7b']))))) ++ ['\n'] ++ (("return".toList ++ [' '] ++ name.toList) ++ ['\n'] ++
        (['\x7d'] ++ ['\n'])) := by
    simp [defaultEntryPoint]
  have hfirst : ∀ rest, Spelled ("func".toList ++ [' '] ++ (defaultEntryPoint.toList ++ (['('] ++
      ([')'] ++ ([' '] ++ ['\x7b']))))) ('\n' :: rest) [.keyword .funcK, .identifier defaultEntryPoint,
        .symbol .lparen, .symbol .rparen, .symbol .lbrace] := fun rest =>
    .append (k := [_]) (spelled_word_space (s := "func") (by decide) _)
      (.append (k := [_]) (spelled_word (s := defaultEntryPoint) (by decide) (by decide) _)
        (.append (k := [_]) (spelled_paren _).1 (.append (k := [_]) (spelled_paren _).2
          (.append (k := []) (.space _) (spelled_lbrace _)))))
  have hsecond : ∀ rest, Spelled ("return".toList ++ [' '] ++ name.toList) ('\n' :: rest)
      [.keyword .returnK, .identifier name] := fun rest =>
    .append (k := [_]) (spelled_word_space (s := "return") (by decide) _)
      (hname.wordKind_eq ▸ spelled_word hname.word (by decide) rest)
  rw [hformula, htext]
  refine ⟨?_, fun rest => ?_⟩
  · rw [← List.append_assoc, ← List.append_assoc]
    exact Lines.getLast?_line _
  obtain ⟨ls₁, hls₁, hbreak₁, hkinds₁⟩ := hfirst (("return".toList ++ [' '] ++ name.toList) ++
    ['\n'] ++ (['\x7d'] ++ ['\n']) ++ rest)
  obtain ⟨ls₂, hls₂, hbreak₂, hkinds₂⟩ := hsecond (['\x7d'] ++ ['\n'] ++ rest)
  obtain ⟨ls₃, hls₃, hbreak₃, hkinds₃⟩ := spelled_rbrace ('\n' :: rest)
  refine ⟨ls₁ ++ [.lineBreak] ++ (ls₂ ++ [.lineBreak] ++ (ls₃ ++ [.lineBreak])), ?_, ?_⟩
  · exact .append (hls₁.append (lexes_lineBreak _)) (.append (hls₂.append (lexes_lineBreak _))
      (hls₃.append (lexes_lineBreak _)))
  · rintro ⟨kinds, groups⟩ ho
    obtain rfl : groups = [] := ho.groups
    rw [Outline.read_append, Outline.read_append, Outline.read_broken hbreak₁,
      Outline.read_broken hbreak₂, Outline.read_broken hbreak₃, hkinds₁, hkinds₂, hkinds₃]
    exact ⟨⟨rfl, rfl⟩, rfl⟩

/-! ## The program -/

/-- The entry function that returns a variable. -/
structure FunctionDecl.Returns (d : FunctionDecl) (name : String) : Prop where
  name_eq : d.name = defaultEntryPoint
  params : d.params = []
  result : d.result = none
  body : ∃ s t u, d.body = .mk [.ret (some (.identifier name s)) t] u

namespace Parse

open Level

/-- An empty list of parameters without a result type. -/
theorem signature_empty (b s₁ s₂ s₃ : Span) (ts : List Token) :
    signature ⟨b, ⟨.symbol .lparen, s₁⟩, ⟨.symbol .rparen, s₂⟩ :: ⟨.symbol .lbrace, s₃⟩ :: ts⟩ =
      .ok (([], none), ⟨s₂, ⟨.symbol .lbrace, s₃⟩, ts⟩) := by
  have hsymbol : symbol .lparen .parameterListOpen
      ⟨b, ⟨.symbol .lparen, s₁⟩, ⟨.symbol .rparen, s₂⟩ :: ⟨.symbol .lbrace, s₃⟩ :: ts⟩ =
      .ok (⟨.symbol .lparen, s₁⟩, ⟨s₁, ⟨.symbol .rparen, s₂⟩, ⟨.symbol .lbrace, s₃⟩ :: ts⟩) := rfl
  have hcollect : collect parameterName
      ⟨s₁, ⟨.symbol .rparen, s₂⟩, ⟨.symbol .lbrace, s₃⟩ :: ts⟩ =
      .ok ([], ⟨s₁, ⟨.symbol .rparen, s₂⟩, ⟨.symbol .lbrace, s₃⟩ :: ts⟩) := collect_of_none rfl
  unfold signature
  simp only [bind, StateT.bind, hsymbol, Except.bind, hcollect]
  rfl

/-- Reads one statement of a block, behind separators, unless the block is at its end. -/
def statementRound (level : Level) : Parse (Option (Stmt × Bool)) := do
  skipSeparators
  if ← peek (fun c => c.isSymbol .rbrace || c.isEof) then return none
  let s ← level.statement
  if !(← peek (·.isSymbol .rbrace)) then terminator .statementEnd
  return some (s, true)

theorem blockUnder_eq (level : Level) (b s : Span) (t : Token) (ts : List Token) :
    blockUnder (some level) ⟨b, ⟨.symbol .lbrace, s⟩, t :: ts⟩ =
      (collect (statementRound level) ⟨s, t, ts⟩ >>= fun r => symbol .rbrace .blockClose r.2 >>=
        fun r' => pure (.mk r.1 (s.join r'.2.before), r'.2)) :=
  rfl

/-- A block that returns a variable. -/
theorem block_return (n : Nat) (b s s₁ s₂ s₃ s₄ s₅ : Span) (name : String) (ts : List Token) :
    blockUnder (some (withRemaining (n + 5))) ⟨b, ⟨.symbol .lbrace, s⟩, ⟨.keyword .returnK, s₁⟩ ::
        ⟨.identifier name, s₂⟩ :: ⟨.newline, s₃⟩ :: ⟨.symbol .rbrace, s₄⟩ :: ⟨.newline, s₅⟩ :: ts⟩ =
      .ok (.mk [.ret (some (.identifier name s₂)) (s₁.join s₂)] (s.join s₄),
        ⟨s₄, ⟨.newline, s₅⟩, ts⟩) := by
  have hround : statementRound (withRemaining (n + 5)) ⟨s, ⟨.keyword .returnK, s₁⟩,
      ⟨.identifier name, s₂⟩ :: ⟨.newline, s₃⟩ :: ⟨.symbol .rbrace, s₄⟩ :: ⟨.newline, s₅⟩ :: ts⟩ =
      .ok (some (.ret (some (.identifier name s₂)) (s₁.join s₂), true),
        ⟨s₃, ⟨.symbol .rbrace, s₄⟩, ⟨.newline, s₅⟩ :: ts⟩) := rfl
  have hend : statementRound (withRemaining (n + 5)) ⟨s₃, ⟨.symbol .rbrace, s₄⟩,
      ⟨.newline, s₅⟩ :: ts⟩ = .ok (none, ⟨s₃, ⟨.symbol .rbrace, s₄⟩, ⟨.newline, s₅⟩ :: ts⟩) := rfl
  rw [blockUnder_eq, collect_of_some hround (by simp [Cursor.left]), collect_of_none hend]
  rfl

/-- **The lines of the entry function are parsed as it.** -/
theorem declarations_of_entryKinds {name : String} {c : Cursor}
    (hc : c.kinds = entryKinds name ++ [.eof]) :
    ∃ d c', declarations c = .ok ([.item (.function d)], c') ∧ d.Returns name := by
  obtain ⟨b, s, rest, rfl, h₁⟩ := Cursor.exists_of_kinds hc
  obtain ⟨s₁, ts₁, rfl, h₂⟩ := exists_tokens h₁
  obtain ⟨s₂, ts₂, rfl, h₃⟩ := exists_tokens h₂
  obtain ⟨s₃, ts₃, rfl, h₄⟩ := exists_tokens h₃
  obtain ⟨s₄, ts₄, rfl, h₅⟩ := exists_tokens h₄
  obtain ⟨s₅, ts₅, rfl, h₆⟩ := exists_tokens h₅
  obtain ⟨s₆, ts₆, rfl, h₇⟩ := exists_tokens h₆
  obtain ⟨s₇, ts₇, rfl, h₈⟩ := exists_tokens h₇
  obtain ⟨s₈, ts₈, rfl, h₉⟩ := exists_tokens h₈
  obtain ⟨s₉, ts₉, rfl, h₁₀⟩ := exists_tokens h₉
  obtain ⟨s₁₀, ts₁₀, rfl, h₁₁⟩ := exists_tokens h₁₀
  obtain rfl := List.map_eq_nil_iff.mp h₁₁
  obtain ⟨d, hd⟩ : ∃ d : FunctionDecl, d = ⟨defaultEntryPoint, [], none,
    .mk [.ret (some (.identifier name s₆)) (s₅.join s₆)] (s₄.join s₈), s⟩ := ⟨_, rfl⟩
  have hfunction : functionDecl ⟨b, ⟨.keyword .funcK, s⟩, ⟨.identifier defaultEntryPoint, s₁⟩ ::
      ⟨.symbol .lparen, s₂⟩ :: ⟨.symbol .rparen, s₃⟩ :: ⟨.symbol .lbrace, s₄⟩ ::
      ⟨.keyword .returnK, s₅⟩ :: ⟨.identifier name, s₆⟩ :: ⟨.newline, s₇⟩ ::
      ⟨.symbol .rbrace, s₈⟩ :: ⟨.newline, s₉⟩ :: [⟨.eof, s₁₀⟩]⟩ =
      .ok (d, ⟨s₈, ⟨.newline, s₉⟩, [⟨.eof, s₁₀⟩]⟩) := by
    have hblock : Level.top.block = blockUnder (some (withRemaining (94 + 5))) := rfl
    unfold functionDecl
    simp only [bind, StateT.bind, next, Cursor.advance, identifier, Cursor.kind, Except.bind,
      signature_empty, hblock, block_return, hd]
    rfl
  have hdeclaration : declaration ⟨b, ⟨.keyword .funcK, s⟩, ⟨.identifier defaultEntryPoint, s₁⟩ ::
      ⟨.symbol .lparen, s₂⟩ :: ⟨.symbol .rparen, s₃⟩ :: ⟨.symbol .lbrace, s₄⟩ ::
      ⟨.keyword .returnK, s₅⟩ :: ⟨.identifier name, s₆⟩ :: ⟨.newline, s₇⟩ ::
      ⟨.symbol .rbrace, s₈⟩ :: ⟨.newline, s₉⟩ :: [⟨.eof, s₁₀⟩]⟩ =
      .ok (.item (.function d), ⟨s₈, ⟨.newline, s₉⟩, [⟨.eof, s₁₀⟩]⟩) := by
    change (functionDecl _ >>= _) = _
    rw [hfunction]
    rfl
  have hend : declarationRound ⟨s₉, ⟨.eof, s₁₀⟩, []⟩ = .ok (none, ⟨s₉, ⟨.eof, s₁₀⟩, []⟩) := rfl
  refine ⟨d, ⟨s₉, ⟨.eof, s₁₀⟩, []⟩, ?_, by subst hd; exact ⟨rfl, rfl, rfl, _, _, _, rfl⟩⟩
  rw [declarations_eq, collect_of_some (declarationRound_eq ⟨rfl, rfl⟩ hdeclaration rfl)
    (by simp [Cursor.left, Cursor.advance])]
  simp only [Cursor.advance]
  rw [collect_of_none hend]
  rfl

end Parse

end Formula
