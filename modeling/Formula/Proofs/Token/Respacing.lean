import Formula.Proofs.Token.Gap
import Formula.Proofs.Token.Lexing

/-!
# Spacing tokens anew

The layout of a text plays no part beyond the ends of statements: when its tokens are written out
with a blank between any two of them, and a line feed where a statement ends, the same tokens are
read again. This needs that a token ends where it does whatever follows it, as long as that starts
with a blank.

## Main definitions

* `Loose rest`: the text `rest` starts with a blank, if it goes on at all
* `Place.Alike tail rest p p'`: the text goes on alike at two places, up to `tail` and `rest`
* `SourceFile.respaced f tokens`: the tokens of `f` with a blank between any two of them

## Main results

* `lexes_of_lexeme`: what is read as a token is read as it before any other loose text
* `Token.scan_respaced`: the same tokens are read again
-/

namespace Formula

open Text

/-! ## Before a blank -/

/-- A text that starts with a blank, if it goes on at all. -/
def Loose (rest : List Char) : Prop :=
  ∀ c ∈ rest.head?, c = ' '

theorem loose_nil : Loose [] :=
  nofun

theorem loose_cons (rest : List Char) : Loose (' ' :: rest) := by
  rintro c ⟨⟩
  rfl

variable {tail rest : List Char}

/-- What a blank does not satisfy, nothing does that a loose text starts with. -/
theorem Loose.stops (h : Loose rest) {keep : Char → Bool} (hkeep : keep ' ' = false) :
    ∀ c ∈ rest.head?, keep c = false := by
  intro c hc
  rwa [h c hc]

theorem Loose.endsNumeral (h : Loose rest) : endsNumeral rest := by
  intro c hc
  rw [h c hc]
  decide

/-- No symbol goes on with a blank. -/
theorem Loose.symbolAt? (h : Loose rest) (c : Char) {p : Place} (hp : p.rest = rest) :
    symbolAt? c p = (symbolOfOne? c).map (·, p) := by
  have htwo : symbolOfTwo? c ' ' = none := by
    unfold symbolOfTwo?
    split <;> simp_all
  rw [Formula.symbolAt?]
  rcases hrest : p.rest with _ | ⟨d, more⟩
  · rfl
  · rw [← hp, hrest] at h
    obtain rfl := h d rfl
    simp only [htwo]

/-! ## Going on alike -/

/-- **The text goes on alike at two places**, up to `tail` at the one and up to `rest` at the
other. -/
def Place.Alike (tail rest : List Char) (p p' : Place) : Prop :=
  ∃ cs, p.rest = cs ++ tail ∧ p'.rest = cs ++ rest

namespace Place.Alike

variable {p p' q : Place} {c : Char} {more : List Char}

/-- A character that stands before the tail comes next at both places. -/
theorem behind (h : Alike tail rest p p') (hc : p.rest = c :: more) (htail : tail <:+ more) :
    ∃ more', p'.rest = c :: more' ∧ Alike tail rest (p.behind c more) (p'.behind c more') := by
  obtain ⟨cs, hcs, hcs'⟩ := h
  rcases cs with _ | ⟨d, cs⟩
  · have hle := htail.length_le
    rw [← List.nil_append tail, ← hcs, hc, List.length_cons] at hle
    omega
  · obtain ⟨rfl, hmore⟩ := List.cons.inj (hc.symm.trans hcs)
    exact ⟨cs ++ rest, hcs', cs, hmore, rfl⟩

/-- Nothing stands between a place and the tail that is left there. -/
theorem rest_eq (h : Alike p.rest rest p p') : p'.rest = rest := by
  obtain ⟨cs, hcs, hcs'⟩ := h
  rw [List.self_eq_append_left.mp hcs] at hcs'
  exact hcs'

/-- The same character comes next at both places, unless the tail is reached. -/
theorem head?_eq (h : Alike tail rest p p') :
    p'.rest.head? = p.rest.head? ∨ p.rest = tail ∧ p'.rest = rest := by
  obtain ⟨cs, hcs, hcs'⟩ := h
  rcases cs with _ | ⟨d, cs⟩
  · exact .inr ⟨hcs, hcs'⟩
  · rw [hcs, hcs']
    exact .inl rfl

/-- What comes next at the second place is a blank, if it is not what comes next at the first. -/
theorem ne_head? (h : Alike tail rest p p') (hrest : Loose rest) (hc : c ≠ ' ')
    (hne : p.rest.head? ≠ some c) : p'.rest.head? ≠ some c := by
  rcases h.head?_eq with heq | ⟨-, heq⟩
  · rwa [heq]
  · rw [heq]
    exact fun hhead => hc (hrest c hhead)

/-- **Reading on goes as far at both places** as long as a condition holds that a blank does not
satisfy. -/
theorem takeWhile (h : Alike tail rest p p') (hrest : Loose rest) (keep : Char → Bool)
    (hkeep : keep ' ' = false) (htail : tail <:+ (p.takeWhile keep).2.rest) :
    (p'.takeWhile keep).1 = (p.takeWhile keep).1 ∧
      Alike tail rest (p.takeWhile keep).2 (p'.takeWhile keep).2 := by
  obtain ⟨hall, hstop⟩ := takeWhileFrom_spec keep p.offset p.rest
  rw [← Place.takeWhile] at hall hstop
  obtain ⟨ds, hds⟩ := htail
  obtain ⟨cs, hcs, hcs'⟩ := h
  obtain rfl : cs = (p.takeWhile keep).1 ++ ds := by
    refine List.append_cancel_right (hcs.symm.trans ?_)
    rw [List.append_assoc, hds, takeWhile_append]
  -- behind what is read comes what comes next at the first place, or a blank
  have hstop' : ∀ c ∈ (ds ++ rest).head?, keep c = false := by
    rcases ds with _ | ⟨d, ds⟩
    · exact hrest.stops hkeep
    · rw [← hds] at hstop
      exact hstop
  have htake : p'.takeWhile keep = ((p.takeWhile keep).1,
      ⟨p'.offset + byteLength (p.takeWhile keep).1, ds ++ rest⟩) := by
    rw [Place.takeWhile, hcs', List.append_assoc]
    exact takeWhileFrom_append_of_all hall hstop' _
  rw [htake]
  exact ⟨rfl, ds, hds.symm, rfl⟩

end Place.Alike

/-- What is left at a place that another one leads to ends what is left there. -/
theorem Place.Leads.suffix {p q : Place} (h : p.Leads q) : q.rest <:+ p.rest := by
  obtain ⟨cs, hcs, -⟩ := h
  exact ⟨cs, hcs.symm⟩

theorem Place.rest_of_eat? {p q : Place} {c : Char} (h : p.eat? c = some q) :
    p.rest = c :: q.rest := by
  simp only [eat?] at h
  split at h
  · cases h
  · rename_i d rest hrest
    split at h
    · rename_i heq
      cases h
      rw [hrest, heq]
      rfl
    · cases h

/-! ## Reading alike -/

namespace Place.Alike

variable {p p' q : Place} {start start' : Nat} {c : Char} {k : TokenKind}

theorem exponentDigits? (h : Alike q.rest rest p p') (hrest : Loose rest) {negative : Bool}
    {e : Int} (hp : exponentDigits? negative p = some (e, q)) :
    ∃ q', exponentDigits? negative p' = some (e, q') ∧ q'.rest = rest := by
  simp only [Formula.exponentDigits?] at hp ⊢
  split at hp
  · cases hp
  rename_i digits r hne htake
  cases hp
  have htake' := h.takeWhile hrest Char.isDigit (by decide) (htake ▸ List.suffix_rfl)
  rw [htake] at htake'
  obtain ⟨hdigits, hq⟩ := htake'
  rw [← Prod.mk.eta (p := p'.takeWhile Char.isDigit), hdigits]
  rcases digits with _ | ⟨d, ds⟩
  · exact absurd rfl hne
  · exact ⟨_, rfl, hq.rest_eq⟩

/-- Digits behind a sign are read alike. -/
theorem signedDigits (hrest : Loose rest) {ds : List Char} (hsign : p.rest = c :: ds)
    {negative : Bool} {e : Int}
    (hp : Formula.exponentDigits? negative (p.behind c ds) = some (e, q)) :
    q.rest <:+ p.rest ∧ ∀ p', Alike q.rest rest p p' → ∃ ds' q', p'.rest = c :: ds' ∧
      Formula.exponentDigits? negative (p'.behind c ds') = some (e, q') ∧ q'.rest = rest := by
  have hsuffix := (leads_of_exponentDigits? hp).suffix
  refine ⟨hsuffix.trans (hsign ▸ List.suffix_cons ..), fun p' halike => ?_⟩
  obtain ⟨ds', hds', hbehind⟩ := halike.behind hsign hsuffix
  obtain ⟨q', hq'⟩ := hbehind.exponentDigits? hrest hp
  exact ⟨ds', q', hds', hq'⟩

/-- **An exponent is read alike**: it has the same sign, as a blank is none. -/
theorem exponentAt? (h : Alike q.rest rest p p') (hrest : Loose rest) {e : Int}
    (hp : exponentAt? p = some (e, q)) :
    ∃ q', exponentAt? p' = some (e, q') ∧ q'.rest = rest := by
  simp only [Formula.exponentAt?] at hp
  split at hp
  · cases hp
  rename_i d more hd
  split at hp
  · rename_i he
    -- the mark of the exponent comes next at both places, and so does its sign
    split at hp
    · obtain ⟨hsuffix, hread⟩ := signedDigits hrest ‹_› hp
      obtain ⟨more', hmore', halike⟩ := h.behind hd hsuffix
      obtain ⟨ds', q', hds', hq', hq'rest⟩ := hread _ halike
      refine ⟨q', ?_, hq'rest⟩
      simp only [Formula.exponentAt?, hmore', he, if_true, hds', hq']
    · obtain ⟨hsuffix, hread⟩ := signedDigits hrest ‹_› hp
      obtain ⟨more', hmore', halike⟩ := h.behind hd hsuffix
      obtain ⟨ds', q', hds', hq', hq'rest⟩ := hread _ halike
      refine ⟨q', ?_, hq'rest⟩
      simp only [Formula.exponentAt?, hmore', he, if_true, hds', hq']
    · -- without a sign, the digits come next
      rename_i hminus hplus
      obtain ⟨more', hmore', halike⟩ := h.behind hd (leads_of_exponentDigits? hp).suffix
      have hne {c : Char} (hc : c ≠ ' ') (hno : ∀ ds, (p.behind d more).rest ≠ c :: ds)
          (ds : List Char) : (p'.behind d more').rest ≠ c :: ds := by
        refine fun heq => halike.ne_head? hrest hc (fun hhead => ?_) (by rw [heq]; rfl)
        obtain ⟨ds, hds⟩ := List.head?_eq_some_iff.mp hhead
        exact hno ds hds
      simp only [Formula.exponentAt?, hmore', he, if_true]
      split
      · exact absurd ‹_› (hne (by decide) hminus _)
      · exact absurd ‹_› (hne (by decide) hplus _)
      · exact halike.exponentDigits? hrest hp
  · cases hp

/-- Without an exponent, a constant ends behind its digits. -/
theorem eq_of_numberFrom {whole : List Char} {fraction : Option (List Char)}
    (he : Formula.exponentAt? p = none)
    (hp : Formula.numberFrom start whole fraction p = .ok (k, q)) : q = p := by
  simp only [Formula.numberFrom, he] at hp
  split at hp
  · split at hp <;> cases hp
    rfl
  · cases hp
    rfl

theorem numberFrom (h : Alike q.rest rest p p') (hrest : Loose rest) {whole : List Char}
    {fraction : Option (List Char)} (hp : numberFrom start whole fraction p = .ok (k, q)) :
    ∃ q', numberFrom start' whole fraction p' = .ok (k, q') ∧ q'.rest = rest := by
  -- with an exponent it ends where that does, and without one where it was
  rcases he : Formula.exponentAt? p with _ | ⟨e, r⟩
  · obtain rfl := eq_of_numberFrom he hp
    have hnone : Formula.exponentAt? p' = none :=
      exponentAt?_of_endsNumeral (h.rest_eq ▸ hrest).endsNumeral p'.offset
    refine ⟨p', ?_, h.rest_eq⟩
    simp only [Formula.numberFrom, he] at hp
    simp only [Formula.numberFrom, hnone]
    split at hp
    · split at hp <;> cases hp
      rename_i hlt
      rw [if_pos hlt]
    · cases hp
      rfl
  · simp only [Formula.numberFrom, he] at hp
    cases hp
    obtain ⟨q', hq', hrest'⟩ := h.exponentAt? hrest he
    exact ⟨q', by simp only [Formula.numberFrom, hq', Option.getD_some], hrest'⟩

/-- **A fraction is read alike**, if there is one. -/
theorem fractionAt (h : Alike tail rest p p') (hrest : Loose rest) {digits : List Char}
    (hp : fractionAt p = (some digits, q)) (htail : tail <:+ q.rest) :
    ∃ q', fractionAt p' = (some digits, q') ∧ Alike tail rest q q' := by
  simp only [Formula.fractionAt] at hp
  split at hp
  · rename_i more hmore
    split at hp
    · cases hp
    · rename_i hpoint
      obtain ⟨hdigits, rfl⟩ := Prod.mk.inj hp
      cases hdigits
      have hsuffix := htail.trans (leads_takeWhile (p.behind '.' more) isNumeral).suffix
      obtain ⟨more', hmore', hbehind⟩ := h.behind hmore hsuffix
      obtain ⟨hsame, halike⟩ := hbehind.takeWhile hrest isNumeral (by decide) htail
      -- a second point would make the first one no decimal point
      have hpoint' : more'.head? ≠ some '.' := hbehind.ne_head? hrest (by decide) hpoint
      refine ⟨_, ?_, halike⟩
      simp only [Formula.fractionAt, hmore']
      rw [if_neg hpoint', hsame]
  · cases hp

/-- Where there is no fraction, the constant ends or its exponent comes next, so that none is read
at the second place either. -/
theorem fractionAt_none {r : Place} (h : Alike q.rest rest p p') (hrest : Loose rest)
    {whole : List Char} (hp : Formula.fractionAt p = (none, r))
    (hq : Formula.numberFrom start whole none r = .ok (k, q)) :
    r = p ∧ Formula.fractionAt p' = (none, p') := by
  have hr : r = p := by
    simp only [Formula.fractionAt] at hp
    split at hp
    · split at hp <;> cases hp
      rfl
    · cases hp
      rfl
  subst hr
  -- the constant ends or its exponent comes next, so no point does at the second place
  have hpoint : p'.rest.head? ≠ some '.' := by
    rcases he : Formula.exponentAt? r with _ | ⟨e, s⟩
    · obtain rfl := eq_of_numberFrom he hq
      rw [h.rest_eq]
      exact fun hhead => absurd (hrest '.' hhead) (by decide)
    · refine h.ne_head? hrest (by decide) fun hhead => ?_
      obtain ⟨ds, hds⟩ := List.head?_eq_some_iff.mp hhead
      simp [Formula.exponentAt?, hds] at he
  refine ⟨rfl, ?_⟩
  unfold Formula.fractionAt
  split
  · rename_i more hmore
    exact absurd (by rw [hmore]; rfl) hpoint
  · rfl

/-- A constant that starts with a digit is read alike. -/
theorem numberAt (h : Alike q.rest rest p p') (hrest : Loose rest)
    (hp : numberAt start c p = .ok (k, q)) :
    ∃ q', numberAt start' c p' = .ok (k, q') ∧ q'.rest = rest := by
  simp only [Formula.numberAt] at hp ⊢
  have hleads := leads_of_numberFrom hp
  obtain ⟨hsame, halike⟩ := h.takeWhile hrest isNumeral (by decide)
    ((leads_fractionAt _).trans hleads).suffix
  rw [hsame]
  rcases hf : Formula.fractionAt (p.takeWhile isNumeral).2 with ⟨_ | digits, r⟩
  · simp only [hf] at hp
    obtain ⟨rfl, hnone⟩ := halike.fractionAt_none hrest hf hp
    rw [hnone]
    exact halike.numberFrom hrest hp
  · simp only [hf] at hp hleads
    obtain ⟨r', hr', hfraction⟩ := halike.fractionAt hrest hf hleads.suffix
    rw [hr']
    exact hfraction.numberFrom hrest hp

/-- A constant that starts with a point is read alike. -/
theorem fractionOnlyAt (h : Alike q.rest rest p p') (hrest : Loose rest)
    (hp : fractionOnlyAt start p = .ok (k, q)) :
    ∃ q', fractionOnlyAt start' p' = .ok (k, q') ∧ q'.rest = rest := by
  simp only [Formula.fractionOnlyAt] at hp ⊢
  obtain ⟨hsame, halike⟩ := h.takeWhile hrest isNumeral (by decide)
    (leads_of_numberFrom hp).suffix
  rw [hsame]
  exact halike.numberFrom hrest hp

/-- **A string is read alike** whatever stands behind its closing quote. -/
theorem stringFrom {offset : Nat} {done cs ds : List Char}
    (hp : stringFrom start done offset cs = .ok (k, q)) (hcs : cs = ds ++ q.rest)
    (offset' : Nat) (rest : List Char) :
    ∃ q', stringFrom start' done offset' (ds ++ rest) = .ok (k, q') ∧ q'.rest = rest := by
  fun_induction Formula.stringFrom start done offset cs generalizing ds offset' with
  | case1 | case3 | case4 | case6 => cases hp
  | case2 done offset more =>
    cases hp
    obtain rfl : ds = ['"'] := List.append_cancel_right hcs.symm
    exact ⟨_, rfl, rfl⟩
  | case5 done offset e more c hc ih =>
    obtain ⟨es, hes, -⟩ := leads_of_stringFrom hp
    obtain rfl : ds = '\\' :: e :: es :=
      List.append_cancel_right (hcs.symm.trans (congrArg (List.cons _ <| List.cons _ ·) hes))
    obtain ⟨q', hq', hrest⟩ := ih hp hes (offset' + 1 + e.utf8Size)
    refine ⟨q', ?_, hrest⟩
    simp only [List.cons_append, Formula.stringFrom, hc]
    exact hq'
  | case7 done offset c more hquote hline hlast hescape ih =>
    obtain ⟨es, hes, -⟩ := leads_of_stringFrom hp
    obtain rfl : ds = c :: es :=
      List.append_cancel_right (hcs.symm.trans (congrArg (List.cons c) hes))
    -- a backslash that is not the last character starts an escape
    have hslash : c ≠ '\\' := by
      rintro rfl
      rcases more with _ | ⟨e, more⟩
      · exact hlast rfl rfl
      · exact hescape _ _ rfl rfl
    obtain ⟨q', hq', hrest⟩ := ih hp hes (offset' + c.utf8Size)
    refine ⟨q', ?_, hrest⟩
    rw [List.cons_append, Formula.stringFrom.eq_def]
    split <;> simp_all

/-- **A raw string is read alike** whatever stands behind its closing quote. -/
theorem rawStringAt (h : Alike q.rest rest p p') (hp : rawStringAt start p = .ok (k, q)) :
    ∃ q', rawStringAt start' p' = .ok (k, q') ∧ q'.rest = rest := by
  simp only [Formula.rawStringAt] at hp
  split at hp
  · rename_i r heat
    cases hp
    obtain ⟨hall, -⟩ := takeWhileFrom_spec (· != '\x60') p.offset p.rest
    rw [← Place.takeWhile] at hall
    obtain ⟨cs, hcs, hcs'⟩ := h
    -- what was read is the string with its closing quote
    obtain rfl : cs = (p.takeWhile (· != '\x60')).1 ++ ['\x60'] := by
      refine List.append_cancel_right (hcs.symm.trans ?_)
      rw [List.append_assoc, List.singleton_append, ← rest_of_eat? heat, takeWhile_append]
    obtain ⟨offset, htake⟩ : ∃ offset, p'.takeWhile (· != '\x60') =
        ((p.takeWhile (· != '\x60')).1, ⟨offset, '\x60' :: rest⟩) := by
      rw [Place.takeWhile, hcs', List.append_assoc, List.singleton_append]
      refine ⟨_, takeWhileFrom_append_of_all hall ?_ _⟩
      rintro c ⟨⟩
      decide
    refine ⟨Place.behind ⟨offset, '\x60' :: rest⟩ '\x60' rest, ?_, rfl⟩
    rw [Formula.rawStringAt, htake]
    rfl
  · cases hp

/-- **A symbol is read alike.** -/
theorem symbolAt? (h : Alike q.rest rest p p') (hrest : Loose rest) {s : Symbol}
    (hp : symbolAt? c p = some (s, q)) :
    ∃ q', symbolAt? c p' = some (s, q') ∧ q'.rest = rest := by
  have hsame (hq : (symbolOfOne? c).map (·, p) = some (s, q)) :
      ∃ q', Formula.symbolAt? c p' = some (s, q') ∧ q'.rest = rest := by
    obtain ⟨s', hone, heq⟩ := Option.map_eq_some_iff.mp hq
    cases heq
    rw [hrest.symbolAt? c h.rest_eq, hone]
    exact ⟨p', rfl, h.rest_eq⟩
  rw [Formula.symbolAt?] at hp
  split at hp
  · exact hsame hp
  · rename_i d more hmore
    split at hp
    · rename_i s' htwo
      cases hp
      obtain ⟨more', hmore', hbehind⟩ := h.behind hmore List.suffix_rfl
      refine ⟨_, ?_, hbehind.rest_eq⟩
      rw [Formula.symbolAt?, hmore']
      simp only [htwo]
    · exact hsame hp

/-- The digit behind a point belongs to the constant. -/
theorem rest_ne_of_fractionOnlyAt (hp : Formula.fractionOnlyAt start p = .ok (k, q))
    (hdigit : p.rest.head?.any Char.isDigit = true) : p.rest ≠ q.rest := by
  intro heq
  simp only [Formula.fractionOnlyAt] at hp
  obtain ⟨-, hstop⟩ := takeWhileFrom_spec isNumeral p.offset p.rest
  rw [← Place.takeWhile] at hstop
  have hnothing : (p.takeWhile isNumeral).2.rest = p.rest := by
    refine (leads_takeWhile p isNumeral).suffix.eq_of_length_le ?_
    rw [heq]
    exact (leads_of_numberFrom hp).suffix.length_le
  obtain ⟨d, hd, hdigit⟩ := (Option.any_eq_true ..).mp hdigit
  rw [hnothing] at hstop
  exact Bool.false_ne_true ((hstop d hd).symm.trans (isNumeral_of_isDigit hdigit))

/-- **A token is read alike.** -/
theorem lexeme (h : Alike q.rest rest p p') (hrest : Loose rest) (start' : Nat)
    (hp : lexeme start c p = .ok (.token k, q)) :
    ∃ q', lexeme start' c p' = .ok (.token k, q') ∧ q'.rest = rest := by
  suffices hform : ∃ q', LexemeAt start' c p' (.token k) q' ∧ q'.rest = rest by
    simpa only [lexeme_eq_ok_iff] using hform
  cases LexemeAt.of_lexeme hp with
  | comment _ _ hread => exact absurd rfl (ne_token_of_commentAt hread k)
  | number hc hread =>
    obtain ⟨q', hq', hrest'⟩ := h.numberAt hrest hread
    exact ⟨q', .number hc hq', hrest'⟩
  | fraction hc hdigit hread =>
    -- the digit comes next at both places, since it belongs to the constant
    have hhead : p'.rest.head? = p.rest.head? := by
      rcases h.head?_eq with heq | ⟨heq, -⟩
      · exact heq
      · exact absurd heq (rest_ne_of_fractionOnlyAt hread hdigit)
    obtain ⟨q', hq', hrest'⟩ := h.fractionOnlyAt hrest hread
    exact ⟨q', .fraction hc (hhead ▸ hdigit) hq', hrest'⟩
  | word hc =>
    obtain ⟨hsame, halike⟩ := h.takeWhile hrest continuesName (by decide) List.suffix_rfl
    exact ⟨_, hsame ▸ .word hc, halike.rest_eq⟩
  | string hc hread =>
    obtain ⟨cs, hcs, hcs'⟩ := h
    obtain ⟨q', hq', hrest'⟩ := stringFrom hread hcs p'.offset rest
    exact ⟨q', .string hc (hcs' ▸ hq'), hrest'⟩
  | rawString hc hread =>
    obtain ⟨q', hq', hrest'⟩ := h.rawStringAt hread
    exact ⟨q', .rawString hc hq', hrest'⟩
  | symbol hcomment hpoint hread =>
    obtain ⟨q', hq', hrest'⟩ := h.symbolAt? hrest hread
    refine ⟨q', .symbol (fun hc => ⟨?_, ?_⟩) (fun hc => ?_) hq', hrest'⟩
    -- what does not start a comment does not start one before a blank
    · exact h.ne_head? hrest (by decide) (hcomment hc).1
    · exact h.ne_head? hrest (by decide) (hcomment hc).2
    -- a blank is no digit, so that a point alone stays one
    · rcases h.head?_eq with heq | ⟨-, heq⟩
      · exact heq ▸ hpoint hc
      · refine Bool.eq_false_iff.mpr fun hany => ?_
        obtain ⟨d, hd, hdigit⟩ := (Option.any_eq_true ..).mp hany
        rw [hrest d (heq ▸ hd)] at hdigit
        exact absurd hdigit (by decide)

end Place.Alike

/-- **What is read as a token is read as it before any other loose text**, wherever it stands. -/
theorem lexes_of_lexeme {start : Nat} {c : Char} {p q : Place} {k : TokenKind} {cs : List Char}
    (h : lexeme start c p = .ok (.token k, q)) (hcs : p.rest = cs ++ q.rest) (hrest : Loose rest) :
    Lexes (c :: cs) rest [.token k] := by
  refine .single fun offset => ?_
  have halike : Place.Alike q.rest rest p ⟨offset + c.utf8Size, cs ++ rest⟩ := ⟨cs, hcs, rfl⟩
  obtain ⟨⟨stop, rest'⟩, hread, rfl⟩ := halike.lexeme hrest offset h
  -- the place is known from what is left there
  obtain ⟨ds, hds, hstop⟩ := Place.leads_of_lexeme hread
  obtain rfl : cs = ds := List.append_cancel_right hds
  rw [hread, byteLength_cons, ← Nat.add_assoc]
  exact congrArg (fun stop => Except.ok (_, Place.mk stop _)) hstop

/-! ## Writing tokens out -/

/-- What a token is read as when it is written out: a mark at the end of a line is a line break. -/
def TokenKind.lexeme : TokenKind → Lexeme
  | newline => .lineBreak
  | k => .token k

namespace Token

/-- How a token is written out: the end of a statement as a line feed, the end of the text not at
all, and every other token as it stands in the text. -/
def written? (f : SourceFile) (t : Token) : Option String :=
  match t.kind with
  | .eof => none
  | .newline => some "\n"
  | _ => some (f.between t.span.start.offset t.span.stop.offset)

/-- What the token is written as is read as it again, before any loose text. -/
def Firm (f : SourceFile) (t : Token) : Prop :=
  ∃ text, t.written? f = some text ∧
    ∀ rest, Loose rest → Lexes text.toList rest [t.kind.lexeme]

end Token

/-- **The tokens of a text with a blank between any two of them.** -/
def SourceFile.respaced (f : SourceFile) (tokens : List Token) : String :=
  " ".intercalate (tokens.filterMap (Token.written? f))

namespace Outline

/-- A second line break in a row ends nothing. -/
theorem add_lineBreak_lineBreak (o : Outline) :
    (o.add .lineBreak).add .lineBreak = o.add .lineBreak := by
  have hends : (o.add .lineBreak).endsStatement = false := by
    rw [add]
    split
    · simp [endsStatement, TokenKind.endsStatement]
    · rwa [← Bool.not_eq_true]
  exact if_neg (by simp [hends])

end Outline

/-- **Firm tokens are read again** when they are written out with blanks between them. -/
theorem Token.exists_lexes_respaced {f : SourceFile} {tokens : List Token}
    (h : ∀ t ∈ tokens, t.Firm f) (hrest : Loose rest) :
    ∃ ls, Lexes (f.respaced tokens).toList rest ls ∧
      ∀ o : Outline, o.read ls = o.read (tokens.map (·.kind.lexeme)) := by
  induction tokens with
  | nil => exact ⟨[], .nil _, fun _ => rfl⟩
  | cons t tokens ih =>
    obtain ⟨text, htext, hlexes⟩ := h t List.mem_cons_self
    obtain ⟨ls, hls, hread⟩ := ih fun u hu => h u (List.mem_cons_of_mem t hu)
    rcases tokens with _ | ⟨u, tokens⟩
    · refine ⟨[t.kind.lexeme], ?_, fun _ => rfl⟩
      simpa [SourceFile.respaced, htext] using hlexes rest hrest
    · refine ⟨[t.kind.lexeme] ++ ([.blank] ++ ls), ?_, fun o => ?_⟩
      · -- the token ends at the blank, and the rest is read as before
        obtain ⟨text', htext', -⟩ := h u (by simp)
        have hsplit : (f.respaced (t :: u :: tokens)).toList =
            text.toList ++ ([' '] ++ (f.respaced (u :: tokens)).toList) := by
          simp [SourceFile.respaced, htext, htext']
        rw [hsplit]
        exact (hlexes _ (loose_cons _)).append ((lexes_space _).append hls)
      · change (o.add t.kind.lexeme).read ls = (o.add t.kind.lexeme).read _
        exact hread _

/-! ## What has been read -/

/-- What has been read of a text is firm, and is what its tokens are read as when they are written
out; the last token comes first. -/
structure Scanned.Rereads (f : SourceFile) (s : Scanned) : Prop where
  firm : ∀ t ∈ s.tokens, t.Firm f
  outline_eq : Outline.read {} (s.tokens.reverse.map (·.kind.lexeme)) = s.outline

namespace Scanned

variable {f : SourceFile} {s : Scanned} {p q : Place}

theorem Rereads.endLine (h : s.Rereads f) (offset : Nat) : (s.endLine f offset).Rereads f := by
  have houtline := outline_endLine f s offset
  unfold Scanned.endLine at houtline ⊢
  split
  · rename_i hends
    rw [if_pos hends] at houtline
    refine ⟨List.forall_mem_cons.mpr ⟨⟨"\n", rfl, fun rest _ => lexes_lineBreak rest⟩, h.firm⟩, ?_⟩
    rw [houtline, ← h.outline_eq, List.reverse_cons, List.map_append, Outline.read_append]
    rfl
  · exact h

/-- **A token is added.** -/
theorem Rereads.token (h : s.Rereads f) (hp : f.Reaches p) {c : Char} {cs : List Char}
    {k : TokenKind} (hrest : p.rest = c :: cs)
    (hl : lexeme p.offset c (p.behind c cs) = .ok (.token k, q)) :
    (s.add f p.offset q.offset (.token k)).Rereads f := by
  have hmark := isMark_of_lexeme hl
  obtain ⟨ds, hds, hoffset⟩ := Place.leads_of_lexeme hl
  obtain ⟨hrest', hoffset'⟩ := Place.read_cons hrest hds hoffset
  have hbetween : f.between p.offset q.offset = String.ofList (c :: ds) :=
    hp.between_eq hrest' hoffset'
  -- a token that is scanned is neither a line end nor the end of the text
  have hkind : k.lexeme = .token k := by
    cases k <;> first | rfl | cases hmark
  have hwritten : Token.written? f ⟨k, f.span p.offset q.offset⟩ =
      some (String.ofList (c :: ds)) := by
    rw [← hbetween]
    cases k <;> first | rfl | cases hmark
  refine ⟨List.forall_mem_cons.mpr ⟨⟨_, hwritten, fun rest hloose => ?_⟩, h.firm⟩, ?_⟩
  · rw [String.toList_ofList, hkind]
    exact lexes_of_lexeme hl hds hloose
  · change Outline.read {} ((_ :: s.tokens).reverse.map _) = s.outline.add (.token k)
    rw [← h.outline_eq, List.reverse_cons, List.map_append, Outline.read_append, ← hkind]
    rfl

/-- **What is scanned from a place on can be read again.** -/
theorem Rereads.scanFrom {tokens : List Token} (h : s.Rereads f) (hp : f.Reaches p)
    (hscan : scanFrom f s p = .ok tokens) :
    ∃ s' : Scanned, s'.Rereads f ∧ tokens = s'.finish f := by
  fun_induction Scanned.scanFrom f s p with
  | case1 s p hrest =>
    cases hscan
    exact ⟨s, h, rfl⟩
  | case2 => cases hscan
  | case3 s p c rest hrest l q hl ih =>
    have hq : f.Reaches q := hp.trans ((Place.leads_behind hrest).trans (Place.leads_of_lexeme hl))
    refine ih ?_ hq hscan
    cases l with
    | token k => exact h.token hp hrest hl
    | lineBreak => exact h.endLine p.offset
    | blank => exact h

end Scanned

/-- **The layout of a text plays no part beyond the ends of statements.** When the tokens of a text
are written out with a blank between any two of them, the same tokens are read again, whether or not
a blank stands for the end of the text, too. -/
theorem Token.scan_respaced {f : SourceFile} {tokens : List Token} (h : Token.scan f = .ok tokens)
    {g : SourceFile} (hg : g.text = f.respaced tokens ∨ g.text = f.respaced tokens ++ " ") :
    ∃ tokens', Token.scan g = .ok tokens' ∧ tokens'.map Token.kind = tokens.map Token.kind := by
  obtain ⟨s, hs, rfl⟩ :=
    Scanned.Rereads.scanFrom (s := {}) ⟨nofun, rfl⟩ (SourceFile.reaches_start f) h
  have hline := hs.endLine f.size
  have htext : f.respaced (s.finish f) = f.respaced (s.endLine f f.size).tokens.reverse := by
    have hend : Token.written? f ⟨.eof, f.span f.size f.size⟩ = none := rfl
    simp [SourceFile.respaced, Scanned.finish, hend]
  have hfirm : ∀ t ∈ (s.endLine f f.size).tokens.reverse, t.Firm f := fun t ht =>
    hline.firm t (List.mem_reverse.mp ht)
  -- the last line end is read from the tokens, and the end of the text adds it again
  obtain ⟨ls, hls, hread⟩ : ∃ ls, Lexes g.text.toList [] ls ∧
      Outline.read {} ls = (s.endLine f f.size).outline := by
    rw [htext] at hg
    rw [← hline.outline_eq]
    rcases hg with hg | hg
    · obtain ⟨ls, hls, hread⟩ := exists_lexes_respaced hfirm loose_nil
      exact ⟨ls, hg ▸ hls, hread {}⟩
    · obtain ⟨ls, hls, hread⟩ := exists_lexes_respaced hfirm (loose_cons [])
      refine ⟨ls ++ [.blank], ?_, ?_⟩
      · rw [hg, String.toList_append]
        exact hls.append (lexes_space [])
      · rw [Outline.read_append]
        exact hread {}
  obtain ⟨tokens', hscan, hkinds⟩ := Token.scan_of_lexes hls
  refine ⟨tokens', hscan, ?_⟩
  rw [hkinds, Scanned.kinds_finish, hread, Scanned.outline_endLine, Outline.add_lineBreak_lineBreak]

/-- Without its comments, the text has a line feed where the second comment had one, and none in the
raw string, which keeps its own. -/
theorem Token.scan_respaced_comment : ∃ tokens tokens',
    Token.scan (.ofText 0 "" "a:=1./**/..5e-1/*\n*/`b\nc`") = .ok tokens ∧
      (SourceFile.ofText 0 "" "a:=1./**/..5e-1/*\n*/`b\nc`").respaced tokens =
        "a := 1. . .5e-1 \n `b\nc` \n" ∧
      Token.scan (.ofText 0 "" "a := 1. . .5e-1 \n `b\nc` \n") = .ok tokens' ∧
      tokens'.map Token.kind = tokens.map Token.kind := by
  have hwritten : (Token.scan (.ofText 0 "" "a:=1./**/..5e-1/*\n*/`b\nc`")).toOption.map
      (SourceFile.ofText 0 "" "a:=1./**/..5e-1/*\n*/`b\nc`").respaced =
        some "a := 1. . .5e-1 \n `b\nc` \n" := by
    decide +kernel
  rcases hscan : Token.scan (.ofText 0 "" "a:=1./**/..5e-1/*\n*/`b\nc`") with e | tokens
  · rw [hscan] at hwritten
    cases hwritten
  · rw [hscan] at hwritten
    have hrespaced := Option.some.inj hwritten
    obtain ⟨tokens', hscan', hkinds⟩ := Token.scan_respaced hscan (.inl hrespaced.symm)
      (g := .ofText 0 "" "a := 1. . .5e-1 \n `b\nc` \n")
    exact ⟨tokens, tokens', rfl, hrespaced, hscan', hkinds⟩

end Formula
