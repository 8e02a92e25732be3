import Formula.Artifact.Slug
import Formula.Proofs.Text.Blank
import Mathlib.Data.List.DropRight
import Mathlib.Data.List.Infix
import Mathlib.Logic.Relation

/-!
# What stands for a name in file names

A slug is a text of small letters and digits with single hyphens between them. Every name has one,
and a slug has itself. So slugs are the names that stay as they are, and no other text can come up in
the name of a file. Names that are written alike, but for the case of their letters and for what
stands between them, have the same slug.

## Main definitions

* `IsSlug`: runs of small letters and digits, with single hyphens between them
* `Restyled`: what may be changed in a name
* `squeezed`: a name that is rewritten in one pass

## Main results

* `isSlug_slug`: every name has a slug
* `isSlug_iff`: slugs by what they lack
* `slug_eq_self_iff`: slugs are the names that stay as they are
* `slug_eq_of_eqvGen`: names that differ in nothing but their style have the same slug
* `slug_eq_squeezed`: slugs come from one pass over the name
-/

namespace Formula

open Text

/-! ## Small letters and digits -/

/-- A letter of ASCII in lower case, or a digit. -/
def isSlugChar (c : Char) : Bool :=
  c.isLower || c.isDigit

theorem isAlphanum_eq_or (c : Char) : c.isAlphanum = (c.isUpper || isSlugChar c) :=
  Bool.or_assoc _ _ _

theorem isAlphanum_of_isSlugChar {c : Char} (h : isSlugChar c = true) : c.isAlphanum = true := by
  rw [isAlphanum_eq_or, h, Bool.or_true]

theorem isAlphanum_lt {c : Char} (h : c.isAlphanum = true) : c.toNat < 0x80 := by
  rw [Char.isAlphanum, Bool.or_eq_true, isAlpha_iff_toNat, Char.isDigit_iff_toNat] at h
  have hdigits : '0'.toNat = 48 ∧ '9'.toNat = 57 := ⟨rfl, rfl⟩
  omega

theorem isSlugChar_toLower_of_ascii : ∀ n < 0x80,
    ((Char.ofNat n).isAlphanum = true → isSlugChar (Char.ofNat n).toLower = true) ∧
      (isSlugChar (Char.ofNat n) = true → (Char.ofNat n).toLower = Char.ofNat n) := by
  decide

theorem isSlugChar_toLower {c : Char} (h : c.isAlphanum = true) : isSlugChar c.toLower = true := by
  have hc := (isSlugChar_toLower_of_ascii c.toNat (isAlphanum_lt h)).1
  rw [Char.ofNat_toNat] at hc
  exact hc h

theorem toLower_of_isSlugChar {c : Char} (h : isSlugChar c = true) : c.toLower = c := by
  have hc := (isSlugChar_toLower_of_ascii c.toNat (isAlphanum_lt (isAlphanum_of_isSlugChar h))).2
  rw [Char.ofNat_toNat] at hc
  exact hc h

theorem toLower_of_not_isAlphanum {c : Char} (h : c.isAlphanum = false) : c.toLower = c := by
  rw [isAlphanum_eq_or, Bool.or_eq_false_iff] at h
  exact dif_neg (of_decide_eq_false h.1)

/-- Letters stay letters in the other case. -/
theorem isAlphanum_toLower (c : Char) : c.toLower.isAlphanum = c.isAlphanum := by
  cases h : c.isAlphanum with
  | true => exact isAlphanum_of_isSlugChar (isSlugChar_toLower h)
  | false => rw [toLower_of_not_isAlphanum h, h]

theorem toLower_toLower (c : Char) : c.toLower.toLower = c.toLower := by
  cases h : c.isAlphanum with
  | true => exact toLower_of_isSlugChar (isSlugChar_toLower h)
  | false => rw [toLower_of_not_isAlphanum h, toLower_of_not_isAlphanum h]

/-! ## Slugs -/

/-- A run of small letters and digits. -/
structure IsRun (r : List Char) : Prop where
  ne_nil : r ≠ []
  chars : ∀ c ∈ r, isSlugChar c = true

/-- **A slug**: one or more runs of small letters and digits, with single hyphens between them. -/
inductive IsSlug : List Char → Prop where
  | run {r : List Char} (hr : IsRun r) : IsSlug r
  | join {r cs : List Char} (hr : IsRun r) (hcs : IsSlug cs) : IsSlug (r ++ '-' :: cs)

theorem isRun_singleton {c : Char} (h : isSlugChar c = true) : IsRun [c] :=
  ⟨List.cons_ne_nil _ _, by simpa using h⟩

theorem IsRun.cons {c : Char} {r : List Char} (h : isSlugChar c = true) (hr : IsRun r) :
    IsRun (c :: r) :=
  ⟨List.cons_ne_nil _ _, List.forall_mem_cons.mpr ⟨h, hr.chars⟩⟩

namespace IsSlug

variable {cs : List Char}

/-- A small letter or a digit may come before a slug. -/
theorem cons {c : Char} (h : isSlugChar c = true) (hcs : IsSlug cs) : IsSlug (c :: cs) := by
  cases hcs with
  | run hr => exact .run (hr.cons h)
  | join hr hcs => exact .join (hr.cons h) hcs

/-- A run may come behind a slug and a hyphen. -/
theorem append_run {r : List Char} (hcs : IsSlug cs) (hr : IsRun r) :
    IsSlug (cs ++ '-' :: r) := by
  induction hcs with
  | run hfirst => exact .join hfirst (.run hr)
  | join hfirst _ ih =>
    rw [List.append_assoc, List.cons_append]
    exact .join hfirst ih

theorem chars (h : IsSlug cs) : ∀ c ∈ cs, isSlugChar c = true ∨ c = '-' := by
  induction h with
  | run hr => exact fun c hc => .inl (hr.chars c hc)
  | join hr _ ih =>
    intro c hc
    rw [List.mem_append, List.mem_cons] at hc
    rcases hc with hc | rfl | hc
    · exact .inl (hr.chars c hc)
    · exact .inr rfl
    · exact ih c hc

/-- A slug has no dot, no separator of paths and no blank. -/
theorem not_special (h : IsSlug cs) :
    ∀ c ∈ cs, c ≠ '.' ∧ c ≠ '/' ∧ c ≠ '\\' ∧ isBlank c = false := by
  intro c hc
  rcases h.chars c hc with hchar | rfl
  · refine ⟨?_, ?_, ?_, isBlank_of_isAlphanum (isAlphanum_of_isSlugChar hchar)⟩ <;>
      · rintro rfl
        exact absurd hchar (by decide)
  · decide

/-- A slug begins with a small letter or a digit. -/
theorem exists_head (h : IsSlug cs) : ∃ c rest, cs = c :: rest ∧ isSlugChar c = true := by
  have hrun {r : List Char} (hr : IsRun r) : ∃ c rest, r = c :: rest ∧ isSlugChar c = true := by
    obtain ⟨c, rest, rfl⟩ := List.exists_cons_of_ne_nil hr.ne_nil
    exact ⟨c, rest, rfl, hr.chars c List.mem_cons_self⟩
  cases h with
  | run hr => exact hrun hr
  | join hr _ =>
    obtain ⟨c, rest, rfl, hc⟩ := hrun hr
    exact ⟨c, _, rfl, hc⟩

theorem getLast?_ne (h : IsSlug cs) : cs.getLast? ≠ some '-' := by
  induction h with
  | run hr =>
    intro hlast
    exact absurd (hr.chars _ (List.mem_of_getLast? hlast)) (by decide)
  | join hr hcs ih =>
    obtain ⟨c, rest, rfl, -⟩ := hcs.exists_head
    simpa [List.getLast?_append, List.getLast?_cons_cons] using ih

/-- No two hyphens stand next to each other. -/
theorem not_doubled (h : IsSlug cs) : ¬ ['-', '-'] <:+: cs := by
  have hdash {c : Char} (hc : isSlugChar c = true) : '-' ≠ c := by
    rintro rfl
    exact absurd hc (by decide)
  -- A run before a text adds no pair of hyphens to it.
  have hrun {r rest : List Char} (hr : ∀ c ∈ r, isSlugChar c = true)
      (hrest : ¬ ['-', '-'] <:+: rest) : ¬ ['-', '-'] <:+: r ++ rest := by
    induction r with
    | nil => exact hrest
    | cons c r ih =>
      obtain ⟨hc, hr⟩ := List.forall_mem_cons.mp hr
      rw [List.cons_append, List.infix_cons_iff, List.cons_prefix_cons]
      exact fun h => h.elim (fun h => hdash hc h.1) (ih hr)
  induction h with
  | run hr =>
    have hnil : ¬ ['-', '-'] <:+: ([] : List Char) := by decide
    simpa using hrun hr.chars hnil
  | join hr hcs ih =>
    obtain ⟨c, rest, rfl, hc⟩ := hcs.exists_head
    refine hrun hr.chars ?_
    rw [List.infix_cons_iff, List.cons_prefix_cons, List.cons_prefix_cons]
    exact fun h => h.elim (fun h => hdash hc h.2.1) ih

end IsSlug

/-- A text of small letters, digits and single hyphens that stand between others is a slug. -/
theorem isSlug_of_tidy : ∀ {cs : List Char}, cs ≠ [] → (∀ c ∈ cs, isSlugChar c = true ∨ c = '-') →
    cs.head? ≠ some '-' → cs.getLast? ≠ some '-' → ¬ ['-', '-'] <:+: cs → IsSlug cs
  | [], hne, _, _, _, _ => absurd rfl hne
  | [c], _, hchars, hhead, _, _ => by
    have hc := (hchars c List.mem_cons_self).resolve_right fun h => hhead (congrArg some h)
    exact .run (isRun_singleton hc)
  | c :: d :: rest, _, hchars, hhead, hlast, hdouble => by
    obtain ⟨hc, hchars⟩ := List.forall_mem_cons.mp hchars
    have hc := hc.resolve_right fun h => hhead (congrArg some h)
    have hdouble' : ¬ ['-', '-'] <:+: d :: rest :=
      fun h => hdouble (List.infix_cons_iff.mpr (.inr h))
    rw [List.getLast?_cons_cons] at hlast
    by_cases hd : d = '-'
    · subst hd
      -- Behind a hyphen there is something, which does not begin with another one.
      cases rest with
      | nil => exact absurd rfl hlast
      | cons e rest =>
        have he : (e :: rest).head? ≠ some '-' := by
          rintro ⟨⟩
          exact hdouble' (List.prefix_append ['-', '-'] rest).isInfix
        rw [List.getLast?_cons_cons] at hlast
        exact .join (isRun_singleton hc) (isSlug_of_tidy (List.cons_ne_nil _ _)
          (List.forall_mem_cons.mp hchars).2 he hlast
          fun h => hdouble' (List.infix_cons_iff.mpr (.inr h)))
    · exact .cons hc (isSlug_of_tidy (List.cons_ne_nil _ _) hchars
        (fun h => hd (Option.some.inj h)) hlast hdouble')

/-- **Slugs by what they lack**: a slug is a text that is not empty, of small letters, digits and
hyphens, without a hyphen at one of its ends and without two next to each other. -/
theorem isSlug_iff {cs : List Char} : IsSlug cs ↔ cs ≠ [] ∧
    (∀ c ∈ cs, isSlugChar c = true ∨ c = '-') ∧ cs.head? ≠ some '-' ∧
      cs.getLast? ≠ some '-' ∧ ¬ ['-', '-'] <:+: cs := by
  constructor
  · intro h
    obtain ⟨c, rest, rfl, hc⟩ := h.exists_head
    refine ⟨List.cons_ne_nil _ _, h.chars, ?_, h.getLast?_ne, h.not_doubled⟩
    rintro ⟨⟩
    exact absurd hc (by decide)
  · rintro ⟨hne, hchars, hhead, hlast, hdouble⟩
    exact isSlug_of_tidy hne hchars hhead hlast hdouble

instance (cs : List Char) : Decidable (IsSlug cs) :=
  letI := List.decidableBAll (fun c => isSlugChar c = true ∨ c = '-') cs
  decidable_of_iff _ isSlug_iff.symm

/-! ## Runs -/

variable {run cs ds : List Char}

theorem runsFrom_cons_of_alphanum {c : Char} (hc : c.isAlphanum = true) (run cs : List Char) :
    runsFrom run (c :: cs) = runsFrom (c.toLower :: run) cs := by
  rw [runsFrom, if_pos hc]

theorem runsFrom_cons_of_other {c : Char} (hc : c.isAlphanum = false) (run cs : List Char) :
    runsFrom run (c :: cs) = runsFrom run [] ++ runsFrom [] cs := by
  simp only [runsFrom, hc, Bool.false_eq_true, if_false]
  split <;> rfl

/-- A character that is no letter or digit ends a run. -/
theorem runsFrom_append_of_other {c : Char} (hc : c.isAlphanum = false) (run cs ds : List Char) :
    runsFrom run (cs ++ c :: ds) = runsFrom run cs ++ runsFrom [] ds := by
  induction cs generalizing run with
  | nil => exact runsFrom_cons_of_other hc run ds
  | cons d cs ih =>
    rw [List.cons_append]
    cases hd : d.isAlphanum with
    | true => rw [runsFrom_cons_of_alphanum hd, runsFrom_cons_of_alphanum hd, ih]
    | false =>
      rw [runsFrom_cons_of_other hd, runsFrom_cons_of_other hd, ih, List.append_assoc]

/-- The case of letters plays no part. -/
theorem runsFrom_map_toLower (run cs : List Char) :
    runsFrom run (cs.map Char.toLower) = runsFrom run cs := by
  induction cs generalizing run with
  | nil => rfl
  | cons c cs ih =>
    rw [List.map_cons]
    cases hc : c.isAlphanum with
    | true =>
      rw [runsFrom_cons_of_alphanum ((isAlphanum_toLower c).trans hc),
        runsFrom_cons_of_alphanum hc, toLower_toLower, ih]
    | false =>
      rw [runsFrom_cons_of_other ((isAlphanum_toLower c).trans hc), runsFrom_cons_of_other hc, ih]

/-- What stands before the first letter or digit plays no part. -/
theorem runsFrom_others_append (h : ∀ c ∈ cs, c.isAlphanum = false) (ds : List Char) :
    runsFrom [] (cs ++ ds) = runsFrom [] ds := by
  induction cs with
  | nil => rfl
  | cons c cs ih =>
    obtain ⟨hc, hcs⟩ := List.forall_mem_cons.mp h
    rw [List.cons_append, runsFrom_cons_of_other hc, ih hcs]
    rfl

/-- What stands behind the last letter or digit plays no part. -/
theorem runsFrom_append_others (h : ∀ d ∈ ds, d.isAlphanum = false) (run cs : List Char) :
    runsFrom run (cs ++ ds) = runsFrom run cs := by
  cases ds with
  | nil => rw [List.append_nil]
  | cons d ds =>
    obtain ⟨hd, hds⟩ := List.forall_mem_cons.mp h
    have hnone : runsFrom [] ds = [] := by
      simpa [runsFrom] using runsFrom_others_append hds []
    rw [runsFrom_append_of_other hd, hnone, List.append_nil]

/-- Blanks around a text play no part. -/
theorem runsFrom_trimList (cs : List Char) : runsFrom [] (trimList cs) = runsFrom [] cs := by
  have hother {blanks : List Char} (h : ∀ c ∈ blanks, isBlank c = true) :
      ∀ c ∈ blanks, c.isAlphanum = false := by
    intro c hc
    rw [← Bool.not_eq_true]
    intro halphanum
    exact absurd ((isBlank_of_isAlphanum halphanum).symm.trans (h c hc)) Bool.false_ne_true
  obtain ⟨front, back, hcs, hfront, hback⟩ := exists_trimList cs
  calc runsFrom [] (trimList cs)
      = runsFrom [] (trimList cs ++ back) := (runsFrom_append_others (hother hback) [] _).symm
    _ = runsFrom [] (front ++ (trimList cs ++ back)) :=
        (runsFrom_others_append (hother hfront) _).symm
    _ = runsFrom [] cs := by rw [← hcs]

/-- A gap in a name: one or more characters that are no letters or digits. -/
structure IsGap (gap : List Char) : Prop where
  ne_nil : gap ≠ []
  others : ∀ c ∈ gap, c.isAlphanum = false

/-- What a gap is made of plays no part. -/
theorem runsFrom_append_gap {gap : List Char} (h : IsGap gap) (run cs ds : List Char) :
    runsFrom run (cs ++ (gap ++ ds)) = runsFrom run cs ++ runsFrom [] ds := by
  obtain ⟨c, gap, rfl⟩ := List.exists_cons_of_ne_nil h.ne_nil
  obtain ⟨hc, hgap⟩ := List.forall_mem_cons.mp h.others
  rw [List.cons_append, runsFrom_append_of_other hc, runsFrom_others_append hgap]

/-- The runs of a name are runs of small letters and digits. -/
theorem isRun_of_mem_runsFrom (hrun : ∀ c ∈ run, isSlugChar c = true) :
    ∀ r ∈ runsFrom run cs, IsRun r := by
  have hlast : ∀ {run : List Char}, (∀ c ∈ run, isSlugChar c = true) →
      ∀ r ∈ runsFrom run [], IsRun r := by
    intro run hrun r hr
    rw [runsFrom] at hr
    split at hr
    · cases hr
    · rename_i hne
      obtain rfl := List.mem_singleton.mp hr
      exact ⟨by simpa using hne, by simpa using hrun⟩
  induction cs generalizing run with
  | nil => exact hlast hrun
  | cons c cs ih =>
    cases hc : c.isAlphanum with
    | true =>
      rw [runsFrom_cons_of_alphanum hc]
      exact ih (List.forall_mem_cons.mpr ⟨isSlugChar_toLower hc, hrun⟩)
    | false =>
      rw [runsFrom_cons_of_other hc]
      exact fun r hr => (List.mem_append.mp hr).elim (hlast hrun r) (ih (List.forall_mem_nil _) r)

/-- Small letters and digits go on with the run that is being read. -/
theorem runsFrom_append_of_isSlugChar {r : List Char} (hr : ∀ c ∈ r, isSlugChar c = true)
    (run cs : List Char) : runsFrom run (r ++ cs) = runsFrom (r.reverse ++ run) cs := by
  induction r generalizing run with
  | nil => rfl
  | cons c r ih =>
    obtain ⟨hc, hr⟩ := List.forall_mem_cons.mp hr
    rw [List.cons_append, runsFrom_cons_of_alphanum (isAlphanum_of_isSlugChar hc),
      toLower_of_isSlugChar hc, ih hr, List.reverse_cons, List.append_assoc, List.singleton_append]

/-- A run is its only one. -/
theorem IsRun.runsFrom_eq {r : List Char} (h : IsRun r) : runsFrom [] r = [r] := by
  have hread := runsFrom_append_of_isSlugChar h.chars [] []
  rw [List.append_nil, List.append_nil] at hread
  rw [hread, runsFrom, if_neg (by simpa using h.ne_nil), List.reverse_reverse]

/-- A slug comes apart into runs that it can be put together from again. -/
theorem IsSlug.intercalate_runsFrom (h : IsSlug cs) :
    runsFrom [] cs ≠ [] ∧ List.intercalate ['-'] (runsFrom [] cs) = cs := by
  induction h with
  | run hr =>
    rw [hr.runsFrom_eq, List.intercalate_singleton]
    exact ⟨List.cons_ne_nil _ _, rfl⟩
  | join hr _ ih =>
    rw [runsFrom_append_of_other rfl, hr.runsFrom_eq, List.singleton_append,
      List.intercalate_cons_of_ne_nil ih.1, ih.2, List.append_assoc, List.singleton_append]
    exact ⟨List.cons_ne_nil _ _, rfl⟩

/-- Runs that are put together make a slug. -/
theorem isSlug_intercalate {runs : List (List Char)} (hne : runs ≠ [])
    (h : ∀ r ∈ runs, IsRun r) : IsSlug (List.intercalate ['-'] runs) := by
  induction runs with
  | nil => exact absurd rfl hne
  | cons r runs ih =>
    obtain ⟨hr, hruns⟩ := List.forall_mem_cons.mp h
    cases runs with
    | nil =>
      rw [List.intercalate_singleton]
      exact .run hr
    | cons r' runs =>
      rw [List.intercalate_cons_cons, List.append_assoc, List.singleton_append]
      exact .join hr (ih (List.cons_ne_nil _ _) hruns)

/-! ## The slug of a name -/

theorem slug_eq_of_runsOf_eq {name other : String} (h : runsOf name = runsOf other) :
    slug name = slug other := by
  rw [slug, slug, h]

theorem slug_of_runsOf_ne_nil {name : String} (h : runsOf name ≠ []) :
    slug name = String.ofList (List.intercalate ['-'] (runsOf name)) := by
  unfold slug
  split
  · rename_i hnone
    exact absurd hnone h
  · rfl

/-- **Every name has a slug.** -/
theorem isSlug_slug (name : String) : IsSlug (slug name).toList := by
  by_cases h : runsOf name = []
  · rw [slug, h]
    decide +kernel
  · rw [slug_of_runsOf_ne_nil h, String.toList_ofList]
    exact isSlug_intercalate h (isRun_of_mem_runsFrom (List.forall_mem_nil _))

/-- A slug stays as it is. -/
theorem slug_of_isSlug {text : String} (h : IsSlug text.toList) : slug text = text := by
  obtain ⟨hne, htext⟩ := h.intercalate_runsFrom
  rw [slug_of_runsOf_ne_nil hne, runsOf, htext, String.ofList_toList]

/-- **Slugs are the names that stay as they are.** -/
theorem slug_eq_self_iff {text : String} : slug text = text ↔ IsSlug text.toList :=
  ⟨fun h => h ▸ isSlug_slug text, slug_of_isSlug⟩

/-- **What may be changed in a name**: the case of its letters of ASCII, the blanks around it, and
what a gap between two letters or digits is made of. -/
inductive Restyled : String → String → Prop where
  | letterCase {name other : String}
      (h : name.toList.map Char.toLower = other.toList.map Char.toLower) : Restyled name other
  | blanks {name other : String} (h : trim name = trim other) : Restyled name other
  | gap {c d : Char} (hc : c.isAlphanum = true) (hd : d.isAlphanum = true) {gap gap' : List Char}
      (hgap : IsGap gap) (hgap' : IsGap gap') (front back : List Char) :
      Restyled (String.ofList (front ++ c :: (gap ++ d :: back)))
        (String.ofList (front ++ c :: (gap' ++ d :: back)))

theorem Restyled.runsOf_eq {name other : String} (h : Restyled name other) :
    runsOf name = runsOf other := by
  cases h with
  | letterCase h =>
    rw [runsOf, ← runsFrom_map_toLower, h, runsFrom_map_toLower]
    rfl
  | blanks h =>
    have hlist : trimList name.toList = trimList other.toList := String.ofList_injective h
    rw [runsOf, ← runsFrom_trimList, hlist, runsFrom_trimList]
    rfl
  | @gap c d _ _ gap gap' hgap hgap' front back =>
    have hcut {gap : List Char} (h : IsGap gap) :
        runsOf (String.ofList (front ++ c :: (gap ++ d :: back))) =
          runsFrom [] (front ++ [c]) ++ runsFrom [] (d :: back) := by
      rw [runsOf, String.toList_ofList, List.append_cons, runsFrom_append_gap h]
    rw [hcut hgap, hcut hgap']

/-- **Names that differ in nothing but their style have the same slug.** -/
theorem slug_eq_of_eqvGen {name other : String} (h : Relation.EqvGen Restyled name other) :
    slug name = slug other := by
  induction h with
  | rel _ _ h => exact slug_eq_of_runsOf_eq h.runsOf_eq
  | refl _ => rfl
  | symm _ _ _ ih => exact ih.symm
  | trans _ _ _ _ _ ih ih' => exact ih.trans ih'

/-! ## One pass over a name -/

/-- Characters with one hyphen in place of each gap, where `out` is what has been written so far,
from its last character to its first. -/
def hyphenate (out : List Char) : List Char → List Char
  | [] => out.reverse
  | c :: cs =>
    if c.isAlphanum then hyphenate (c.toLower :: out) cs
    else if out.head? = some '-' then hyphenate out cs
    else hyphenate ('-' :: out) cs

/-- Characters without the hyphens at their two ends. -/
def trimHyphens (cs : List Char) : List Char :=
  (cs.dropWhile (· == '-')).rdropWhile (· == '-')

/-- A name that is rewritten in one pass, without the blanks around it: a hyphen is written unless
the last character that was written is one, and the hyphens at the ends are cut off. -/
def squeezed (name : String) : String :=
  let cs := trimHyphens (hyphenate [] (trimList name.toList))
  if cs.isEmpty then defaultSlug else String.ofList cs

theorem chars_hyphenate {out : List Char} (h : ∀ c ∈ out, isSlugChar c = true ∨ c = '-') :
    ∀ c ∈ hyphenate out cs, isSlugChar c = true ∨ c = '-' := by
  induction cs generalizing out with
  | nil => simpa [hyphenate] using h
  | cons c cs ih =>
    rw [hyphenate]
    split
    · rename_i hc
      exact ih (List.forall_mem_cons.mpr ⟨.inl (isSlugChar_toLower hc), h⟩)
    · split
      · exact ih h
      · exact ih (List.forall_mem_cons.mpr ⟨.inr rfl, h⟩)

/-- No second hyphen is written behind a hyphen. -/
theorem not_doubled_hyphenate {out : List Char} (h : ¬ ['-', '-'] <:+: out) :
    ¬ ['-', '-'] <:+: hyphenate out cs := by
  induction cs generalizing out with
  | nil =>
    rw [hyphenate]
    exact fun hdouble => h (List.reverse_infix.mp hdouble)
  | cons c cs ih =>
    rw [hyphenate]
    split
    · rename_i hc
      refine ih ?_
      rw [List.infix_cons_iff, List.cons_prefix_cons]
      rintro (⟨hdash, -⟩ | hdouble)
      · exact absurd (hdash ▸ isSlugChar_toLower hc) (by decide)
      · exact h hdouble
    · split
      · exact ih h
      · rename_i hhead
        refine ih ?_
        rw [List.infix_cons_iff, List.cons_prefix_cons]
        rintro (⟨-, hfirst⟩ | hdouble)
        · obtain ⟨rest, rfl⟩ := hfirst
          exact hhead rfl
        · exact h hdouble

/-- Hyphens in place of gaps change no run. -/
theorem runsFrom_hyphenate (out cs : List Char) :
    runsFrom [] (hyphenate out cs) = runsFrom [] (out.reverse ++ cs) := by
  induction cs generalizing out with
  | nil => rw [hyphenate, List.append_nil]
  | cons c cs ih =>
    rw [hyphenate]
    split
    · rw [ih, List.reverse_cons, List.append_assoc, List.singleton_append,
        ← runsFrom_map_toLower [] (out.reverse ++ c :: cs), ← runsFrom_map_toLower]
      simp only [List.map_append, List.map_cons, toLower_toLower]
    · rename_i hc
      rw [Bool.not_eq_true] at hc
      split
      · rename_i hhead
        obtain ⟨rest, rfl⟩ := List.head?_eq_some_iff.mp hhead
        rw [ih, List.reverse_cons, List.append_assoc, List.append_assoc, List.singleton_append,
          List.singleton_append, runsFrom_append_of_other rfl, runsFrom_append_of_other rfl,
          runsFrom_cons_of_other hc]
        rfl
      · rw [ih, List.reverse_cons, List.append_assoc, List.singleton_append,
          runsFrom_append_of_other rfl, runsFrom_append_of_other hc]

/-- Hyphens at the ends are no part of a run. -/
theorem runsFrom_trimHyphens (cs : List Char) : runsFrom [] (trimHyphens cs) = runsFrom [] cs := by
  have hother {c : Char} (hc : (c == '-') = true) : c.isAlphanum = false := by
    rw [beq_iff_eq.mp hc]
    rfl
  calc runsFrom [] (trimHyphens cs)
      = runsFrom [] (trimHyphens cs ++ (cs.dropWhile (· == '-')).rtakeWhile (· == '-')) :=
        (runsFrom_append_others (fun c hc => hother (@List.mem_rtakeWhile_imp _ (· == '-') _ _ hc))
          [] _).symm
    _ = runsFrom [] (cs.dropWhile (· == '-')) := by
        rw [trimHyphens, List.rdropWhile_append_rtakeWhile]
    _ = runsFrom [] (cs.takeWhile (· == '-') ++ cs.dropWhile (· == '-')) :=
        (runsFrom_others_append
          (fun c hc => hother (List.all_eq_true.mp List.all_takeWhile c hc)) _).symm
    _ = runsFrom [] cs := by rw [List.takeWhile_append_dropWhile]

/-- What is left of a row of small letters, digits and single hyphens is a slug, or nothing. -/
theorem isSlug_trimHyphens (hchars : ∀ c ∈ cs, isSlugChar c = true ∨ c = '-')
    (hdouble : ¬ ['-', '-'] <:+: cs) (hne : trimHyphens cs ≠ []) : IsSlug (trimHyphens cs) := by
  have hstart : trimHyphens cs <+: cs.dropWhile (· == '-') := List.rdropWhile_prefix _ _
  have hin : trimHyphens cs <:+: cs :=
    hstart.isInfix.trans (List.dropWhile_suffix _).isInfix
  refine isSlug_iff.mpr ⟨hne, fun c hc => hchars c (hin.subset hc), fun hhead => ?_,
    fun hlast => ?_, fun h => hdouble (h.trans hin)⟩
  · -- The first character is the first one that is left when hyphens are dropped.
    have hfirst : (cs.dropWhile (· == '-')).head? = some '-' := by
      obtain ⟨rest, hrest⟩ := hstart
      rw [← hrest, List.head?_append, hhead, Option.some_or]
    have := List.head?_dropWhile_not (· == '-') cs
    rw [hfirst] at this
    exact absurd this (by decide)
  · refine List.rdropWhile_last_not _ _ hne ?_
    rw [List.getLast?_eq_some_getLast hne] at hlast
    exact beq_iff_eq.mpr (Option.some.inj hlast)

/-- **Slugs come from one pass over the name.** -/
theorem slug_eq_squeezed (name : String) : slug name = squeezed name := by
  obtain ⟨cs, hcs⟩ : ∃ cs, cs = trimHyphens (hyphenate [] (trimList name.toList)) := ⟨_, rfl⟩
  have hruns : runsFrom [] cs = runsOf name := by
    rw [hcs, runsFrom_trimHyphens, runsFrom_hyphenate, List.reverse_nil, List.nil_append,
      runsFrom_trimList]
    rfl
  have hslug (hne : cs ≠ []) : IsSlug cs := by
    subst hcs
    exact isSlug_trimHyphens (chars_hyphenate (List.forall_mem_nil _))
      (not_doubled_hyphenate (by decide)) hne
  rw [squeezed, ← hcs]
  by_cases hne : cs = []
  · subst hne
    rw [slug, ← hruns]
    rfl
  · obtain ⟨hruns_ne, hjoin⟩ := (hslug hne).intercalate_runsFrom
    rw [hruns] at hruns_ne hjoin
    simp only [List.isEmpty_iff, hne, if_false]
    rw [slug_of_runsOf_ne_nil hruns_ne, hjoin]

example : slug "  Évaluer: A+B  " = "valuer-a-b" := by decide

end Formula
