import Formula.Package.Format

/-!
# The parts of a format

A format is read into its parts: characters, percent signs that are written twice, and directives.
The directives take the arguments one after the other, and each part has a text of its own. So a
format that is read to its end can be put before another one, and the arguments of both before one
another.

## Main definitions

* `Part`, `partsOf`: the parts of a format, and whether it is read to its end
* `Part.text`: the text of a part
* `supplied ps args`: the parts with the arguments that are next to them
* `Takes f args`: a format takes exactly these arguments

## Main results

* `readDirective?_append`: what is read of a directive does not depend on what stands behind it
* `partsOf_append`: the parts of a format that is read to its end, and those of what stands behind it
* `sprintf_eq_join`: a formatted text is put together from the texts of the parts
* `sprintf_compositional`: formatting is compositional
-/

namespace Formula.Format

/-! ## Reading a directive -/

theorem readFlags_append_of_ne_nil {s s' : Spec} {cs rest : List Char}
    (h : readFlags s cs = (s', rest)) (hrest : rest ≠ []) (more : List Char) :
    readFlags s (cs ++ more) = (s', rest ++ more) := by
  fun_induction readFlags s cs with
  | case1 s =>
    cases h
    exact absurd rfl hrest
  | case2 s cs ih | case3 s cs ih | case4 s cs ih | case5 s cs ih => exact ih h
  | case6 s c cs =>
    cases h
    rw [List.cons_append, readFlags] <;> assumption

theorem readNumber?_append_of_ne_nil {n n' : Option Nat} {cs rest : List Char}
    (h : readNumber? n cs = some (n', rest)) (hrest : rest ≠ []) (more : List Char) :
    readNumber? n (cs ++ more) = some (n', rest ++ more) := by
  fun_induction readNumber? n cs with
  | case1 n =>
    cases h
    exact absurd rfl hrest
  | case2 => cases h
  | case3 n c cs hdigit hle ih =>
    rw [List.cons_append, readNumber?, if_pos hdigit, if_neg hle]
    exact ih h
  | case4 n c cs hdigit =>
    cases h
    rw [List.cons_append, readNumber?, if_neg hdigit]

theorem readPrecision?_append_of_ne_nil {p : Option Nat} {cs rest : List Char}
    (h : readPrecision? cs = some (p, rest)) (hcs : cs ≠ []) (hrest : rest ≠ [])
    (more : List Char) : readPrecision? (cs ++ more) = some (p, rest ++ more) := by
  unfold readPrecision? at h
  split at h
  · obtain ⟨⟨n, rest'⟩, hnumber, hr⟩ := Option.map_eq_some_iff.mp h
    cases hr
    rw [List.cons_append, readPrecision?, readNumber?_append_of_ne_nil hnumber hrest]
    rfl
  · rename_i hpoint
    cases h
    obtain ⟨c, cs, rfl⟩ := List.exists_cons_of_ne_nil hcs
    rw [List.cons_append, readPrecision?]
    rintro cs' heq
    obtain ⟨rfl, -⟩ := List.cons.inj heq
    exact hpoint cs rfl

/-- **What is read of a directive does not depend on what stands behind it.** -/
theorem readDirective?_append {cs rest : List Char} {s : Spec} {verb : Char}
    (h : readDirective? cs = some (s, verb, rest)) (more : List Char) :
    readDirective? (cs ++ more) = some (s, verb, rest ++ more) := by
  unfold readDirective? at h
  rcases hflags : readFlags {} cs with ⟨flags, afterFlags⟩
  rw [hflags] at h
  dsimp only at h
  split at h
  · cases h
  rename_i width afterWidth hwidth
  split at h
  · cases h
  · cases h
  rename_i precision verb' rest' hprecision
  cases h
  -- there is a verb, so that neither the flags nor the width are all that there is
  have hafterWidth : afterWidth ≠ [] := by
    rintro rfl
    cases hprecision
  have hafterFlags : afterFlags ≠ [] := by
    rintro rfl
    cases hwidth
    exact hafterWidth rfl
  have hprecision' := readPrecision?_append_of_ne_nil hprecision hafterWidth (by simp) more
  rw [List.cons_append] at hprecision'
  simp only [readDirective?, readFlags_append_of_ne_nil hflags hafterFlags,
    readNumber?_append_of_ne_nil hwidth hafterWidth, hprecision']

/-! ## The parts of a format -/

/-- A part of a format. -/
inductive Part where
  /-- A character that stands for itself. -/
  | char (c : Char)
  /-- A directive whose verb is a percent sign. -/
  | percent
  /-- A directive that takes an argument. -/
  | directive (s : Spec) (verb : Char)
deriving Repr, DecidableEq

namespace Part

/-- Whether a part takes an argument. -/
def takes : Part → Bool
  | directive .. => true
  | _ => false

/-- The text of a part; a directive for which there is no argument is reported. -/
def text (arg : Option Value) : Part → String
  | char c => c.toString
  | percent => "%"
  | directive s verb =>
    match arg with
    | some v => formatValue s verb v
    | none => "%!" ++ verb.toString ++ "(MISSING)"

end Part

/-- **The parts of a format**, and whether it is read to its end. It is not if a directive has no verb,
or a number in it that is too large. -/
def partsOf : List Char → List Part × Bool
  | [] => ([], true)
  | c :: cs =>
    if c = '%' then
      match h : readDirective? cs with
      | none => ([], false)
      | some (s, verb, rest) =>
        have := length_of_readDirective? h
        let (ps, whole) := partsOf rest
        (if verb = '%' then .percent :: ps else .directive s verb :: ps, whole)
    else
      let (ps, whole) := partsOf cs
      (.char c :: ps, whole)
termination_by cs => cs.length

/-- How many arguments the parts of a format take. -/
def demand (ps : List Part) : Nat :=
  ps.countP Part.takes

theorem demand_append (ps qs : List Part) : demand (ps ++ qs) = demand ps + demand qs :=
  List.countP_append

/-- What is reported where a format is not read to its end. -/
def endTexts (whole : Bool) : List String :=
  if whole then [] else ["%!(NOVERB)"]

theorem partsOf_directive {cs rest : List Char} {s : Spec} {verb : Char}
    (h : readDirective? cs = some (s, verb, rest)) : partsOf ('%' :: cs) =
      (if verb = '%' then .percent :: (partsOf rest).1 else .directive s verb :: (partsOf rest).1,
        (partsOf rest).2) := by
  rw [partsOf, if_pos rfl]
  split
  · rename_i hnone
    cases hnone.symm.trans h
  · rename_i hsome
    cases hsome.symm.trans h
    rfl

theorem partsOf_unreadable {cs : List Char} (h : readDirective? cs = none) :
    partsOf ('%' :: cs) = ([], false) := by
  rw [partsOf, if_pos rfl]
  split
  · rfl
  · rename_i hsome
    cases hsome.symm.trans h

theorem partsOf_char {c : Char} (hc : c ≠ '%') (cs : List Char) :
    partsOf (c :: cs) = (.char c :: (partsOf cs).1, (partsOf cs).2) := by
  rw [partsOf, if_neg hc]

/-- **The parts of a format that is read to its end** come before those of what stands behind it. -/
theorem partsOf_append (cs ds : List Char) (h : (partsOf cs).2 = true) :
    partsOf (cs ++ ds) = ((partsOf cs).1 ++ (partsOf ds).1, (partsOf ds).2) := by
  fun_induction partsOf cs with
  | case1 => rfl
  | case2 => cases h
  | case3 cs s verb rest hread _ ps whole hps ih =>
    rw [hps] at ih
    rw [List.cons_append, partsOf_directive (readDirective?_append hread ds), ih h]
    split <;> rfl
  | case4 c cs hc ps whole hps ih =>
    rw [hps] at ih
    rw [List.cons_append, partsOf_char hc, ih h]
    rfl

/-! ## The arguments of the parts -/

/-- The parts of a format, each with the argument that is next: that one before which there are as many
arguments as there are directives before the part. -/
def supplied (ps : List Part) (args : List Value) : List (Part × Option Value) :=
  ps.mapIdx fun i p => (p, args[demand (ps.take i)]?)

/-- The arguments that directives take. -/
def used (ps : List (Part × Option Value)) : List Value :=
  ps.filterMap fun (p, arg) => if p.takes then arg else none

/-- How many directives have no argument. -/
def missing (ps : List (Part × Option Value)) : Nat :=
  ps.countP fun (p, arg) => p.takes && arg.isNone

/-- The texts of parts. -/
def texts (ps : List (Part × Option Value)) : List String :=
  ps.map fun (p, arg) => p.text arg

variable {p : Part} {args : List Value}

theorem demand_cons (p : Part) (ps : List Part) :
    demand (p :: ps) = demand ps + if p.takes then 1 else 0 :=
  List.countP_cons

/-- What takes no argument leaves all of them to the parts behind it. -/
theorem supplied_cons_of_not_takes (h : p.takes = false) (ps : List Part) (args : List Value) :
    supplied (p :: ps) args = (p, args.head?) :: supplied ps args := by
  simp [supplied, List.mapIdx_cons, demand, h, List.head?_eq_getElem?]

/-- A directive leaves the arguments behind the first one. -/
theorem supplied_cons_of_takes (h : p.takes = true) (ps : List Part) (args : List Value) :
    supplied (p :: ps) args = (p, args.head?) :: supplied ps args.tail := by
  simp [supplied, List.mapIdx_cons, demand, h, List.head?_eq_getElem?]

theorem texts_cons (p : Part) (arg : Option Value) (ps : List (Part × Option Value)) :
    texts ((p, arg) :: ps) = p.text arg :: texts ps :=
  rfl

theorem Part.text_of_not_takes (h : p.takes = false) (arg arg' : Option Value) :
    p.text arg = p.text arg' := by
  cases p <;> first | rfl | cases h

/-- **Each argument is taken once and in order**, as long as there are directives. -/
theorem used_supplied (ps : List Part) (args : List Value) :
    used (supplied ps args) = args.take (demand ps) := by
  induction ps generalizing args with
  | nil => rfl
  | cons p ps ih =>
    cases hp : p.takes with
    | false => simpa [supplied_cons_of_not_takes hp, used, demand_cons, hp] using ih args
    | true =>
      cases args with
      | nil => simpa [supplied_cons_of_takes hp, used, demand_cons, hp] using ih []
      | cons v args => simpa [supplied_cons_of_takes hp, used, demand_cons, hp] using ih args

/-- **As many directives have no argument as there are more of them than of arguments.** -/
theorem missing_supplied (ps : List Part) (args : List Value) :
    missing (supplied ps args) = demand ps - args.length := by
  induction ps generalizing args with
  | nil => simp [supplied, missing, demand]
  | cons p ps ih =>
    cases hp : p.takes with
    | false => simpa [supplied_cons_of_not_takes hp, missing, demand_cons, hp] using ih args
    | true =>
      cases args with
      | nil => simpa [supplied_cons_of_takes hp, missing, demand_cons, hp] using ih []
      | cons v args => simpa [supplied_cons_of_takes hp, missing, demand_cons, hp] using ih args

/-- Parts that take all arguments before others. -/
theorem texts_supplied_append (ps qs : List Part) (h : demand ps = args.length)
    (more : List Value) : texts (supplied (ps ++ qs) (args ++ more)) =
      texts (supplied ps args) ++ texts (supplied qs more) := by
  induction ps generalizing args with
  | nil =>
    obtain rfl := List.eq_nil_of_length_eq_zero h.symm
    rfl
  | cons p ps ih =>
    rw [demand_cons] at h
    cases hp : p.takes with
    | false =>
      rw [hp] at h
      have htext := p.text_of_not_takes hp (args ++ more).head? args.head?
      rw [List.cons_append, supplied_cons_of_not_takes hp, supplied_cons_of_not_takes hp,
        texts_cons, texts_cons, htext, ih h, List.cons_append]
    | true =>
      rw [hp] at h
      cases args with
      | nil => cases h
      | cons v args =>
        rw [List.cons_append, supplied_cons_of_takes hp, supplied_cons_of_takes hp, texts_cons,
          texts_cons, List.cons_append, List.cons_append]
        exact congrArg _ (ih (Nat.succ.inj h))

/-! ## The pieces of a formatted text -/

/-- **The pieces of a formatted text** are the texts of the parts, and the arguments that are left are
those beyond the ones that the directives take. -/
theorem pieces_eq (cs : List Char) (args : List Value) : pieces cs args =
    (texts (supplied (partsOf cs).1 args) ++ endTexts (partsOf cs).2,
      args.drop (demand (partsOf cs).1)) := by
  fun_induction pieces cs args with
  | case1 args =>
    rw [partsOf]
    rfl
  | case2 args cs hread =>
    rw [partsOf_unreadable hread]
    rfl
  | case3 cs args s rest ps left hpieces hread _ ih =>
    rw [hpieces] at ih
    rw [partsOf_directive hread, if_pos rfl, supplied_cons_of_not_takes rfl, demand_cons,
      (Prod.mk.inj ih).1, (Prod.mk.inj ih).2]
    rfl
  | case4 cs s verb rest hread _ hverb ps left hpieces ih =>
    rw [hpieces] at ih
    rw [partsOf_directive hread, if_neg hverb, supplied_cons_of_takes rfl, (Prod.mk.inj ih).1,
      (Prod.mk.inj ih).2]
    simp [texts_cons, Part.text]
  | case5 cs s verb rest hread _ hverb arg args ps left hpieces ih =>
    rw [hpieces] at ih
    rw [partsOf_directive hread, if_neg hverb, supplied_cons_of_takes rfl, demand_cons,
      (Prod.mk.inj ih).1, (Prod.mk.inj ih).2]
    rfl
  | case6 c cs args hc ps left hpieces ih =>
    rw [hpieces] at ih
    rw [partsOf_char hc, supplied_cons_of_not_takes rfl, demand_cons, (Prod.mk.inj ih).1,
      (Prod.mk.inj ih).2]
    rfl

/-- **A formatted text** is put together from the texts of the parts and a report about the arguments
that no directive takes. -/
theorem sprintf_eq_join (f : String) (args : List Value) : sprintf f args =
    String.join (texts (supplied (partsOf f.toList).1 args) ++ endTexts (partsOf f.toList).2) ++
      extraText (args.drop (demand (partsOf f.toList).1)) := by
  rw [sprintf, pieces_eq]

/-- **A format takes exactly some arguments.** It is read to its end, so that it does not end inside a
directive and no width or precision of it is too large; no directive is without an argument; and no
argument is left. -/
structure Takes (f : String) (args : List Value) : Prop where
  read : (partsOf f.toList).2 = true
  none_missing : missing (supplied (partsOf f.toList).1 args) = 0
  none_left : (pieces f.toList args).2 = []

/-- A format that takes exactly some arguments has as many directives for them. -/
theorem Takes.demand_eq {f : String} (h : Takes f args) :
    demand (partsOf f.toList).1 = args.length := by
  have hmissing := h.none_missing
  have hleft := h.none_left
  rw [missing_supplied] at hmissing
  rw [pieces_eq] at hleft
  have := List.drop_eq_nil_iff.mp hleft
  omega

/-- A format that takes exactly some arguments comes before another one with its own. -/
theorem sprintf_append {f : String} (h : Takes f args) (g : String) (more : List Value) :
    sprintf (f ++ g) (args ++ more) = sprintf f args ++ sprintf g more := by
  have hparts := partsOf_append f.toList g.toList h.read
  have hleft : (args ++ more).drop (demand ((partsOf f.toList).1 ++ (partsOf g.toList).1)) =
      more.drop (demand (partsOf g.toList).1) := by
    rw [demand_append, h.demand_eq, List.drop_length_add_append]
  have hnone : args.drop (demand (partsOf f.toList).1) = [] := by
    rw [h.demand_eq, List.drop_length]
  rw [sprintf_eq_join, sprintf_eq_join, sprintf_eq_join, String.toList_append, hparts, hleft, hnone,
    h.read, texts_supplied_append _ _ h.demand_eq, List.append_assoc, String.join_append]
  simp [endTexts, extraText, String.append_assoc]

/-- **Formatting is compositional.** A format that takes exactly some arguments can be put before another
one, and they before the other arguments. Any format puts its parts one after the other, of which the
directives take the arguments once and in order, whatever their verbs are; what is reported as missing
or left is what there is too few or too much of. -/
theorem sprintf_compositional (f : String) (args : List Value) :
    (Takes f args → ∀ g more,
      sprintf (f ++ g) (args ++ more) = sprintf f args ++ sprintf g more) ∧
    sprintf f args =
      String.join (texts (supplied (partsOf f.toList).1 args) ++ endTexts (partsOf f.toList).2) ++
        extraText (args.drop (demand (partsOf f.toList).1)) ∧
    used (supplied (partsOf f.toList).1 args) = args.take (demand (partsOf f.toList).1) ∧
    missing (supplied (partsOf f.toList).1 args) =
      demand (partsOf f.toList).1 - args.length :=
  ⟨sprintf_append, sprintf_eq_join f args, used_supplied _ args, missing_supplied _ args⟩

theorem partsOf_percent_d_bar : partsOf "%d|".toList =
    ([.directive {} 'd', .char '|'], true) := by
  have hread : readDirective? "d|".toList = some ({}, 'd', ['|']) := rfl
  have hbar : partsOf ['|'] = ([.char '|'], true) := by
    rw [partsOf_char (by decide), partsOf]
  exact (partsOf_directive hread).trans (by rw [hbar]; rfl)

/-- A directive takes an argument that its verb is not one for. -/
theorem sprintf_badVerb_append : Takes "%d|" [.bool true] ∧
    sprintf ("%d|" ++ "%s") ([.bool true] ++ [.string "a"]) =
      sprintf "%d|" [.bool true] ++ sprintf "%s" [.string "a"] := by
  have htakes : Takes "%d|" [.bool true] := by
    constructor
    · rw [partsOf_percent_d_bar]
    · rw [partsOf_percent_d_bar]
      rfl
    · rw [pieces_eq, partsOf_percent_d_bar]
      rfl
  exact ⟨htakes, (sprintf_compositional _ _).1 htakes _ _⟩

end Formula.Format
