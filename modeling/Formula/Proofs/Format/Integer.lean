import Formula.Proofs.Format.Directive

/-!
# Formatted integers

An integer that is formatted is filled up to the width and can be read back, unless zeros are filled
in before a blank that stands in the place of its sign.

## Main definitions

* `Shows cs n`: the text `cs` shows the integer `n` between blanks
* `Parted flags width v`: zeros are filled in before a blank in the place of the sign

## Main results

* `Spec.shows_pad`: an integer that is filled up can be read back, unless zeros part it from a blank
* `sprintf_integer`: the length of a formatted integer, and whether it can be read back
-/

namespace Formula.Format

open Decimal

/-! ## Texts that show an integer -/

/-- Blanks alone. -/
def Blanks (cs : List Char) : Prop :=
  ∀ c ∈ cs, c = ' '

/-- No sign, or one. -/
def IsSign (cs : List Char) : Prop :=
  cs = [] ∨ cs = ['-'] ∨ cs = ['+']

/-- **A text shows an integer**: between blanks there is perhaps a sign, and then there are digits,
and the integer is what the digits stand for, with that sign. -/
def Shows (cs : List Char) (n : Int) : Prop :=
  ∃ before sign digits after, cs = before ++ (sign ++ (digits ++ after)) ∧
    Blanks before ∧ IsSign sign ∧ digits ≠ [] ∧ (∀ c ∈ digits, c.isDigit = true) ∧ Blanks after ∧
    n = if sign = ['-'] then -(natOfDigits digits : Int) else natOfDigits digits

theorem blanks_replicate (k : Nat) : Blanks (List.replicate k ' ') :=
  fun _ hc => List.eq_of_mem_replicate hc

theorem Blanks.append {cs ds : List Char} (h : Blanks cs) (h' : Blanks ds) : Blanks (cs ++ ds) :=
  List.forall_mem_append.mpr ⟨h, h'⟩

/-- Digits with a blank between them show nothing. -/
theorem not_shows (zeros ds : List Char) (hne : zeros ≠ []) (hzeros : ∀ c ∈ zeros, c = '0')
    (hds : ds ≠ []) (hdigits : ∀ c ∈ ds, c.isDigit = true) (n : Int) :
    ¬ Shows (zeros ++ ' ' :: ds) n := by
  rintro ⟨before, sign, digits, after, heq, hbefore, hsign, -, hall, hafter, -⟩
  -- the text starts with a zero and ends with a digit, so no blank stands around it
  have hlead : before = [] := by
    rcases before with _ | ⟨b, before⟩
    · rfl
    · obtain ⟨z, zeros, rfl⟩ := List.exists_cons_of_ne_nil hne
      obtain ⟨rfl, -⟩ := List.cons.inj heq
      have hblank := hbefore z List.mem_cons_self
      rw [hzeros z List.mem_cons_self] at hblank
      exact absurd hblank (by decide)
  have htrail : after = [] := by
    rcases List.eq_nil_or_concat after with rfl | ⟨after, b, rfl⟩
    · rfl
    · obtain ⟨ds, d, rfl⟩ := (List.eq_nil_or_concat ds).resolve_left hds
      have hlast := congrArg List.getLast? heq
      simp only [List.concat_eq_append, ← List.append_assoc, ← List.cons_append,
        List.getLast?_concat, Option.some.injEq] at hlast
      have hblank := hafter b (by simp)
      rw [← hlast] at hblank
      exact absurd (hdigits d (by simp)) (by rw [hblank]; decide)
  subst hlead htrail
  have hmem : ' ' ∈ sign ++ digits := by
    rw [List.nil_append, List.append_nil] at heq
    rw [← heq]
    simp
  rcases List.mem_append.mp hmem with hmem | hmem
  · rcases hsign with rfl | rfl | rfl <;> simp at hmem
  · exact absurd (hall ' ' hmem) (by decide)

/-! ## The parts of a formatted integer -/

/-- The digits of an integer. -/
def magnitude (v : Int64) : List Char :=
  Nat.toDigits 10 v.toInt.natAbs

theorem magnitude_ne_nil (v : Int64) : magnitude v ≠ [] :=
  Nat.toDigits_ne_nil

theorem isDigit_of_mem_magnitude (v : Int64) : ∀ c ∈ magnitude v, c.isDigit = true :=
  fun _ hc => isDigit_of_mem_toDigits hc

/-- An integer with zeros before its digits is still shown. -/
theorem shows_magnitude (v : Int64) (before sign after : List Char) (zeros : Nat)
    (hbefore : Blanks before) (hsign : IsSign sign) (hafter : Blanks after)
    (hneg : sign = ['-'] ↔ v.toInt < 0) :
    Shows (before ++ (sign ++ (List.replicate zeros '0' ++ magnitude v ++ after))) v.toInt := by
  refine ⟨before, sign, _, after, rfl, hbefore, hsign, ?_, ?_, hafter, ?_⟩
  · simp [magnitude_ne_nil]
  · refine List.forall_mem_append.mpr ⟨fun c hc => ?_, isDigit_of_mem_magnitude v⟩
    rw [List.eq_of_mem_replicate hc]
    decide
  · rw [natOfDigits_append, natOfDigits_replicate_zero, magnitude, natOfDigits_toDigits]
    simp only [hneg]
    split <;> omega

namespace Spec

/-- What is written for an integer before it is filled up. -/
def integer (s : Spec) (v : Int64) : String :=
  s.sign (v < 0) ++ toString v.toInt.natAbs

/-- A blank is written in the place of the sign. -/
def SignsBlank (s : Spec) (v : Int64) : Prop :=
  s.space = true ∧ s.plus = false ∧ 0 ≤ v.toInt

/-- Zeros are filled in before a blank that is written in the place of the sign. -/
def Parts (s : Spec) (v : Int64) : Prop :=
  s.SignsBlank v ∧ s.zero = true ∧ s.minus = false ∧ (magnitude v).length + 1 < s.width.getD 0

variable (s : Spec) (v : Int64)

theorem formatValue_integer : formatValue s 'd' (.int v) = s.pad (s.integer v) :=
  rfl

theorem toList_integer : (s.integer v).toList = (s.sign (v < 0)).toList ++ magnitude v := by
  rw [integer, magnitude, String.toList_append, Nat.toString_eq_ofList_toDigits,
    String.toList_ofList]

/-- **The sign of an integer** is a blank, or it is one that only negative integers have a minus
for. -/
theorem sign_cases :
    (s.sign (v < 0)).toList = [' '] ∧ s.SignsBlank v ∨
      IsSign (s.sign (v < 0)).toList ∧ ((s.sign (v < 0)).toList = ['-'] ↔ v.toInt < 0) ∧
        ¬ s.SignsBlank v := by
  have hneg : v < 0 ↔ v.toInt < 0 := Int64.lt_iff_toInt_lt
  unfold sign
  by_cases h : v.toInt < 0
  · right
    simp [hneg, h, IsSign, SignsBlank]
  · have hnonneg : 0 ≤ v.toInt := Int.not_lt.mp h
    cases hplus : s.plus <;> cases hspace : s.space <;>
      simp [hneg, h, hnonneg, hplus, hspace, IsSign, SignsBlank]

/-- A sign is split from what does not start with one. -/
theorem splitSign_eq {body : String} {sign rest : List Char} (hsign : IsSign sign)
    (hrest : ∀ c ∈ rest.head?, c ≠ '-' ∧ c ≠ '+') (h : body.toList = sign ++ rest) :
    (splitSign body).1.toList = sign ∧ (splitSign body).2.toList = rest := by
  unfold splitSign
  rcases hsign with rfl | rfl | rfl
  · split
    · rename_i more heq
      rw [h, List.nil_append] at heq
      exact absurd rfl (hrest '-' (by rw [heq]; rfl)).1
    · rename_i more heq
      rw [h, List.nil_append] at heq
      exact absurd rfl (hrest '+' (by rw [heq]; rfl)).2
    · exact ⟨rfl, h⟩
  · rw [h]
    simp
  · rw [h]
    simp

/-- An integer is shown between blanks. -/
theorem shows_integer (before after : List Char) (hbefore : Blanks before) (hafter : Blanks after) :
    Shows (before ++ ((s.integer v).toList ++ after)) v.toInt := by
  rw [toList_integer]
  rcases s.sign_cases v with ⟨hsign, -, -, hnonneg⟩ | ⟨hsign, hneg, -⟩
  · -- the blank in the place of the sign is one before the digits
    have hlead := hbefore.append (blanks_replicate 1)
    have hshows := shows_magnitude v _ [] after 0 hlead (.inl rfl) hafter (by simp [hnonneg])
    simpa [hsign] using hshows
  · have hshows := shows_magnitude v before _ after 0 hbefore hsign hafter hneg
    simpa using hshows

/-- **An integer that is filled up can be read back** unless zeros come before a blank in the place
of its sign. -/
theorem shows_pad (h : ¬ s.Parts v) : Shows (s.pad (s.integer v)).toList v.toInt := by
  rw [toList_pad]
  split
  · exact s.shows_integer v [] _ nofun (blanks_replicate _)
  rename_i hminus
  split
  · rename_i hzero
    rcases s.sign_cases v with ⟨hsign, hblank⟩ | ⟨hsign, hneg, -⟩
    · -- the integer is as long as the width, so there are no zeros
      have hfill : s.width.getD 0 - (s.integer v).length = 0 := by
        have hle : s.width.getD 0 ≤ (magnitude v).length + 1 := Nat.not_lt.mp fun hlt =>
          h ⟨hblank, hzero, by simpa using hminus, hlt⟩
        rw [← String.length_toList, toList_integer, hsign, List.length_append,
          List.length_singleton]
        omega
      rw [hfill, List.replicate_zero, List.nil_append, splitSign_append]
      simpa using s.shows_integer v [] [] nofun nofun
    · -- zeros come behind the sign, where they make no difference to the number
      have hdigits : ∀ c ∈ (magnitude v).head?, c ≠ '-' ∧ c ≠ '+' := by
        intro c hc
        have hdigit := isDigit_of_mem_magnitude v c (List.mem_of_mem_head? hc)
        constructor <;>
          · rintro rfl
            exact absurd hdigit (by decide)
      obtain ⟨hfirst, hsecond⟩ := splitSign_eq hsign hdigits (s.toList_integer v)
      rw [hfirst, hsecond]
      simpa using shows_magnitude v [] _ [] _ nofun hsign nofun hneg
  · simpa using s.shows_integer v _ [] (blanks_replicate _) nofun

/-- **Zeros before a blank** in the place of the sign part it from the digits. -/
theorem toList_pad_of_parts (h : s.Parts v) : (s.pad (s.integer v)).toList =
    List.replicate (s.width.getD 0 - ((magnitude v).length + 1)) '0' ++ ' ' :: magnitude v := by
  obtain ⟨hblank, hzero, hminus, -⟩ := h
  rcases s.sign_cases v with ⟨hsign, -⟩ | ⟨-, -, hno⟩
  · have hbody : (s.integer v).toList = [] ++ ' ' :: magnitude v := by
      rw [toList_integer, hsign]
      rfl
    have hhead : ∀ c ∈ (' ' :: magnitude v).head?, c ≠ '-' ∧ c ≠ '+' := by
      rintro c ⟨⟩
      decide
    obtain ⟨hfirst, hsecond⟩ := splitSign_eq (.inl rfl) hhead hbody
    rw [toList_pad, hminus, hzero, hfirst, hsecond, ← String.length_toList, hbody]
    simp
  · exact absurd hblank hno

theorem not_shows_pad (h : s.Parts v) (n : Int) : ¬ Shows (s.pad (s.integer v)).toList n := by
  rw [s.toList_pad_of_parts v h]
  refine not_shows _ _ ?_ (fun c hc => List.eq_of_mem_replicate hc) (magnitude_ne_nil v)
    (isDigit_of_mem_magnitude v) n
  have hlt := h.2.2.2
  rw [Ne, List.replicate_eq_nil_iff]
  omega

end Spec

/-! ## One directive for an integer -/

/-- **Zeros part a blank in the place of the sign from the digits** of an integer. -/
def Parted (flags : List Char) (width : Nat) (v : Int64) : Prop :=
  ' ' ∈ flags ∧ '0' ∈ flags ∧ '-' ∉ flags ∧ '+' ∉ flags ∧ 0 ≤ v.toInt ∧
    (magnitude v).length + 1 < width

/-- What a directive with flags and a width, which may be missing, makes of an integer. -/
theorem sprintf_directive {flags : List Char} {width : Nat} (hflags : ∀ c ∈ flags, isFlag c = true)
    (hwidth : width ≤ maxNumber) (v : Int64) : ∃ s : Spec, s.width.getD 0 = width ∧
      sprintf (directive flags width 'd') [.int v] = s.pad (s.integer v) ∧
      s.integer v = (Spec.flagged {} flags).integer v ∧ (s.Parts v ↔ Parted flags width v) := by
  obtain ⟨w, hread, rfl⟩ := readDirective?_directive 'd' hflags hwidth (by decide)
  have hformat := sprintf_eq (.int v) String.toList_ofList hread (by decide)
  refine ⟨_, rfl, hformat.trans (Spec.formatValue_integer ..), rfl, ?_⟩
  simp only [Spec.Parts, Spec.SignsBlank, Spec.flagged, Bool.false_or,
    ← Bool.not_eq_true, List.contains_iff_mem, Parted]
  tauto

/-- **A formatted integer** is filled up to the width and shows the integer, unless zeros part the
blank in the place of its sign from its digits. -/
theorem sprintf_integer (flags : List Char) (width : Nat) (v : Int64)
    (hflags : ∀ c ∈ flags, isFlag c = true) (hwidth : width ≤ maxNumber) :
    (sprintf (directive flags width 'd') [.int v]).length =
        max width (sprintf (directive flags 0 'd') [.int v]).length ∧
      (Shows (sprintf (directive flags width 'd') [.int v]).toList v.toInt ↔
        ¬ Parted flags width v) ∧
      (Parted flags width v → (sprintf (directive flags width 'd') [.int v]).toList =
        List.replicate (width - ((magnitude v).length + 1)) '0' ++ ' ' :: magnitude v) := by
  obtain ⟨s, rfl, htext, hinteger, hparted⟩ := sprintf_directive hflags hwidth v
  obtain ⟨s₀, hwidth₀, htext₀, hinteger₀, -⟩ := sprintf_directive hflags (Nat.zero_le maxNumber) v
  rw [htext, htext₀, ← hparted]
  refine ⟨?_, ⟨fun hshows h => s.not_shows_pad v h _ hshows, s.shows_pad v⟩,
    s.toList_pad_of_parts v⟩
  rw [Spec.length_pad, Spec.length_pad, hwidth₀, Nat.zero_max, hinteger, hinteger₀]

/-- Zeros come behind a minus, and the width has no part in the number. -/
theorem sprintf_integer_least :
    (∀ c ∈ [' ', '0'], isFlag c = true) ∧ 25 ≤ maxNumber ∧
      sprintf "% 025d" [.int Int64.minValue] = "-000009223372036854775808" ∧
      Shows "-000009223372036854775808".toList Int64.minValue.toInt := by
  have hflags : ∀ c ∈ [' ', '0'], isFlag c = true := by simp [isFlag]
  have hwidth : 25 ≤ maxNumber := by decide
  have hdirective : directive [' ', '0'] 25 'd' = "% 025d" := by decide
  have htext : sprintf "% 025d" [.int Int64.minValue] = "-000009223372036854775808" := by
    rw [sprintf_eq _ rfl rfl (by decide)]
    rfl
  obtain ⟨-, hshows, -⟩ := sprintf_integer [' ', '0'] 25 Int64.minValue hflags hwidth
  rw [hdirective, htext] at hshows
  exact ⟨hflags, hwidth, htext, hshows.mpr fun h => absurd h.2.2.2.2.1 (by decide)⟩

/-- **Zeros stand before the blank** in the place of the sign, so that the text shows no integer. -/
theorem sprintf_integer_parted :
    sprintf "% 05d" [.int 5] = "000 5" ∧ ¬ Shows (sprintf "% 05d" [.int 5]).toList 5 := by
  have htext : sprintf "% 05d" [.int 5] = "000 5" := by
    rw [sprintf_eq _ rfl rfl (by decide)]
    rfl
  refine ⟨htext, ?_⟩
  rw [htext]
  exact not_shows ['0', '0', '0'] ['5'] (by simp) (by simp) (by simp) (by simp) 5

end Formula.Format
