import Formula.Package
import Formula.Package.Call
import Formula.Proofs.Format.Size

/-!
# The sizes of texts that functions of packages build

There is a limit to the texts that functions of packages are to build. How long a text gets is known
from the function and its arguments. Repetition compares that with the limit before it builds anything,
and a text does not grow when its blanks are cut off. The other functions build what they are told to:
each of them gets beyond the limit with arguments that are within it.

## Main definitions

* `Native.builtBytes`: the bytes of the text that a function is to build
* `Native.growing`: the functions that build texts of any size
* `Value.WithinLimit`: arguments of which no text is beyond the limit

## Main results

* `Native.call_cases`: what a call gives
* `Native.exists_beyond_limit`: how each growing function gets beyond the limit
* `Native.size_le_of_not_growing`: the other functions keep to the limit
* `Native.sizes_of_texts`: how long texts get, and which functions keep to the limit
-/

namespace Formula

open Format Text

/-- No text among the values is beyond the limit. -/
def Value.WithinLimit (args : List Value) : Prop :=
  ∀ s, Value.string s ∈ args → s.utf8ByteSize ≤ maxTextBytes

theorem Value.WithinLimit.nil : Value.WithinLimit [] := by
  rintro s ⟨⟩

theorem Value.WithinLimit.cons_string {s : String} {args : List Value}
    (hs : s.utf8ByteSize ≤ maxTextBytes) (h : WithinLimit args) :
    WithinLimit (.string s :: args) := by
  intro t ht
  rcases List.mem_cons.mp ht with heq | ht
  · cases heq
    exact hs
  · exact h t ht

theorem Value.WithinLimit.cons_int {args : List Value} (count : Int64) (h : WithinLimit args) :
    WithinLimit (.int count :: args) := by
  intro t ht
  rcases List.mem_cons.mp ht with heq | ht
  · cases heq
  · exact h t ht

namespace Native

/-- The functions that build texts of any size: all those that give a text, apart from repetition and
from cutting blanks off. -/
def growing : List Native :=
  [sprintf, sprint, sprintln, toUpper, toLower, replaceAll]

/-- The bytes of the text that a function is to build for its arguments, if it builds one for them. -/
def builtBytes : Native → List Value → Option Nat
  | sprintf, .string format :: rest => some (sprintfBytes format rest)
  | sprint, args => some (sprintBytes args)
  | sprintln, args => some (sprintlnBytes args)
  | toUpper, .string s :: _ => some (upperBytes s)
  | toLower, .string s :: _ => some (lowerBytes s)
  | trimSpace, .string s :: _ => some (byteLength (trimList s.toList))
  | .repeat, .string s :: .int count :: _ =>
    if count < 0 then none else some (s.utf8ByteSize * count.toInt.toNat)
  | replaceAll, .string s :: .string old :: .string replacement :: _ =>
    some (s.utf8ByteSize + occurrences old s * replacement.utf8ByteSize -
      occurrences old s * old.utf8ByteSize)
  | _, _ => none

variable {draw size : Nat} {n : Native} {args : List Value}

/-! ## What a call gives -/

/-- A result that is neither a text nor the refusal of one that is too long. -/
def NoText (result : Except Fault Value) : Prop :=
  (∀ s, result ≠ .ok (.string s)) ∧ ∀ m, result ≠ .error (.longText m)

theorem NoText.of_ok {v : Value} (h : v.isString = false) : NoText (.ok v) := by
  refine ⟨?_, by rintro _ ⟨⟩⟩
  rintro s heq
  cases heq
  cases h

theorem NoText.of_error {fault : Fault} (h : ∀ m, fault ≠ .longText m) : NoText (.error fault) := by
  refine ⟨by rintro _ ⟨⟩, ?_⟩
  rintro m heq
  cases heq
  exact h m rfl

/-- **What a call gives**: a text of the bytes that it is to have, the refusal to repeat a text beyond the
limit, or something that has to do with no text. -/
theorem call_cases (draw : Nat) (n : Native) (args : List Value) :
    (∃ s, n.call draw args = .ok (.string s) ∧ n.builtBytes args = some s.utf8ByteSize ∧
      (n = .repeat → s.utf8ByteSize ≤ maxTextBytes)) ∨
    (n = .repeat ∧ n.call draw args = .error (.longText .repeat) ∧
      ∃ size, n.builtBytes args = some size ∧ maxTextBytes < size) ∨
    (n.builtBytes args = none ∧ NoText (n.call draw args)) := by
  unfold Native.call
  split
  -- the growing functions, and cutting blanks off
  case h_1 format rest =>
    exact .inl ⟨_, rfl, congrArg some (size_sprintf format rest).symm, by rintro ⟨⟩⟩
  case h_2 => exact .inl ⟨_, rfl, congrArg some (size_sprint _).symm, by rintro ⟨⟩⟩
  case h_3 => exact .inl ⟨_, rfl, congrArg some (size_sprintln _).symm, by rintro ⟨⟩⟩
  case h_4 s _ => exact .inl ⟨_, rfl, congrArg some (size_toUpper s).symm, by rintro ⟨⟩⟩
  case h_5 s _ => exact .inl ⟨_, rfl, congrArg some (size_toLower s).symm, by rintro ⟨⟩⟩
  case h_6 s _ => exact .inl ⟨_, rfl, congrArg some (size_ofList _).symm, by rintro ⟨⟩⟩
  -- repetition, which is refused if the count is negative or the text would be too long
  case h_10 s count _ =>
    rw [repeated, builtBytes]
    split
    · exact .inr (.inr ⟨rfl, .of_error (by rintro m ⟨⟩)⟩)
    split
    · rename_i hle
      refine .inl ⟨_, rfl, congrArg some (size_repeatText s _).symm, fun _ => ?_⟩
      exact (size_repeatText s _).trans_le hle
    · rename_i hlt
      exact .inr (.inl ⟨rfl, rfl, _, rfl, Nat.lt_of_not_le hlt⟩)
  case h_11 v count rest hv =>
    have hnone : builtBytes .repeat (v :: .int count :: rest) = none := by
      rcases v with (_ | _ | s | _) | _ | _ | _ | _ | _
      case scalar.string => cases hv s rfl
      all_goals rfl
    refine .inr (.inr ⟨hnone, ?_⟩)
    split <;> exact .of_error (by rintro m ⟨⟩)
  case h_12 s old replacement _ =>
    -- the bytes of the occurrences are among those of the text, so that the difference is exact
    have hsize := size_replaceAll s old replacement
    refine .inl ⟨_, rfl, congrArg some ?_, by rintro ⟨⟩⟩
    omega
  -- the functions that draw from a range, which may be empty
  case h_21 | h_22 =>
    refine .inr (.inr ⟨rfl, ?_⟩)
    split
    · exact .of_error (by rintro m ⟨⟩)
    · exact .of_ok rfl
  case h_24 =>
    -- none of the patterns fits, and those with a text are among them
    refine .inr (.inr ⟨?_, .of_error (by rintro m ⟨⟩)⟩)
    unfold builtBytes
    split <;> first | rfl | (exfalso; solve_by_elim)
  all_goals exact .inr (.inr ⟨rfl, .of_ok rfl⟩)

/-! ## Beyond the limit -/

theorem exists_size_eq_limit : ∃ s : String, s.utf8ByteSize = maxTextBytes :=
  ⟨copies maxTextBytes 'a', (size_copies _ _).trans (Nat.mul_one _)⟩

theorem size_sprintf_beyond (hs : s.utf8ByteSize = maxTextBytes) :
    maxTextBytes < (Format.sprintf "%s|" [.string s]).utf8ByteSize := by
  have hparts : partsOf "%s|".toList = ([.directive {} 's', .char '|'], true) := by
    have hread : readDirective? "s|".toList = some ({}, 's', ['|']) := rfl
    have hbar : partsOf ['|'] = ([.char '|'], true) := by
      rw [partsOf_char (by decide), partsOf]
    exact (partsOf_directive hread).trans (by rw [hbar]; rfl)
  have hbytes : sprintfBytes "%s|" [.string s] = s.utf8ByteSize + (0 - s.length) + 1 := by
    rw [sprintfBytes, hparts]
    rfl
  rw [size_sprintf, hbytes, hs]
  omega

theorem upperBytes_copies (n : Nat) (c : Char) :
    upperBytes (copies n c) = n * byteLength (upperOf c) := by
  rw [upperBytes, copies, String.toList_ofList, List.map_replicate, List.sum_replicate_nat]

theorem lowerBytes_copies (n : Nat) (c : Char) :
    lowerBytes (copies n c) = n * byteLength (lowerOf c) := by
  rw [lowerBytes, copies, String.toList_ofList, List.map_replicate, List.sum_replicate_nat]

/-- **Each growing function gets beyond the limit** with arguments that are within it. -/
theorem exists_beyond_limit (draw : Nat) (hn : n ∈ growing) :
    ∃ args, Value.WithinLimit args ∧
      ∃ s, n.call draw args = .ok (.string s) ∧ maxTextBytes < s.utf8ByteSize := by
  obtain ⟨s, hs⟩ := exists_size_eq_limit
  have hempty : "".utf8ByteSize ≤ maxTextBytes := by decide
  have ha : "a".utf8ByteSize ≤ maxTextBytes := by decide
  have hformat : "%s|".utf8ByteSize ≤ maxTextBytes := by decide
  -- half as many letters of two bytes are a text that is as long as the limit
  have hhalf (c : Char) (hc : c.utf8Size = 2) :
      (copies (maxTextBytes / 2) c).utf8ByteSize ≤ maxTextBytes := by
    rw [size_copies, hc]
    exact Nat.div_mul_le_self maxTextBytes 2
  simp only [growing, List.mem_cons, List.not_mem_nil, or_false] at hn
  rcases hn with rfl | rfl | rfl | rfl | rfl | rfl
  · exact ⟨[.string "%s|", .string s], .cons_string hformat (.cons_string hs.le .nil), _, rfl,
      size_sprintf_beyond hs⟩
  · refine ⟨[.string s, .string "a"], .cons_string hs.le (.cons_string ha .nil), _, rfl, ?_⟩
    have hbytes : sprintBytes [.string s, .string "a"] = s.utf8ByteSize + 1 := rfl
    rw [size_sprint, hbytes, hs]
    exact Nat.lt_succ_self _
  · refine ⟨[.string s], .cons_string hs.le .nil, _, rfl, ?_⟩
    have hbytes : sprintlnBytes [.string s] = s.utf8ByteSize + 1 := rfl
    rw [size_sprintln, hbytes, hs]
    exact Nat.lt_succ_self _
  · -- an iota with two marks has an upper case of three characters
    have hupper : byteLength (upperOf (Char.ofNat 0x390)) = 6 := by decide +kernel
    refine ⟨[.string (copies (maxTextBytes / 2) (Char.ofNat 0x390))],
      .cons_string (hhalf _ rfl) .nil, _, rfl, ?_⟩
    rw [size_toUpper, upperBytes_copies, hupper, maxTextBytes]
    omega
  · -- the lower case of an A with a stroke takes a byte more
    have hlower : byteLength (lowerOf (Char.ofNat 0x23A)) = 3 := by decide +kernel
    refine ⟨[.string (copies (maxTextBytes / 2) (Char.ofNat 0x23A))],
      .cons_string (hhalf _ rfl) .nil, _, rfl, ?_⟩
    rw [size_toLower, lowerBytes_copies, hlower, maxTextBytes]
    omega
  · refine ⟨[.string s, .string "", .string "a"],
      .cons_string hs.le (.cons_string hempty (.cons_string ha .nil)), _, rfl, ?_⟩
    have hsize := size_replaceAll s "" "a"
    have hoccurs : occurrences "" s = s.length + 1 := rfl
    have hone : "a".utf8ByteSize = 1 := rfl
    rw [String.utf8ByteSize_empty, hoccurs, hone, hs] at hsize
    omega

/-- A text as long as the limit, with a line feed behind it. -/
theorem sprintln_beyond_limit :
    Value.WithinLimit [.string (copies maxTextBytes 'a')] ∧
      sprintln.call 0 [.string (copies maxTextBytes 'a')] =
        .ok (.string (copies maxTextBytes 'a' ++ "\n")) ∧
      maxTextBytes < (copies maxTextBytes 'a' ++ "\n").utf8ByteSize := by
  have hsize : (copies maxTextBytes 'a').utf8ByteSize = maxTextBytes :=
    (size_copies _ _).trans (Nat.mul_one _)
  have hfeed : "\n".utf8ByteSize = 1 := rfl
  refine ⟨.cons_string hsize.le .nil, ?_, ?_⟩
  · rw [call, Format.sprintln, List.map_singleton, String.intercalate_singleton]
    rfl
  · rw [String.utf8ByteSize_append, hsize, hfeed]
    exact Nat.lt_succ_self _

/-! ## What keeps to the limit -/

/-- What is not growing and builds a text repeats one, or cuts the blanks off one. -/
theorem eq_repeat_or_cut_of_not_growing (hn : n ∉ growing) (h : n.builtBytes args = some size) :
    n = .repeat ∨ ∃ t rest, args = .string t :: rest ∧ size = (trim t).utf8ByteSize := by
  unfold builtBytes at h
  split at h
  case h_6 t rest => exact .inr ⟨t, rest, rfl, (Option.some.inj h).symm.trans (size_ofList _).symm⟩
  case h_7 => exact .inl rfl
  case h_9 => cases h
  all_goals exact absurd (by decide) hn

/-- **A function that is not growing keeps to the limit** with arguments that do. -/
theorem size_le_of_not_growing (hn : n ∉ growing) (hargs : Value.WithinLimit args) {s : String}
    (hcall : n.call draw args = .ok (.string s)) : s.utf8ByteSize ≤ maxTextBytes := by
  rcases n.call_cases draw args with ⟨t, ht, hsize, hle⟩ | ⟨-, herror, -⟩ | ⟨-, hnone, -⟩
  · cases hcall.symm.trans ht
    rcases eq_repeat_or_cut_of_not_growing hn hsize with hrepeat | ⟨t, rest, rfl, hcut⟩
    · exact hle hrepeat
    · exact hcut.trans_le ((size_trim_le t).trans (hargs t List.mem_cons_self))
  · cases hcall.symm.trans herror
  · exact absurd hcall (hnone s)

/-- A text is given if and only if one is to be built, and it is not to be repeated beyond the limit. -/
theorem exists_call_eq_iff (draw : Nat) (n : Native) (args : List Value) (size : Nat) :
    (∃ s, n.call draw args = .ok (.string s) ∧ s.utf8ByteSize = size) ↔
      n.builtBytes args = some size ∧ (n = .repeat → size ≤ maxTextBytes) := by
  rcases n.call_cases draw args with ⟨t, ht, hsize, hle⟩ | ⟨rfl, herror, size', hsize, hlt⟩ |
    ⟨hnone, htext, -⟩
  · constructor
    · rintro ⟨s, hs, rfl⟩
      cases hs.symm.trans ht
      exact ⟨hsize, hle⟩
    · rintro ⟨hsome, -⟩
      exact ⟨t, ht, Option.some.inj (hsize.symm.trans hsome)⟩
  · constructor
    · rintro ⟨s, hs, -⟩
      cases hs.symm.trans herror
    · rintro ⟨hsome, hle⟩
      obtain rfl := Option.some.inj (hsize.symm.trans hsome)
      exact absurd (hle rfl) (Nat.not_le_of_lt hlt)
  · constructor
    · rintro ⟨s, hs, -⟩
      exact absurd hs (htext s)
    · rintro ⟨hsome, -⟩
      cases hnone.symm.trans hsome

/-- A text is refused for its length if and only if it is to be repeated beyond the limit. -/
theorem call_eq_longText_iff (draw : Nat) (n m : Native) (args : List Value) :
    n.call draw args = .error (.longText m) ↔
      m = n ∧ n = .repeat ∧ ∃ size, n.builtBytes args = some size ∧ maxTextBytes < size := by
  rcases n.call_cases draw args with ⟨t, ht, hsize, hle⟩ | ⟨rfl, herror, hsize⟩ |
    ⟨hnone, -, hrefused⟩
  · constructor
    · intro hm
      cases hm.symm.trans ht
    · rintro ⟨-, hrepeat, size, hsome, hlt⟩
      obtain rfl := Option.some.inj (hsize.symm.trans hsome)
      exact absurd (hle hrepeat) (Nat.not_le_of_lt hlt)
  · constructor
    · intro hm
      cases hm.symm.trans herror
      exact ⟨rfl, rfl, hsize⟩
    · rintro ⟨rfl, -, -⟩
      exact herror
  · constructor
    · intro hm
      exact absurd hm (hrefused m)
    · rintro ⟨-, -, size, hsome, -⟩
      cases hnone.symm.trans hsome

/-- **How long texts get.** A function gives a text if and only if it is to build one, which has the bytes
that it is to have; only repetition compares them with the limit, and refuses a text beyond it. So what
is not growing keeps to the limit with arguments that do, and each function that is growing gets beyond
it with some that do. -/
theorem sizes_of_texts (draw : Nat) (n : Native) :
    (∀ args size, (∃ s, n.call draw args = .ok (.string s) ∧ s.utf8ByteSize = size) ↔
      n.builtBytes args = some size ∧ (n = .repeat → size ≤ maxTextBytes)) ∧
    (∀ args m, n.call draw args = .error (.longText m) ↔
      m = n ∧ n = .repeat ∧ ∃ size, n.builtBytes args = some size ∧ maxTextBytes < size) ∧
    (n ∉ growing → ∀ args, Value.WithinLimit args → ∀ s, n.call draw args = .ok (.string s) →
      s.utf8ByteSize ≤ maxTextBytes) ∧
    (n ∈ growing → ∃ args, Value.WithinLimit args ∧
      ∃ s, n.call draw args = .ok (.string s) ∧ maxTextBytes < s.utf8ByteSize) :=
  ⟨n.exists_call_eq_iff draw, fun args m => n.call_eq_longText_iff draw m args,
    fun hn _ hargs _ => size_le_of_not_growing hn hargs, n.exists_beyond_limit draw⟩

/-- A text that is repeated keeps to the limit. -/
theorem sizes_of_texts_repeated : .repeat ∉ growing ∧
    Value.WithinLimit [.string "ab", .int 3] ∧
    Native.repeat.call 0 [.string "ab", .int 3] = .ok (.string "ababab") ∧
    "ababab".utf8ByteSize ≤ maxTextBytes ∧ sprintln ∈ growing ∧
    ∃ args, Value.WithinLimit args ∧
      ∃ s, sprintln.call 0 args = .ok (.string s) ∧ maxTextBytes < s.utf8ByteSize := by
  have hn : .repeat ∉ growing := by decide
  have hargs : Value.WithinLimit [.string "ab", .int 3] :=
    .cons_string (by decide) (.cons_int 3 .nil)
  have hcall : Native.repeat.call 0 [.string "ab", .int 3] = .ok (.string "ababab") :=
    rfl
  have hsprintln : sprintln ∈ growing := by decide
  exact ⟨hn, hargs, hcall, (sizes_of_texts 0 .repeat).2.2.1 hn _ hargs _ hcall, hsprintln,
    (sizes_of_texts 0 sprintln).2.2.2 hsprintln⟩

end Native

end Formula
