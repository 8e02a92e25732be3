import Formula.Store
import Mathlib.Data.String.Basic

/-!
# Where the path of a file leads

The path of a file is the path of its directory, with the name of the file behind it. If this name is
a single step, then the path leads to the directory, and from there to nothing else than that name.

## Main definitions

* `IsStep`: a name that is a single step of a path
* `Store.LeadsTo`: a written path leads to a directory

## Main results

* `splitOn_ofList`: the pieces of a text between occurrences of a character
* `Route.ofText_append_slash`: a slash parts the last step of a path from those before it
* `Route.ofText_joinPath`: the path of something in a directory, as a text
* `Store.approach_enter_iff`: what is entered in a directory lies in the directory
-/

namespace Formula

/-! ## Pieces of a text -/

section Pieces

open String (ofList utf8Len)

/-- The pieces of a text from a place on, where `m` is what the piece in which it lies begins with,
and `l` is what stands before this piece. -/
theorem splitOnAux_of_valid (sep : Char) (l m r : List Char) (pieces : List String) :
    String.splitOnAux (ofList (l ++ (m ++ r))) (ofList [sep]) ⟨utf8Len l⟩
      ⟨utf8Len l + utf8Len m⟩ 0 pieces =
      pieces.reverse ++ (List.splitOnPPrepend (· == sep) r m.reverse).map ofList := by
  induction r generalizing l m pieces with
  | nil =>
    have hend := String.atEnd_of_valid (l ++ m) []
    have hcut := String.extract_of_valid l m []
    rw [String.utf8Len_append, List.append_assoc] at hend
    rw [List.append_assoc] at hcut
    rw [String.splitOnAux, if_pos (hend.mpr rfl), hcut]
    simp
  | cons c r ih =>
    have hend := String.atEnd_of_valid (l ++ m) (c :: r)
    have hget := String.get_of_valid (l ++ m) (c :: r)
    have hnext := String.next_of_valid (l ++ m) c r
    have hcut := String.extract_of_valid l m (c :: r)
    rw [String.utf8Len_append, List.append_assoc] at hend hget hnext
    rw [List.append_assoc] at hcut
    have hsep : String.Pos.Raw.get (ofList [sep]) 0 = sep := String.get_of_valid [] [sep]
    have hsepNext : String.Pos.Raw.next (ofList [sep]) 0 = ⟨sep.utf8Size⟩ := by
      simpa using String.next_of_valid [] sep []
    have hsepEnd : String.Pos.Raw.atEnd (ofList [sep]) ⟨sep.utf8Size⟩ = true := by
      simpa using (String.atEnd_of_valid [sep] []).mpr rfl
    rw [String.splitOnAux, if_neg fun h => List.cons_ne_nil _ _ (hend.mp h), hget, hsep, hnext,
      List.headD_cons, List.splitOnPPrepend_cons_eq_if]
    by_cases hc : c = sep
    · -- The piece ends before this character, and the next one begins behind it.
      subst hc
      have hback : (⟨utf8Len l + utf8Len m + c.utf8Size⟩ : String.Pos.Raw).unoffsetBy
          ⟨c.utf8Size⟩ = ⟨utf8Len l + utf8Len m⟩ := by
        simp [String.Pos.Raw.unoffsetBy]
      have hrest := ih (l ++ m ++ [c]) [] (ofList m :: pieces)
      simp only [List.append_assoc, List.nil_append, List.singleton_append, String.utf8Len_append,
        String.utf8Len_cons, String.utf8Len_nil, Nat.add_zero, Nat.zero_add,
        ← Nat.add_assoc] at hrest
      simp only [beq_self_eq_true, if_true, hsepNext, hsepEnd, hback, hcut, hrest]
      simp
    · have hstay : (⟨utf8Len l + utf8Len m⟩ : String.Pos.Raw).unoffsetBy 0 =
          ⟨utf8Len l + utf8Len m⟩ := by
        simp [String.Pos.Raw.unoffsetBy]
      have hrest := ih l (m ++ [c]) pieces
      simp only [List.append_assoc, List.singleton_append, String.utf8Len_append,
        String.utf8Len_cons, String.utf8Len_nil, Nat.zero_add, ← Nat.add_assoc] at hrest
      simp only [beq_eq_false_iff_ne.mpr hc, Bool.false_eq_true, if_false, hstay, hnext, hrest]
      simp

/-- The pieces of a text between occurrences of a character. -/
theorem splitOn_ofList (sep : Char) (s : String) :
    s.splitOn (ofList [sep]) = (s.toList.splitOn sep).map ofList := by
  have hne : (ofList [sep] == "") = false := by simp
  have hsplit := splitOnAux_of_valid sep [] [] s.toList []
  rw [List.nil_append, List.nil_append, String.ofList_toList] at hsplit
  rw [String.splitOn, hne, if_neg Bool.false_ne_true]
  exact hsplit

theorem splitOn_slash (s : String) : s.splitOn "/" = (s.toList.splitOn '/').map ofList :=
  splitOn_ofList '/' s

end Pieces

/-! ## Steps of a path -/

namespace Route

variable {front last : String}

theorem splitOn_append_slash (front : String) (hlast : '/' ∉ last.toList) :
    (front ++ "/" ++ last).splitOn "/" = front.splitOn "/" ++ [last] := by
  have htext : (front ++ "/" ++ last).toList = front.toList ++ '/' :: last.toList := by simp
  rw [splitOn_slash, splitOn_slash, htext, List.splitOn_append_cons_self,
    List.splitOn_eq_singleton hlast, List.map_append, List.map_singleton, String.ofList_toList]

/-- **A slash parts the last step of a path from those before it.** -/
theorem ofText_append_slash (hfront : front ≠ "") (hlast : '/' ∉ last.toList) :
    ofText (front ++ "/" ++ last) =
      { ofText front with steps := (ofText front).steps ++ [.ofText last] } := by
  have hne : front ++ "/" ++ last ≠ "" := by simp
  have hstart : (front ++ "/" ++ last).startsWith "/" = front.startsWith "/" := by
    obtain ⟨c, cs, hcs⟩ := List.exists_cons_of_ne_nil (mt String.toList_eq_nil_iff.mp hfront)
    rw [Bool.eq_iff_iff, String.startsWith_string_iff, String.startsWith_string_iff]
    simp [hcs]
  have hsteps : (front.splitOn "/").map PathStep.ofText ≠ [] := by
    simp [splitOn_slash]
  rw [ofText, ofText, if_neg hne, if_neg hfront, hstart, splitOn_append_slash front hlast,
    List.map_append, List.map_singleton]
  split
  · -- What stands before a slash at the beginning is no step.
    simp only [List.drop_append_of_le_length (List.length_pos_iff.mpr hsteps)]
  · rfl

/-- Behind a slash alone there is a single step from the root. -/
theorem ofText_slash (hlast : '/' ∉ last.toList) :
    ofText ("/" ++ last) = ⟨true, [.ofText last]⟩ := by
  have hsplit := splitOn_append_slash "" hlast
  rw [String.empty_append] at hsplit
  have hne : "/" ++ last ≠ "" := by simp
  have hstart : ("/" ++ last).startsWith "/" = true := by
    rw [String.startsWith_string_iff, String.toList_append]
    exact List.prefix_append _ _
  rw [ofText, if_neg hne, hstart, if_pos rfl, hsplit]
  simp [splitOn_slash]

/-- The steps before the last slash are the same, whatever stands behind it. -/
theorem exists_ofText_append_slash (front : String) : ∃ r : Route, ∀ last : String,
    '/' ∉ last.toList →
      ofText (front ++ "/" ++ last) = { r with steps := r.steps ++ [.ofText last] } := by
  by_cases hfront : front = ""
  · subst hfront
    exact ⟨⟨true, []⟩, fun last hlast => by rw [String.empty_append, ofText_slash hlast]; rfl⟩
  · exact ⟨ofText front, fun last hlast => ofText_append_slash hfront hlast⟩

theorem startsWith_slash_of_notMem {text : String} (h : '/' ∉ text.toList) :
    text.startsWith "/" = false := by
  rw [String.startsWith_string_eq_false_iff]
  exact fun hstart => h (hstart.subset (by simp))

/-- A text without a slash is a path of a single step. -/
theorem ofText_of_notMem {text : String} (hne : text ≠ "") (h : '/' ∉ text.toList) :
    ofText text = ⟨false, [.ofText text]⟩ := by
  rw [ofText, if_neg hne, startsWith_slash_of_notMem h, if_neg Bool.false_ne_true, splitOn_slash,
    List.splitOn_eq_singleton h, List.map_singleton, String.ofList_toList, List.map_singleton]

/-- A text with a slash has a last one. -/
theorem exists_last_slash {text : String} (h : '/' ∈ text.toList) :
    ∃ front last : String, text = front ++ "/" ++ last ∧ '/' ∉ last.toList := by
  obtain ⟨back, front, htext, hback⟩ := List.eq_append_cons_of_mem (List.mem_reverse.mpr h)
  refine ⟨String.ofList front.reverse, String.ofList back.reverse, ?_, by simpa using hback⟩
  rw [← String.toList_inj, ← List.reverse_reverse text.toList, htext]
  simp

theorem endsWith_slash_iff {text : String} :
    text.endsWith "/" = true ↔ ∃ front, text = front ++ "/" := by
  have hsuffix : text.endsWith "/" = true ↔ "/".toList <:+ text.toList := by
    rw [String.endsWith_eq_endsWith_toSlice, String.Slice.endsWith_string_iff,
      String.copy_toSlice]
  rw [hsuffix]
  constructor
  · rintro ⟨front, hfront⟩
    exact ⟨String.ofList front, by simpa [← String.toList_inj] using hfront.symm⟩
  · rintro ⟨front, rfl⟩
    exact ⟨front.toList, (String.toList_append).symm⟩

end Route

/-- **A name that is a single step of a path.** -/
structure IsStep (name : String) : Prop where
  no_slash : '/' ∉ name.toList
  enters : PathStep.ofText name = .enter name

/-- By itself it is a path to something in the working directory. -/
theorem IsStep.ofText_eq {name : String} (h : IsStep name) :
    Route.ofText name = Route.enter {} name := by
  have hne : name ≠ "" := by
    rintro rfl
    cases h.enters
  rw [Route.ofText_of_notMem hne h.no_slash, h.enters]
  rfl

namespace Route

variable {r : Route} {name : String}

theorem enter_of_slash (r : Route) (name : String) :
    enter { r with steps := r.steps ++ [.empty] } name =
      { r with steps := r.steps ++ [.enter name] } := by
  simp [enter, approachSteps]

theorem enter_of_no_slash (h : r.steps.getLast? ≠ some .empty) (name : String) :
    r.enter name = { r with steps := r.steps ++ [.enter name] } := by
  rw [enter, approachSteps, if_neg h]

/-- A path that does not end with a slash has no empty step at its end. -/
theorem getLast?_ofText {text : String} (hne : text ≠ "") (hend : ¬ text.endsWith "/" = true) :
    (ofText text).steps.getLast? ≠ some .empty := by
  have hstep {last : String} (hlast : last ≠ "") : PathStep.ofText last ≠ .empty := by
    intro h
    exact hlast ((PathStep.text_ofText last).symm.trans (congrArg PathStep.text h))
  by_cases hslash : '/' ∈ text.toList
  · obtain ⟨front, last, rfl, hlast⟩ := exists_last_slash hslash
    obtain ⟨r, hr⟩ := exists_ofText_append_slash front
    have hlastne : last ≠ "" := by
      rintro rfl
      exact hend (endsWith_slash_iff.mpr ⟨front, String.append_empty⟩)
    rw [hr last hlast, List.getLast?_concat]
    exact fun h => hstep hlastne (Option.some.inj h)
  · rw [ofText_of_notMem hne hslash]
    exact fun h => hstep hne (Option.some.inj h)

/-- **The path of something in a directory** is the path of the directory, with the name entered. -/
theorem ofText_joinPath (hname : IsStep name) (directory : String) :
    ofText (joinPath directory name) = (ofText directory).enter name := by
  rw [joinPath, startsWith_slash_of_notMem hname.no_slash, if_neg Bool.false_ne_true]
  by_cases hdirectory : directory = ""
  · subst hdirectory
    rw [if_pos (.inl rfl), String.empty_append]
    exact hname.ofText_eq
  · by_cases hend : directory.endsWith "/" = true
    · rw [if_pos (.inr hend)]
      obtain ⟨front, rfl⟩ := endsWith_slash_iff.mp hend
      obtain ⟨r, hr⟩ := exists_ofText_append_slash front
      have hempty := hr "" (by simp)
      rw [String.append_empty] at hempty
      rw [hr name hname.no_slash, hempty, hname.enters]
      exact (enter_of_slash r name).symm
    · rw [if_neg (not_or.mpr ⟨hdirectory, hend⟩),
        ofText_append_slash hdirectory hname.no_slash, hname.enters,
        enter_of_no_slash (getLast?_ofText hdirectory hend)]

end Route

/-! ## Directories that a path leads to -/

namespace Store

variable {γ : Type} {s : Store γ} {r : Route} {place other : Path} {name : String}

theorem isDirectory_iff : s.isDirectory place = true ↔ s.node? place = some .directory := by
  unfold isDirectory
  split <;> simp_all

/-- **A written path leads to a directory.** -/
structure LeadsTo (s : Store γ) (r : Route) (place : Path) : Prop where
  walk : s.walk (s.start r) r.steps = .ok place
  directory : s.isDirectory place = true

theorem LeadsTo.unique (h : s.LeadsTo r place) (h' : s.LeadsTo r other) : place = other :=
  Except.ok.inj (h.walk.symm.trans h'.walk)

/-- An empty step at the end of a path to a directory stays there. -/
theorem leadsTo_append_empty :
    s.LeadsTo { r with steps := r.steps ++ [.empty] } place ↔ s.LeadsTo r place := by
  have hwalk : s.walk (s.start r) (r.steps ++ [.empty]) = .ok place ↔
      s.LeadsTo r place := by
    rw [walk_append]
    cases hr : s.walk (s.start r) r.steps with
    | error e =>
      constructor
      · rintro ⟨⟩
      · intro h
        cases hr.symm.trans h.walk
    | ok next =>
      by_cases hnext : s.isDirectory next = true
      · simp only [walk, step, hnext, if_true, Except.ok.injEq]
        constructor
        · rintro rfl
          exact ⟨hr, hnext⟩
        · exact fun h => Except.ok.inj (hr.symm.trans h.walk)
      · simp only [walk, step, hnext, if_false, Bool.false_eq_true]
        constructor
        · rintro ⟨⟩
        · intro h
          cases hr.symm.trans h.walk
          exact absurd h.directory hnext
  exact ⟨fun h => hwalk.mp h.walk, fun h => ⟨hwalk.mpr h, h.directory⟩⟩

/-- The steps before what is entered lead to the directory. -/
theorem leadsTo_approachSteps :
    s.LeadsTo { r with steps := r.approachSteps } place ↔ s.LeadsTo r place := by
  unfold Route.approachSteps
  split
  · rename_i hlast
    rw [← leadsTo_append_empty, List.dropLast_append_getLast? _ hlast]
  · rfl

/-- **What is entered in a directory lies in the directory.** -/
theorem approach_enter_iff {step : PathStep} :
    s.approach (r.enter name) = .ok (place, step) ↔ step = .enter name ∧ s.LeadsTo r place := by
  have hstart : s.start (r.enter name) = s.start { r with steps := r.approachSteps } := rfl
  rw [← leadsTo_approachSteps, approach, hstart, Route.enter, List.getLast?_append,
    List.dropLast_concat]
  simp only [List.getLast?_singleton, Option.some_or]
  constructor
  · intro h
    split at h
    · cases h
    · rename_i next hwalk
      split at h
      · rename_i hdirectory
        cases h
        exact ⟨rfl, hwalk, hdirectory⟩
      · cases h
  · rintro ⟨rfl, hwalk, hdirectory⟩
    rw [hwalk]
    simp only [hdirectory, if_true]

end Store

end Formula
