import Formula.Registry
import Mathlib.Data.List.Induction
import Mathlib.Data.List.Nodup

/-!
# Tables that are filled

A table is filled by putting entries into it one after the other. A new name comes behind the others,
and a name that is there keeps its place. So no name comes twice, names stand in the order in which
they were given first, and the last entry for a name is the one that counts.

## Main definitions

* `putAll`: a table behind further entries
* `Recorded name given table`: a table holds what was given, in order, with the last entry for each
  name

## Main results

* `find?_putAll`: what a name stands for in a table that was filled
* `putAll_of_nodup`: entries for different new names are put behind the others
* `recorded_putAll`: what a table holds that is filled from nothing
-/

namespace Formula

variable {α : Type} {name : α → String} {a : α} {table given : List α} {key : String}

/-- An entry for a new name is put behind the others. -/
theorem putBy_of_notMem (h : name a ∉ table.map name) : putBy name a table = table ++ [a] := by
  induction table with
  | nil => rfl
  | cons b table ih =>
    rw [List.map_cons, List.mem_cons, not_or] at h
    rw [putBy, if_neg (Ne.symm h.1), ih h.2, List.cons_append]

/-- A name that is there keeps its place. -/
theorem map_putBy_of_mem (h : name a ∈ table.map name) :
    (putBy name a table).map name = table.map name := by
  induction table with
  | nil => cases h
  | cons b table ih =>
    rw [putBy]
    split
    · rename_i hb
      rw [List.map_cons, List.map_cons, hb]
    · rename_i hb
      rw [List.map_cons, List.map_cons, ih ((List.mem_cons.mp h).resolve_left (Ne.symm hb))]

theorem nodup_putBy (h : (table.map name).Nodup) (a : α) : ((putBy name a table).map name).Nodup := by
  by_cases hmem : name a ∈ table.map name
  · rwa [map_putBy_of_mem hmem]
  · rw [putBy_of_notMem hmem, List.map_append, List.nodup_append_comm]
    exact List.nodup_cons.mpr ⟨hmem, h⟩

/-- The table behind further entries. -/
def putAll (name : α → String) (table given : List α) : List α :=
  given.foldl (fun table a => putBy name a table) table

theorem putAll_concat (table given : List α) (a : α) :
    putAll name table (given ++ [a]) = putBy name a (putAll name table given) := by
  rw [putAll, List.foldl_append]
  rfl

/-- No name comes twice. -/
theorem nodup_putAll (h : (table.map name).Nodup) (given : List α) :
    ((putAll name table given).map name).Nodup := by
  induction given generalizing table with
  | nil => exact h
  | cons a given ih => exact ih (nodup_putBy h a)

/-- A name stands for its last entry. -/
theorem find?_putAll (table given : List α) (key : String) :
    (putAll name table given).find? (name · == key) =
      (given.reverse.find? (name · == key)).or (table.find? (name · == key)) := by
  induction given using List.reverseRecOn with
  | nil => rfl
  | append_singleton given a ih =>
    rw [putAll_concat, find?_putBy, ih, List.reverse_append, List.reverse_singleton,
      List.singleton_append, List.find?_cons]
    by_cases h : name a = key
    · rw [if_pos h, beq_iff_eq.mpr h, Option.some_or]
    · rw [if_neg h, beq_eq_false_iff_ne.mpr h]

/-- Entries for different new names are put behind the others. -/
theorem putAll_of_nodup (h : ((table ++ given).map name).Nodup) :
    putAll name table given = table ++ given := by
  induction given generalizing table with
  | nil => exact (List.append_nil table).symm
  | cons a given ih =>
    have hnew : name a ∉ table.map name := by
      rw [List.map_append, List.nodup_append] at h
      exact fun hmem => h.2.2 _ hmem (name a) (List.mem_map_of_mem List.mem_cons_self) rfl
    rw [List.append_cons] at h ⊢
    rw [putAll, List.foldl_cons, putBy_of_notMem hnew]
    exact ih h

/-- In a table of different names each entry is what its name stands for. -/
theorem find?_of_nodup (h : (table.map name).Nodup) (ha : a ∈ table) :
    table.find? (name · == name a) = some a := by
  have hfilled : putAll name [] table = table := putAll_of_nodup h
  rw [← hfilled, find?_putAll, List.find?_nil, Option.or_none]
  obtain ⟨b, hb⟩ : ∃ b, table.reverse.find? (name · == name a) = some b := by
    rw [← Option.isSome_iff_exists, List.find?_isSome]
    exact ⟨a, List.mem_reverse.mpr ha, beq_self_eq_true _⟩
  have hname : name b = name a := by simpa using List.find?_some hb
  have hmem := List.mem_reverse.mp (List.mem_of_find?_eq_some hb)
  rw [hb, List.inj_on_of_nodup_map h hmem ha hname]

/-- **A table holds what was given**: its names are those that were given, each of them once and in
the order in which they were given first; an entry is the last one that was given for its name, and
it is found under its name. -/
structure Recorded (name : α → String) (given table : List α) : Prop where
  mem : ∀ key, key ∈ table.map name ↔ key ∈ given.map name
  nodup : (table.map name).Nodup
  order : (table.map name).Pairwise fun key other =>
    (given.map name).idxOf key < (given.map name).idxOf other
  last : ∀ a ∈ table, given.reverse.find? (name · == name a) = some a
  find : ∀ key, table.find? (name · == key) = given.reverse.find? (name · == key)

/-- The names of a table that is filled from nothing. -/
theorem mem_map_putAll (given : List α) (key : String) :
    key ∈ (putAll name [] given).map name ↔ key ∈ given.map name := by
  induction given using List.reverseRecOn with
  | nil => rfl
  | append_singleton given a ih =>
    rw [putAll_concat, List.map_append, List.mem_append, ← ih, List.map_singleton,
      List.mem_singleton]
    by_cases h : name a ∈ (putAll name [] given).map name
    · rw [map_putBy_of_mem h]
      exact ⟨.inl, fun hkey => hkey.elim id fun heq => heq ▸ h⟩
    · rw [putBy_of_notMem h, List.map_append, List.mem_append, List.map_singleton,
        List.mem_singleton]

/-- The names stand in the order in which they were given first. -/
theorem pairwise_putAll (given : List α) :
    ((putAll name [] given).map name).Pairwise fun key other =>
      (given.map name).idxOf key < (given.map name).idxOf other := by
  induction given using List.reverseRecOn with
  | nil => exact .nil
  | append_singleton given a ih =>
    -- A name that was given before is still given first where it was.
    have hbefore : ∀ key ∈ (putAll name [] given).map name,
        ((given ++ [a]).map name).idxOf key = (given.map name).idxOf key := by
      intro key hkey
      rw [List.map_append, List.idxOf_append_of_mem ((mem_map_putAll given key).mp hkey)]
    have hkept := ih.imp_of_mem fun {key other} hkey hother hlt =>
      show ((given ++ [a]).map name).idxOf key < ((given ++ [a]).map name).idxOf other by
        rwa [hbefore key hkey, hbefore other hother]
    rw [putAll_concat]
    by_cases h : name a ∈ (putAll name [] given).map name
    · rwa [map_putBy_of_mem h]
    · have hmap : (putAll name [] given ++ [a]).map name =
          (putAll name [] given).map name ++ [name a] := List.map_append
      rw [putBy_of_notMem h, hmap, List.pairwise_append]
      refine ⟨hkept, List.pairwise_singleton _ _, fun key hkey other hother => ?_⟩
      obtain rfl : other = name a := List.mem_singleton.mp hother
      have hnew : name a ∉ given.map name := fun hmem => h ((mem_map_putAll given _).mpr hmem)
      rw [hbefore key hkey, List.map_append, List.idxOf_append_of_notMem hnew]
      have := List.idxOf_lt_length_of_mem ((mem_map_putAll given key).mp hkey)
      omega

/-- **A table that is filled from nothing holds what was given.** -/
theorem recorded_putAll (given : List α) : Recorded name given (putAll name [] given) := by
  have hempty : (([] : List α).map name).Nodup := List.nodup_nil
  have hnodup := nodup_putAll hempty given
  have hfind (key : String) : (putAll name [] given).find? (name · == key) =
      given.reverse.find? (name · == key) := by
    rw [find?_putAll, List.find?_nil, Option.or_none]
  refine ⟨mem_map_putAll given, hnodup, pairwise_putAll given, fun a ha => ?_, hfind⟩
  rw [← hfind, find?_of_nodup hnodup ha]

end Formula
