import Formula.Proofs.Frames.Capture
import Formula.Proofs.Registry.Recording
import Formula.Proofs.Resolution.Package

/-!
# Names that stand for values

A table of names with their values is filled like any other: each entry is put in under its name. So
no name comes twice, and the last value for a name is the one that counts.

## Main results

* `Bindings.setAll_eq_putAll`: values are put into a table under their names
* `Bindings.get?_setAll`: what a name stands for in a table that was filled
* `Bindings.get?_eq_some_iff`: in a table of different names each entry is what its name stands for
-/

namespace Formula

namespace Bindings

variable {α : Type} {b : Bindings α} {name : String} {a : α}

theorem set_eq_putBy (b : Bindings α) (name : String) (a : α) :
    b.set name a = putBy Prod.fst (name, a) b := by
  induction b with
  | nil => rfl
  | cons entry b ih =>
    obtain ⟨key, x⟩ := entry
    rw [set, putBy, ih]
    split
    · rename_i hkey
      rw [hkey]
    · rfl

/-- **Values are put into a table under their names.** -/
theorem setAll_eq_putAll (b : Bindings α) (entries : List (String × α)) :
    b.setAll entries = putAll Prod.fst b entries := by
  induction entries generalizing b with
  | nil => rfl
  | cons e entries ih =>
    rw [setAll, List.foldl_cons, ← setAll, ih, set_eq_putBy]
    rfl

theorem nodup_setAll (h : (b.map Prod.fst).Nodup) (entries : List (String × α)) :
    ((b.setAll entries).map Prod.fst).Nodup := by
  rw [setAll_eq_putAll]
  exact nodup_putAll h entries

/-- The last value for a name is the one that counts. -/
theorem get?_setAll (entries : List (String × α)) (name : String) :
    (b.setAll entries).get? name = (Bindings.get? entries.reverse name).or (b.get? name) := by
  induction entries using List.reverseRecOn with
  | nil => rfl
  | append_singleton entries e ih =>
    rw [setAll_append, setAll, List.foldl_cons, List.foldl_nil, get?_set, ih,
      List.reverse_append, List.reverse_singleton, List.singleton_append, get?]
    split <;> rfl

/-- Values for different new names are put behind the others. -/
theorem setAll_of_nodup {entries : List (String × α)}
    (h : ((b ++ entries).map Prod.fst).Nodup) : b.setAll entries = b ++ entries := by
  rw [setAll_eq_putAll]
  exact putAll_of_nodup h

/-- In a table of different names each entry is what its name stands for. -/
theorem get?_eq_some_iff (h : (b.map Prod.fst).Nodup) : b.get? name = some a ↔ (name, a) ∈ b := by
  refine ⟨mem_of_get?, fun hmem => ?_⟩
  have hfilled : Bindings.setAll [] b = b := setAll_of_nodup h
  rw [← hfilled]
  exact get?_setAll_of_mem h hmem

/-- The order of a table of different names has no meaning. -/
theorem get?_eq_of_perm {c : Bindings α} (h : (b.map Prod.fst).Nodup) (hperm : b.Perm c)
    (name : String) : b.get? name = c.get? name := by
  refine Option.ext fun a => ?_
  rw [get?_eq_some_iff h, get?_eq_some_iff ((hperm.map Prod.fst).nodup_iff.mp h), hperm.mem_iff]

end Bindings

end Formula
