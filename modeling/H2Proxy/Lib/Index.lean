import H2Proxy.Lib.Map

/-
  A map with an index: entries carry a name, and a second map finds the key of a name.

  The two are updated apart, so each lemma here is about one pair of updates.
-/

namespace AList

variable {κ ν α : Type} [DecidableEq κ] [DecidableEq ν]

/-- `index` finds exactly the entries of `table` by their names. -/
def Indexes (name : α → ν) (table : FinMap κ α) (index : FinMap ν κ) : Prop :=
  ∀ n k, index.lookup n = some k ↔ (table.lookup k).map name = some n

namespace Indexes

variable {name : α → ν} {table : FinMap κ α} {index : FinMap ν κ} {k k' : κ} {n : ν} {v v' : α}

theorem empty : Indexes name (∅ : FinMap κ α) (∅ : FinMap ν κ) := by
  intro n k
  rw [lookup_empty, lookup_empty, Option.map_none]
  exact ⟨fun h => (by cases h), fun h => (by cases h)⟩

theorem find (h : Indexes name table index) (hk : table.lookup k = some v) :
    index.lookup (name v) = some k := by
  rw [h, hk]
  rfl

/-- What the index finds is there, under that name. -/
theorem found (h : Indexes name table index) (hn : index.lookup n = some k) :
    ∃ v, table.lookup k = some v ∧ name v = n :=
  Option.map_eq_some_iff.mp ((h n k).mp hn)

/-- A name that the index does not find is nowhere in the table. -/
theorem unnamed (h : Indexes name table index) (hn : index.lookup n = none)
    (hk : table.lookup k = some v) : name v ≠ n := by
  rintro rfl
  rw [h.find hk] at hn
  cases hn

/-- A new entry under a new name. -/
theorem insert (h : Indexes name table index) (hk : table.lookup k = none)
    (hn : index.lookup (name v) = none) :
    Indexes name (table.insert k v) (index.insert (name v) k) := by
  intro n' k'
  rw [lookup_insert_eq, lookup_insert_eq]
  by_cases hkey : k' = k
  · rw [if_pos hkey, Option.map_some]
    by_cases hname : n' = name v
    · rw [if_pos hname, hkey, hname]
      exact ⟨fun _ => rfl, fun _ => rfl⟩
    · rw [if_neg hname, h, hkey, hk]
      exact ⟨fun h => (by cases h), fun h => absurd (Option.some.inj h).symm hname⟩
  · rw [if_neg hkey]
    by_cases hname : n' = name v
    · rw [if_pos hname, hname, ← h, hn]
      exact ⟨fun h => absurd (Option.some.inj h).symm hkey, fun h => (by cases h)⟩
    · rw [if_neg hname]
      exact h n' k'

/-- An entry and its name go together. -/
theorem erase (h : Indexes name table index) (hk : table.lookup k = some v) :
    Indexes name (table.erase k) (index.erase (name v)) := by
  intro n' k'
  rw [lookup_erase_eq, lookup_erase_eq]
  by_cases hkey : k' = k
  · rw [if_pos hkey]
    refine ⟨fun hfound => ?_, fun h => (by cases h)⟩
    split at hfound
    · cases hfound
    · rename_i hname
      rw [h, hkey, hk] at hfound
      exact absurd (Option.some.inj hfound).symm hname
  · rw [if_neg hkey]
    by_cases hname : n' = name v
    · rw [if_pos hname]
      refine ⟨fun h => (by cases h), fun hfound => ?_⟩
      have again := (h n' k').mpr hfound
      rw [hname, h.find hk] at again
      exact absurd (Option.some.inj again).symm hkey
    · rw [if_neg hname]
      exact h n' k'

/-- An entry changes and keeps its name. -/
theorem modify (h : Indexes name table index) (f : α → α) (hf : ∀ v, name (f v) = name v) :
    Indexes name (table.modify k f) index := by
  intro n' k'
  rw [h, lookup_modify]
  split
  · rename_i hkey
    rw [hkey, Option.map_map]
    have same : name ∘ f = name := by
      funext v
      exact hf v
    rw [same]
  · exact Iff.rfl

end Indexes

end AList
