import Mathlib.Data.List.Nodup
import Mathlib.Data.List.Perm.Basic

/-
  A round-robin ring over keyed entries.

  `InStep busy entries ring` says that the ring holds the keys of the busy entries, each of
  them once. The lemmas are the ways in which entries and ring change together: an entry
  goes, one becomes busy and is put at the end, one is visited and stays or leaves.
-/

variable {κ α : Type} {busy : α → Bool} {entries entries' : κ → Option α} {ring ring' : List κ}
  {k : κ}

/-- The ring holds exactly the busy entries, each of them once. -/
structure InStep (busy : α → Bool) (entries : κ → Option α) (ring : List κ) : Prop where
  nodup : ring.Nodup
  mem : ∀ k, k ∈ ring ↔ (entries k).any busy = true

namespace InStep

theorem empty (h : ∀ k, entries k = none) : InStep busy entries [] := by
  refine ⟨List.nodup_nil, fun k => ?_⟩
  rw [h k]
  simp

/-- The ring depends on the entries only through which of them are busy. -/
theorem congr (h : InStep busy entries ring)
    (same : ∀ k, (entries' k).any busy = (entries k).any busy) : InStep busy entries' ring :=
  ⟨h.nodup, fun k => by rw [same k]; exact h.mem k⟩

theorem perm (h : InStep busy entries ring) (hp : ring.Perm ring') : InStep busy entries ring' :=
  ⟨hp.nodup_iff.mp h.nodup, fun k => hp.mem_iff.symm.trans (h.mem k)⟩

/-- An entry goes, and its key with it. -/
theorem remove [DecidableEq κ] (h : InStep busy entries ring)
    (gone : (entries' k).any busy = false)
    (others : ∀ k', k' ≠ k → (entries' k').any busy = (entries k').any busy) :
    InStep busy entries' (ring.filter (· ≠ k)) := by
  refine ⟨h.nodup.filter _, fun k' => ?_⟩
  by_cases hk : k' = k
  · rw [hk, gone]
    simp
  · rw [others k' hk, ← h.mem k']
    simp [hk]

/-- An entry becomes busy and is put at the end. -/
theorem wake (h : InStep busy entries ring) (before : (entries k).any busy = false)
    (after : (entries' k).any busy = true)
    (others : ∀ k', k' ≠ k → (entries' k').any busy = (entries k').any busy) :
    InStep busy entries' (ring ++ [k]) := by
  have fresh : k ∉ ring := by
    rw [h.mem k, before]
    exact Bool.false_ne_true
  constructor
  · exact List.nodup_append'.mpr ⟨h.nodup, List.nodup_singleton k,
      List.disjoint_singleton.mpr fresh⟩
  · intro k'
    by_cases hk : k' = k
    · rw [hk, after]
      simp
    · rw [others k' hk, ← h.mem k']
      simp [hk]

/-- The entry at the front has been visited and has nothing left. -/
theorem leave (h : InStep busy entries (k :: ring)) (after : (entries' k).any busy = false)
    (others : ∀ k', k' ≠ k → (entries' k').any busy = (entries k').any busy) :
    InStep busy entries' ring := by
  obtain ⟨fresh, nodup⟩ := List.nodup_cons.mp h.nodup
  refine ⟨nodup, fun k' => ?_⟩
  by_cases hk : k' = k
  · rw [hk, after]
    simp [fresh]
  · rw [others k' hk, ← h.mem k']
    simp [hk]

/-- The entry at the front has been visited and has more. -/
theorem stay (h : InStep busy entries (k :: ring)) (after : (entries' k).any busy = true)
    (others : ∀ k', k' ≠ k → (entries' k').any busy = (entries k').any busy) :
    InStep busy entries' (k :: ring) := by
  refine h.congr fun k' => ?_
  by_cases hk : k' = k
  · rw [hk, after, (h.mem k).mp List.mem_cons_self]
  · exact others k' hk

/-- Whatever is in the ring is there. -/
theorem isSome (h : InStep busy entries ring) (hk : k ∈ ring) : (entries k).isSome := by
  have := (h.mem k).mp hk
  cases he : entries k with
  | none => rw [he] at this; cases this
  | some a => rfl

theorem filter_isSome (h : InStep busy entries ring) :
    ring.filter (fun k => (entries k).isSome) = ring :=
  List.filter_eq_self.mpr fun _ hk => h.isSome hk

end InStep
