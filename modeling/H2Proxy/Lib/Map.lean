import Mathlib.Algebra.Ring.Nat
import Mathlib.Data.List.AList
import Mathlib.Algebra.BigOperators.Group.List.Basic

/-
  Finite maps with updates in place, over Mathlib's `AList`.

  `AList` has insertion, erasure and their lookups. Added here: `modify` (update the value
  at a key, if there is one), `updateAll` (update every value until one update fails) and
  `total` (the sum of a measure over the values), each with its lookup and sum lemmas.
  The order of the entries is the order of insertion, newest first. Nothing below depends
  on it except the order in which `updateAll` meets the values.
-/

/-- A finite map from `κ` to `α`. -/
abbrev FinMap (κ α : Type) := AList fun _ : κ => α

namespace AList

variable {κ α ε : Type}

section Keys

variable [DecidableEq κ]

/-- Replace the value at `k` by `f` of it; nothing happens where there is none. -/
def modify (k : κ) (f : α → α) (m : FinMap κ α) : FinMap κ α :=
  match m.lookup k with
  | some v => m.insert k (f v)
  | none => m

theorem lookup_insert_eq (m : FinMap κ α) (k k' : κ) (v : α) :
    (m.insert k v).lookup k' = if k' = k then some v else m.lookup k' := by
  by_cases h : k' = k
  · subst h; simp
  · simp [lookup_insert_ne h, h]

theorem lookup_erase_eq (m : FinMap κ α) (k k' : κ) :
    (m.erase k).lookup k' = if k' = k then none else m.lookup k' := by
  by_cases h : k' = k
  · subst h; simp
  · simp [AList.lookup_erase_ne h, h]

theorem lookup_modify (m : FinMap κ α) (k k' : κ) (f : α → α) :
    (m.modify k f).lookup k' = if k' = k then (m.lookup k).map f else m.lookup k' := by
  unfold modify
  split
  · rename_i v hv
    rw [lookup_insert_eq]
    by_cases h : k' = k
    · simp [h, hv]
    · simp [h]
  · rename_i hn
    by_cases h : k' = k
    · subst h; simp [hn]
    · simp [h]

theorem modify_of_none {m : FinMap κ α} {k : κ} (f : α → α) (h : m.lookup k = none) :
    m.modify k f = m := by
  simp [modify, h]

theorem modify_of_some {m : FinMap κ α} {k : κ} {v : α} (f : α → α) (h : m.lookup k = some v) :
    m.modify k f = m.insert k (f v) := by
  simp [modify, h]

theorem modify_modify (m : FinMap κ α) (k : κ) (f g : α → α) :
    (m.modify k f).modify k g = m.modify k fun v => g (f v) := by
  cases h : m.lookup k with
  | none => rw [modify_of_none f h, modify_of_none g h, modify_of_none _ h]
  | some v =>
    rw [modify_of_some f h, modify_of_some g (lookup_insert m), modify_of_some _ h, insert_insert]

theorem lookup_modify_isSome (m : FinMap κ α) (k k' : κ) (f : α → α) :
    ((m.modify k f).lookup k').isSome = (m.lookup k').isSome := by
  rw [lookup_modify]
  split
  · rename_i h; subst h; simp
  · rfl

theorem mem_keys_iff (m : FinMap κ α) (k : κ) : k ∈ m.keys ↔ (m.lookup k).isSome := by
  rw [lookup_isSome]
  rfl

theorem entries_insert_of_none {m : FinMap κ α} {k : κ} (v : α) (h : m.lookup k = none) :
    (m.insert k v).entries = ⟨k, v⟩ :: m.entries :=
  entries_insert_of_notMem (lookup_eq_none.mp h)

theorem modify_congr {m : FinMap κ α} {k : κ} {f g : α → α}
    (h : ∀ v, m.lookup k = some v → f v = g v) : m.modify k f = m.modify k g := by
  unfold modify
  split
  · rename_i v hv; rw [h v hv]
  · rfl

end Keys

/-! ## The values -/

/-- The values of the map, newest first. -/
def values (m : FinMap κ α) : List α := m.entries.map fun e => e.2

section Values

variable [DecidableEq κ]

theorem values_insert (m : FinMap κ α) (k : κ) (v : α) :
    (m.insert k v).values = v :: (m.erase k).values := rfl

theorem perm_kerase {k : κ} {v : α} {es : List (Sigma fun _ : κ => α)}
    (h : es.dlookup k = some v) : es.Perm (⟨k, v⟩ :: es.kerase k) := by
  have key : k ∈ es.keys := by
    rw [← List.dlookup_isSome, h]
    rfl
  obtain ⟨w, before, after, new, split, erased⟩ := List.exists_of_kerase key
  have first : es.dlookup k = some w := by
    rw [split, List.dlookup_append, List.dlookup_eq_none.mpr new]
    exact List.dlookup_cons_eq _ _ _
  obtain rfl : w = v := Option.some.inj (first.symm.trans h)
  rw [erased]
  nth_rewrite 1 [split]
  exact List.perm_middle

theorem length_modify (m : FinMap κ α) (k : κ) (f : α → α) :
    (m.modify k f).entries.length = m.entries.length := by
  cases h : m.lookup k with
  | none => rw [modify_of_none f h]
  | some v =>
    rw [modify_of_some f h]
    have hperm : m.entries.Perm (⟨k, v⟩ :: m.entries.kerase k) := perm_kerase h
    rw [hperm.length_eq]
    rfl

theorem values_perm {m : FinMap κ α} {k : κ} {v : α} (h : m.lookup k = some v) :
    m.values.Perm (v :: (m.erase k).values) :=
  List.Perm.map (fun e : Sigma fun _ : κ => α => e.2) (perm_kerase h)

theorem values_modify {m : FinMap κ α} {k : κ} {v : α} (f : α → α) (h : m.lookup k = some v) :
    (m.modify k f).values = f v :: (m.erase k).values := by
  rw [modify_of_some f h]
  rfl

theorem mem_values {m : FinMap κ α} {v : α} : v ∈ m.values ↔ ∃ k, m.lookup k = some v := by
  unfold values
  rw [List.mem_map]
  constructor
  · rintro ⟨⟨k, w⟩, he, rfl⟩
    exact ⟨k, List.mem_dlookup m.nodupKeys he⟩
  · rintro ⟨k, hk⟩
    exact ⟨⟨k, v⟩, List.of_mem_dlookup hk, rfl⟩

end Values

/-! ## Sums over the values -/

/-- The sum of `f` over the values of the map. -/
def total (f : α → Nat) (m : FinMap κ α) : Nat := (m.entries.map fun e => f e.2).sum

section KeySums

variable [DecidableEq κ]

theorem total_insert_of_none {m : FinMap κ α} {k : κ} (f : α → Nat) (v : α)
    (h : m.lookup k = none) : (m.insert k v).total f = f v + m.total f := by
  unfold total
  rw [entries_insert_of_none v h, List.map_cons, List.sum_cons]

theorem sum_kerase (f : α → Nat) (k : κ) (v : α) (es : List (Sigma fun _ : κ => α))
    (h : es.dlookup k = some v) :
    (es.map fun e => f e.2).sum = f v + ((es.kerase k).map fun e => f e.2).sum := by
  induction es with
  | nil => simp at h
  | cons e es ih =>
    obtain ⟨k', v'⟩ := e
    by_cases hk : k = k'
    · subst hk
      rw [List.dlookup_cons_eq] at h
      have he : List.kerase k ((⟨k, v'⟩ : Sigma fun _ : κ => α) :: es) = es :=
        List.kerase_cons_eq rfl
      rw [he, List.map_cons, List.sum_cons, Option.some.inj h]
    · rw [List.dlookup_cons_ne _ _ hk] at h
      have he : List.kerase k ((⟨k', v'⟩ : Sigma fun _ : κ => α) :: es) = ⟨k', v'⟩ :: es.kerase k :=
        List.kerase_cons_ne hk
      rw [he]
      simp only [List.map_cons, List.sum_cons, ih h]
      omega

theorem total_eq_erase {m : FinMap κ α} {k : κ} {v : α} (f : α → Nat) (h : m.lookup k = some v) :
    m.total f = f v + (m.erase k).total f := by
  exact sum_kerase f k v m.entries h

theorem erase_of_none {m : FinMap κ α} {k : κ} (h : m.lookup k = none) : m.erase k = m := by
  apply AList.ext
  show List.kerase k m.entries = m.entries
  rw [List.kerase_of_notMem_keys]
  exact AList.lookup_eq_none.mp h

theorem insert_erase (m : FinMap κ α) (k : κ) (v : α) :
    (m.erase k).insert k v = m.insert k v := by
  apply AList.ext
  rw [entries_insert_of_none v (lookup_erase k m), entries_insert]
  rfl

theorem erase_insert (m : FinMap κ α) (k : κ) (v : α) : (m.insert k v).erase k = m.erase k := by
  apply AList.ext
  show List.kerase k (m.insert k v).entries = List.kerase k m.entries
  rw [entries_insert]
  exact List.kerase_cons_eq rfl

theorem erase_modify (m : FinMap κ α) (k : κ) (f : α → α) : (m.modify k f).erase k = m.erase k := by
  unfold modify
  split
  · exact erase_insert m k _
  · rfl

theorem total_insert_of_some {m : FinMap κ α} {k : κ} {v : α} (f : α → Nat) (w : α)
    (h : m.lookup k = some v) : (m.insert k w).total f + f v = f w + m.total f := by
  rw [← insert_erase, total_insert_of_none f w (lookup_erase k m), total_eq_erase f h]
  omega

theorem total_modify {m : FinMap κ α} {k : κ} {v : α} (f : α → Nat) (g : α → α)
    (h : m.lookup k = some v) : (m.modify k g).total f + f v = f (g v) + m.total f := by
  rw [modify_of_some g h, total_insert_of_some f (g v) h]

/-- Maps that agree under `f` at every key have the same sum. -/
theorem total_congr {m m' : FinMap κ α} (f : α → Nat)
    (h : ∀ k, (m.lookup k).map f = (m'.lookup k).map f) : m.total f = m'.total f := by
  induction hn : m.entries.length generalizing m m' with
  | zero =>
    have hm : ∀ k, m.lookup k = none := fun k => by
      rw [AList.lookup, List.eq_nil_of_length_eq_zero hn]
      rfl
    have hm' : m'.entries = [] := by
      cases he : m'.entries with
      | nil => rfl
      | cons e es =>
        obtain ⟨k, v⟩ := e
        have hl : m'.lookup k = some v := by
          rw [AList.lookup, he, List.dlookup_cons_eq]
        have := h k
        rw [hm, hl] at this
        cases this
    unfold total
    rw [List.eq_nil_of_length_eq_zero hn, hm']
  | succ n ih =>
    cases he : m.entries with
    | nil => simp [he] at hn
    | cons e es =>
      obtain ⟨k, w⟩ := e
      have hl : m.lookup k = some w := by
        rw [AList.lookup, he, List.dlookup_cons_eq]
      have hk := h k
      rw [hl] at hk
      obtain ⟨v, hv, hf⟩ := Option.map_eq_some_iff.mp hk.symm
      rw [total_eq_erase f hl, total_eq_erase f hv, hf]
      congr 1
      refine ih (fun k => ?_) ?_
      · rw [lookup_erase_eq, lookup_erase_eq]
        split
        · rfl
        · exact h k
      · have hlen : (m.erase k).entries = es := by
          show List.kerase k m.entries = es
          rw [he]
          exact List.kerase_cons_eq rfl
        rw [hlen]
        rw [he] at hn
        exact Nat.succ.inj hn

/-- A sum is zero where every value counts for nothing. -/
theorem total_eq_zero {m : FinMap κ α} {f : α → Nat} (h : ∀ k v, m.lookup k = some v → f v = 0) :
    m.total f = 0 := by
  refine List.sum_eq_zero fun n hn => ?_
  obtain ⟨⟨k, v⟩, he, rfl⟩ := List.mem_map.mp hn
  exact h k v (mem_lookup_iff.mpr he)

theorem le_total {m : FinMap κ α} {k : κ} {v : α} (f : α → Nat) (h : m.lookup k = some v) :
    f v ≤ m.total f := by
  rw [total_eq_erase f h]; omega

end KeySums

/-! ## Updating every value -/

/-- `updateAll` on the entries: update in order, stop at the first failure. -/
def updateEntries (f : α → Except ε α) :
    List (Sigma fun _ : κ => α) → List (Sigma fun _ : κ => α) × Option ε
  | [] => ([], none)
  | ⟨k, v⟩ :: es =>
    match f v with
    | .error e => (⟨k, v⟩ :: es, some e)
    | .ok w => (⟨k, w⟩ :: (updateEntries f es).1, (updateEntries f es).2)

theorem updateEntries_keys (f : α → Except ε α) (es : List (Sigma fun _ : κ => α)) :
    (updateEntries f es).1.keys = es.keys := by
  induction es with
  | nil => rfl
  | cons e es ih =>
    obtain ⟨k, v⟩ := e
    simp only [updateEntries]
    split
    · rfl
    · simp only [List.keys_cons, ih]

/-- Update every value with `f`, in order; the first failure stops the update where it is. -/
def updateAll (f : α → Except ε α) (m : FinMap κ α) : FinMap κ α × Option ε :=
  (⟨(updateEntries f m.entries).1, by
      have h := m.nodupKeys
      rw [List.NodupKeys, ← updateEntries_keys f] at h
      exact h⟩,
    (updateEntries f m.entries).2)

section Update

variable [DecidableEq κ]

theorem dlookup_updateEntries (f : α → Except ε α) (es : List (Sigma fun _ : κ => α)) (k : κ) :
    (∃ v w, es.dlookup k = some v ∧ f v = .ok w ∧ (updateEntries f es).1.dlookup k = some w) ∨
      (updateEntries f es).1.dlookup k = es.dlookup k := by
  induction es with
  | nil => exact Or.inr rfl
  | cons e es ih =>
    obtain ⟨k', v⟩ := e
    simp only [updateEntries]
    split
    · exact Or.inr rfl
    · rename_i w hw
      by_cases hk : k = k'
      · subst hk
        exact Or.inl ⟨v, w, by simp, hw, by simp⟩
      · rw [List.dlookup_cons_ne _ _ hk, List.dlookup_cons_ne _ _ hk]
        exact ih

/-- A value after `updateAll` is the old one or its update. -/
theorem lookup_updateAll (f : α → Except ε α) (m : FinMap κ α) (k : κ) :
    (∃ v w, m.lookup k = some v ∧ f v = .ok w ∧ (m.updateAll f).1.lookup k = some w) ∨
      (m.updateAll f).1.lookup k = m.lookup k :=
  dlookup_updateEntries f m.entries k

theorem lookup_updateAll_isSome (f : α → Except ε α) (m : FinMap κ α) (k : κ) :
    ((m.updateAll f).1.lookup k).isSome = (m.lookup k).isSome := by
  rcases lookup_updateAll f m k with ⟨v, w, h1, -, h3⟩ | h
  · rw [h1, h3]; rfl
  · rw [h]

/-- Where no update fails, every value is updated. -/
theorem dlookup_updateEntries_ok {f : α → Except ε α} {es : List (Sigma fun _ : κ => α)}
    (h : (updateEntries f es).2 = none) {k : κ} {v : α} (hv : es.dlookup k = some v) :
    ∃ w, f v = .ok w ∧ (updateEntries f es).1.dlookup k = some w := by
  induction es with
  | nil => cases hv
  | cons e es ih =>
    obtain ⟨k', v'⟩ := e
    cases hf : f v' with
    | error e =>
      simp only [updateEntries, hf] at h
      cases h
    | ok w =>
      simp only [updateEntries, hf] at h ⊢
      by_cases hk : k = k'
      · subst hk
        rw [List.dlookup_cons_eq] at hv ⊢
        cases hv
        exact ⟨w, hf, rfl⟩
      · rw [List.dlookup_cons_ne _ _ hk] at hv ⊢
        exact ih h hv

theorem lookup_updateAll_ok {f : α → Except ε α} {m : FinMap κ α} (h : (m.updateAll f).2 = none)
    {k : κ} {v : α} (hv : m.lookup k = some v) :
    ∃ w, f v = .ok w ∧ (m.updateAll f).1.lookup k = some w :=
  dlookup_updateEntries_ok h hv

/-- A value whose own update fails stays as it is. -/
theorem lookup_updateAll_error {f : α → Except ε α} {m : FinMap κ α} {k : κ} {v : α} {e : ε}
    (hv : m.lookup k = some v) (hf : f v = .error e) : (m.updateAll f).1.lookup k = some v := by
  rcases lookup_updateAll f m k with ⟨v', w, hv', hok, -⟩ | same
  · rw [hv] at hv'
    cases hv'
    rw [hf] at hok
    cases hok
  · rw [same, hv]

end Update

theorem length_updateAll (f : α → Except ε α) (m : FinMap κ α) :
    (m.updateAll f).1.entries.length = m.entries.length := by
  have := congrArg List.length (updateEntries_keys f m.entries)
  simpa [List.keys, updateAll] using this

end AList
