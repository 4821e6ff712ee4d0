import H2Proxy.Hpack.Codec
import Mathlib.Algebra.BigOperators.Group.List.Basic
import Mathlib.Tactic.Ring

/-
  The dynamic table's accounting: the recorded size is the sum of the entries' costs and
  stays within the bound, through insertion, eviction, size updates and whole blocks.
-/

namespace H2Proxy

namespace Hpack.DynamicTable

/-- The size is the sum of the costs and within the bound. -/
structure WF (t : DynamicTable) : Prop where
  size_eq : t.size = (t.entries.map cost).sum
  size_le : t.size ≤ t.maxSize

theorem sum_dropLast (es : List (Bytes × Bytes)) (e : Bytes × Bytes) (h : es.getLast? = some e) :
    (es.map cost).sum = (es.dropLast.map cost).sum + cost e := by
  have hne : es ≠ [] := by rintro rfl; cases h
  have hlast : es.getLast hne = e := by
    rw [List.getLast?_eq_some_getLast hne] at h
    exact Option.some.inj h
  conv_lhs => rw [← List.dropLast_append_getLast hne, hlast]
  rw [List.map_append, List.sum_append]
  simp

/-- Eviction stops at the target, with the sizes still adding up. -/
theorem evict_spec (target : Nat) : ∀ (n : Nat) (es : List (Bytes × Bytes)) (size : Nat),
    es.length ≤ n → size = (es.map cost).sum →
      (evict target n es size).2 = ((evict target n es size).1.map cost).sum ∧
        (evict target n es size).2 ≤ target
  | 0, es, size, hn, hs => by
    have hes : es = [] := List.eq_nil_of_length_eq_zero (by omega)
    subst hes
    simp only [evict]
    exact ⟨hs, by simp at hs; omega⟩
  | n + 1, es, size, hn, hs => by
    simp only [evict]
    split
    · cases hl : es.getLast? with
      | some e =>
        have hsum := sum_dropLast es e hl
        exact evict_spec target n _ _ (by rw [List.length_dropLast]; omega) (by omega)
      | none =>
        rw [List.getLast?_eq_none_iff] at hl
        subst hl
        simp at hs
        omega
    · exact ⟨hs, by omega⟩

theorem evictTo_spec {t : DynamicTable} (h : t.size = (t.entries.map cost).sum) (target : Nat) :
    (t.evictTo target).size = ((t.evictTo target).entries.map cost).sum ∧
      (t.evictTo target).size ≤ target ∧ (t.evictTo target).maxSize = t.maxSize := by
  obtain ⟨h1, h2⟩ := evict_spec target t.entries.length t.entries t.size (Nat.le_refl _) h
  exact ⟨h1, h2, rfl⟩

theorem WF.new (maxSize : Nat) : (new maxSize).WF := ⟨rfl, Nat.zero_le _⟩

theorem WF.insert {t : DynamicTable} (h : t.WF) (name value : Bytes) :
    (t.insert name value).WF ∧ (t.insert name value).maxSize = t.maxSize := by
  obtain ⟨h1, h2, h3⟩ := evictTo_spec h.size_eq (t.maxSize - cost (name, value))
  unfold DynamicTable.insert
  dsimp only
  split
  · exact ⟨⟨h1, by omega⟩, h3⟩
  · refine ⟨⟨?_, ?_⟩, h3⟩
    · show (t.evictTo _).size + cost (name, value) = _
      rw [List.map_cons, List.sum_cons, h1]
      ring
    · show (t.evictTo _).size + cost (name, value) ≤ _
      rw [h3]
      omega

theorem WF.setMaxSize {t : DynamicTable} (h : t.WF) (maxSize : Nat) :
    (t.setMaxSize maxSize).WF ∧ (t.setMaxSize maxSize).maxSize = maxSize := by
  obtain ⟨h1, h2, h3⟩ := evictTo_spec (t := { t with maxSize }) h.size_eq maxSize
  exact ⟨⟨h1, by rw [DynamicTable.setMaxSize, h3]; exact h2⟩, h3⟩

/-- Every entry costs at least its overhead, so a bounded table has few entries. -/
theorem WF.length_le {t : DynamicTable} (h : t.WF) : t.entries.length ≤ t.maxSize := by
  have hsum : t.entries.length ≤ (t.entries.map cost).sum := by
    induction t.entries with
    | nil => simp
    | cons e es ih =>
      have : 0 < cost e := by unfold cost entryOverhead; omega
      simp only [List.length_cons, List.map_cons, List.sum_cons]
      omega
  have h1 := h.size_eq
  have h2 := h.size_le
  omega

end Hpack.DynamicTable

namespace HpackDecoder

/-- The table adds up and is no larger than what was advertised. -/
structure WF (d : HpackDecoder) : Prop where
  table : d.table.WF
  maxSize_le : d.table.maxSize ≤ d.capacity

theorem WF.new (maxTableSize : Nat) (limit : Option Nat) : (new maxTableSize limit).WF :=
  ⟨.new _, Nat.le_refl _⟩

/-- A representation keeps the table well formed. -/
theorem WF.representation {d : HpackDecoder} (h : d.WF) {allowed : Bool} {cur rest : Bytes}
    {table : Hpack.DynamicTable} {header : Option Header}
    (hr : d.representation allowed cur = .ok (table, header, rest)) :
    ({ d with table } : HpackDecoder).WF := by
  unfold HpackDecoder.representation at hr
  simp only [bind, Except.bind] at hr
  repeat' split at hr
  all_goals cases hr
  · exact h
  · obtain ⟨h1, h2⟩ := h.table.insert _ _
    exact ⟨h1, by rw [h2]; exact h.maxSize_le⟩
  · rename_i hle
    obtain ⟨h1, h2⟩ := h.table.setMaxSize _
    exact ⟨h1, by rw [h2]; exact Nat.le_of_not_lt hle⟩
  · exact h
  · exact h

theorem WF.decodeLoop (fuel : Nat) {d : HpackDecoder} (h : d.WF) (p : Progress) (cur : Bytes) :
    (decodeLoop fuel d p cur).1.WF ∧ (decodeLoop fuel d p cur).1.capacity = d.capacity := by
  induction fuel generalizing d p cur with
  | zero => exact ⟨h, rfl⟩
  | succ fuel ih =>
    simp only [HpackDecoder.decodeLoop]
    split
    · exact ⟨h, rfl⟩
    · split
      · exact ⟨h, rfl⟩
      · rename_i hr; exact ih (h.representation hr) ..
      · rename_i hr; exact ih (h.representation hr) ..

theorem maxHeaderListSize_decodeLoop (fuel : Nat) (d : HpackDecoder) (p : Progress)
    (cur : Bytes) : (decodeLoop fuel d p cur).1.maxHeaderListSize = d.maxHeaderListSize := by
  induction fuel generalizing d p cur with
  | zero => rfl
  | succ fuel ih =>
    simp only [HpackDecoder.decodeLoop]
    split
    · rfl
    · split
      · rfl
      · exact ih ..
      · exact ih ..

theorem maxHeaderListSize_decode (d : HpackDecoder) (block : Bytes) :
    (d.decode block).1.maxHeaderListSize = d.maxHeaderListSize :=
  maxHeaderListSize_decodeLoop ..

theorem WF.decode {d : HpackDecoder} (h : d.WF) (block : Bytes) :
    (d.decode block).1.WF ∧ (d.decode block).1.capacity = d.capacity :=
  WF.decodeLoop _ h _ _

end HpackDecoder

end H2Proxy
