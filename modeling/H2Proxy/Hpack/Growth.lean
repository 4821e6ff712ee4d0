import H2Proxy.FrameCodec
import H2Proxy.Hpack.RoundTrip
import H2Proxy.Settings

/-
  How large an encoder's table grows.

  Whatever is encoded, the table stays within the bound last set (`encode_table`). Nothing
  else bounds it: distinct fields fill it up to any bound that the peer's SETTINGS may set
  (`table_follows_peer`).
-/

namespace H2Proxy

open Hpack

/-- The parameters of SETTINGS are `u32`s. -/
theorem Settings.apply_headerTableSize {s : Settings} (h : s.headerTableSize < 2 ^ 32)
    (params : List (UInt16 × UInt32)) : (s.apply params).1.headerTableSize < 2 ^ 32 := by
  induction params generalizing s with
  | nil => exact h
  | cons param params ih =>
    obtain ⟨id, value⟩ := param
    rw [apply]
    cases hone : s.applyOne id value.toNat with
    | error e => exact h
    | ok s' =>
      refine ih ?_
      unfold applyOne at hone
      repeat' split at hone
      all_goals cases hone
      all_goals first | exact h | exact value.toNat_lt

namespace HpackEncoder

/-- The table adds up and keeps within this bound, a `u32`. -/
structure Within (e : HpackEncoder) (bound : Nat) : Prop where
  table : e.table.WF
  maxSize : e.table.maxSize = bound
  bound_lt : bound < 2 ^ 32

variable {e : HpackEncoder}

theorem encodeOne_table (h : e.table.WF) (header : Header) :
    (e.encodeOne header).1.table.WF ∧
      (e.encodeOne header).1.table.maxSize = e.table.maxSize := by
  rw [encodeOne_fst]
  show (e.table.after (e.stores header) header).WF ∧ _
  unfold DynamicTable.after
  split
  · exact h.insert header.name header.value
  · exact ⟨h, rfl⟩

theorem encode_singleton (e : HpackEncoder) (header : Header) :
    (e.encode [header]).1 = (encodeOne { e with pendingSizeUpdate := none } header).1 := rfl

theorem encodeAll_table (h : e.table.WF) (headers : List Header) :
    (e.encodeAll headers).1.table.WF ∧
      (e.encodeAll headers).1.table.maxSize = e.table.maxSize := by
  induction headers generalizing e with
  | nil => exact ⟨h, rfl⟩
  | cons header headers ih =>
    obtain ⟨wf, same⟩ := encodeOne_table h header
    obtain ⟨wf', same'⟩ := ih wf
    exact ⟨wf', same'.trans same⟩

/-- A block leaves the table within its bound, and the bound as it was. -/
theorem encode_table (h : e.table.WF) (headers : List Header) :
    (e.encode headers).1.table.WF ∧ (e.encode headers).1.table.maxSize = e.table.maxSize :=
  encodeAll_table (e := { e with pendingSizeUpdate := none }) h headers

/-- SETTINGS leave the table within the bound they set. -/
theorem setMaxTableSize_table (h : e.table.WF) (maxTableSize : Nat) :
    (e.setMaxTableSize maxTableSize).table.WF ∧
      (e.setMaxTableSize maxTableSize).table.maxSize = maxTableSize := by
  unfold setMaxTableSize
  split
  · exact h.setMaxSize maxTableSize
  · rename_i same
    exact ⟨h, (not_not.mp same).symm⟩

theorem Within.encode {bound : Nat} (h : e.Within bound) (headers : List Header) :
    (e.encode headers).1.Within bound := by
  obtain ⟨wf, same⟩ := encode_table h.table headers
  exact ⟨wf, same.trans h.maxSize, h.bound_lt⟩

theorem Within.setMaxTableSize {bound : Nat} (h : e.Within bound) {maxTableSize : Nat}
    (lt : maxTableSize < 2 ^ 32) : (e.setMaxTableSize maxTableSize).Within maxTableSize := by
  obtain ⟨wf, same⟩ := setMaxTableSize_table h.table maxTableSize
  exact ⟨wf, same, lt⟩

/-! ## Growth -/

/-- The encoder after these header lists. -/
def encodeLists (e : HpackEncoder) (lists : List (List Header)) : HpackEncoder :=
  lists.foldl (fun e headers => (e.encode headers).1) e

/-- A field that tells one request from the next. -/
def tracer (k : Nat) : Header := ⟨ascii "x", put32 k, false⟩

/-- Octets the table counts for one of these. -/
def tracerCost : Nat := 37

variable {n : Nat}

theorem put32_inj {j k : Nat} (hj : j < 2 ^ 32) (hk : k < 2 ^ 32) (h : put32 j = put32 k) : j = k := by
  simp only [put32, put16, List.cons_append, List.nil_append, List.cons.injEq, and_true] at h
  obtain ⟨h1, h2, h3, h4⟩ := h
  have same : j % 2 ^ 32 = k % 2 ^ 32 := by
    rw [← be32_ofNat, ← be32_ofNat, h1, h2, h3, h4]
  omega

/-- The table holds the first tracers, newest first, and nothing else. -/
structure Traced (e : HpackEncoder) (n : Nat) : Prop where
  table : e.table.WF
  entries : e.table.entries = ((List.range n).map fun k => ((tracer k).name, (tracer k).value)).reverse

/-- A tracer the table does not hold is found by its name at most. -/
theorem Traced.find_ne (h : e.Traced n) (small : n < 2 ^ 32) (i : Nat) :
    find e.table (tracer n).name (tracer n).value ≠ .full i := by
  intro full
  obtain ⟨k, -, entry⟩ := (find_spec e.table _ _).1 i full
  have mem := List.mem_of_getElem? entry
  obtain static | stored := List.mem_append.mp mem
  · have other : ∀ entry ∈ StaticTable.entries.map fun e => (ascii e.1, ascii e.2),
        entry.1 ≠ ascii "x" := by decide +kernel
    exact other _ static rfl
  · rw [h.entries] at stored
    obtain ⟨j, old, same⟩ := List.mem_map.mp (List.mem_reverse.mp stored)
    have before := List.mem_range.mp old
    have := put32_inj (by omega) small (Prod.mk.inj same).2
    omega

theorem cost_tracer (k : Nat) : DynamicTable.cost ((tracer k).name, (tracer k).value) = tracerCost := rfl

theorem Traced.size (h : e.Traced n) : e.table.size = tracerCost * n := by
  have costs : (e.table.entries.map DynamicTable.cost) = List.replicate n tracerCost := by
    rw [h.entries, List.map_reverse, List.map_map]
    refine List.eq_replicate_iff.mpr ⟨by simp, fun c mem => ?_⟩
    obtain ⟨k, -, rfl⟩ := List.mem_map.mp (List.mem_reverse.mp mem)
    exact cost_tracer k
  rw [h.table.size_eq, costs, List.sum_replicate_nat, Nat.mul_comm]

theorem Traced.encode (h : e.Traced n) (small : n < 2 ^ 32)
    (room : tracerCost * (n + 1) ≤ e.table.maxSize) : (e.encode [tracer n]).1.Traced (n + 1) := by
  have stores : ({ e with pendingSizeUpdate := none } : HpackEncoder).stores (tracer n) := by
    have none_full := h.find_ne small
    unfold stores
    dsimp only [tracer] at none_full ⊢
    cases found : find e.table (ascii "x") (put32 n) with
    | full i => exact absurd found (none_full i)
    | name i => rfl
    | none => rfl
  have table : (e.encode [tracer n]).1.table = e.table.insert (tracer n).name (tracer n).value := by
    rw [encode_singleton, encodeOne_fst, stores]
    rfl
  refine ⟨table ▸ (h.table.insert _ _).1, ?_⟩
  rw [table, DynamicTable.entries_insert h.table, Budget.fit_of_le, h.entries, List.range_succ,
    List.map_append, List.reverse_append]
  · rfl
  · have size := h.size
    rw [h.table.size_eq] at size
    rw [Budget.total_cons, cost_tracer]
    show tracerCost + (e.table.entries.map DynamicTable.cost).sum ≤ _
    rw [size]
    rw [Nat.mul_succ] at room
    omega

/-- Tracers fill the table as far as its bound lets them. -/
theorem encodeLists_tracers (h : e.Traced 0) (n : Nat) (small : n < 2 ^ 32)
    (room : tracerCost * n ≤ e.table.maxSize) :
    (e.encodeLists ((List.range n).map ([tracer ·]))).Traced n ∧
      (e.encodeLists ((List.range n).map ([tracer ·]))).table.maxSize = e.table.maxSize := by
  induction n with
  | zero => exact ⟨h, rfl⟩
  | succ n ih =>
    have less : tracerCost * n ≤ e.table.maxSize :=
      Nat.le_trans (Nat.mul_le_mul_left _ (Nat.le_succ n)) room
    obtain ⟨traced, same⟩ := ih (by omega) less
    have next : e.encodeLists ((List.range (n + 1)).map ([tracer ·])) =
        ((e.encodeLists ((List.range n).map ([tracer ·]))).encode [tracer n]).1 := by
      unfold encodeLists
      rw [List.range_succ, List.map_append, List.foldl_append, List.map_singleton,
        List.foldl_cons, List.foldl_nil]
    rw [next]
    exact ⟨traced.encode (by omega) (same ▸ room), (encode_table traced.table _).2.trans same⟩

/-- No bound of the proxy's own holds: a peer that raises its setting has a table of nearly any
size kept for it. -/
theorem table_follows_peer : ¬ ∃ bound : Nat, bound + tracerCost < 2 ^ 32 ∧
    ∀ (setting : UInt32) (lists : List (List Header)),
      (((new Settings.default.headerTableSize).setMaxTableSize setting.toNat).encodeLists
        lists).table.size ≤ bound := by
  rintro ⟨bound, below, bounded⟩
  obtain ⟨n, room, beyond, small⟩ : ∃ n, tracerCost * n ≤ UInt32.toNat (2 ^ 32 - 1) ∧
      bound < tracerCost * n ∧ n < 2 ^ 32 := by
    have top : UInt32.toNat (2 ^ 32 - 1) = 2 ^ 32 - 1 := by decide
    refine ⟨bound / 37 + 1, ?_⟩
    unfold tracerCost at *
    rw [top]
    omega
  obtain ⟨wf, maxSize⟩ := setMaxTableSize_table
    (DynamicTable.WF.new Settings.default.headerTableSize) (UInt32.toNat (2 ^ 32 - 1))
    (e := new Settings.default.headerTableSize)
  have raised : ((new Settings.default.headerTableSize).setMaxTableSize
      (UInt32.toNat (2 ^ 32 - 1))).Traced 0 := ⟨wf, by decide⟩
  obtain ⟨traced, -⟩ := encodeLists_tracers raised n small (maxSize ▸ room)
  have held := bounded (2 ^ 32 - 1) ((List.range n).map ([tracer ·]))
  rw [traced.size] at held
  exact absurd held (Nat.not_le_of_lt beyond)

end HpackEncoder

end H2Proxy
