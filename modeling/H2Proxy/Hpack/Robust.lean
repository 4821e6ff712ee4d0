import H2Proxy.Hpack.WellFormed

/-
  The decoder under any octets: what its table keeps to, that eviction never pops an empty
  table, and that the limit on header lists decides no more than the answer.

  The run without a limit is the measure: `judge` is what a limit makes of its answer.
-/

namespace H2Proxy

open Hpack

/-! ## Eviction -/

namespace Hpack.DynamicTable

/-- `evict_to` on the entries from the oldest: `none` where the source would pop an empty table
    or subtract more than it has. -/
def popOldest (target : Nat) : List (Bytes × Bytes) → Nat → Option (List (Bytes × Bytes) × Nat)
  | [], size => if size > target then none else some ([], size)
  | e :: es, size =>
    if size > target then
      if cost e ≤ size then popOldest target es (size - cost e) else none
    else some (e :: es, size)

theorem getLast?_reverse_cons (e : Bytes × Bytes) (es : List (Bytes × Bytes)) :
    (e :: es).reverse.getLast? = some e := by
  rw [List.getLast?_reverse]
  rfl

theorem dropLast_reverse_cons (e : Bytes × Bytes) (es : List (Bytes × Bytes)) :
    (e :: es).reverse.dropLast = es.reverse := by
  rw [List.reverse_cons, List.dropLast_concat]

/-- Where the size adds up every pop finds an entry. The induction is on the entries, oldest
    first. -/
theorem popOldest_evict (target : Nat) (es : List (Bytes × Bytes)) :
    popOldest target es (es.map cost).sum =
      some ((evict target es.length es.reverse (es.map cost).sum).1.reverse,
        (evict target es.length es.reverse (es.map cost).sum).2) := by
  induction es with
  | nil => rfl
  | cons e es ih =>
    unfold popOldest
    rw [List.length_cons, evict]
    by_cases exceeds : ((e :: es).map cost).sum > target
    · have rest : ((e :: es).map cost).sum - cost e = (es.map cost).sum := by
        rw [List.map_cons, List.sum_cons]
        omega
      have enough : cost e ≤ ((e :: es).map cost).sum := by
        rw [List.map_cons, List.sum_cons]
        omega
      rw [if_pos exceeds, if_pos exceeds, if_pos enough, getLast?_reverse_cons, rest, ih]
      dsimp only
      rw [dropLast_reverse_cons, rest]
    · rw [if_neg exceeds, if_neg exceeds, List.reverse_reverse]

theorem WF.popOldest {t : DynamicTable} (h : t.size = (t.entries.map cost).sum) (target : Nat) :
    popOldest target t.entries.reverse t.size =
      some ((t.evictTo target).entries.reverse, (t.evictTo target).size) := by
  have sum : (t.entries.reverse.map cost).sum = t.size := by
    rw [List.map_reverse, List.sum_reverse, h]
  have pops := popOldest_evict target t.entries.reverse
  rw [sum, List.length_reverse, List.reverse_reverse] at pops
  exact pops

end Hpack.DynamicTable

namespace HpackDecoder

/-- The call of `evict_to` that a representation makes: the table it is made on and its target. -/
def evicting (d : HpackDecoder) (sizeUpdateAllowed : Bool) (cur : Bytes) :
    Option (DynamicTable × Nat) :=
  match cur, d.representation sizeUpdateAllowed cur with
  | first :: _, .ok (_, some header, _) =>
    if first &&& 0x80 = 0 ∧ first &&& 0xc0 = 0x40 then
      some (d.table, d.table.maxSize - DynamicTable.cost (header.name, header.value))
    else none
  | _, .ok (table, none, _) => some ({ d.table with maxSize := table.maxSize }, table.maxSize)
  | _, _ => none

/-- The calls of `evict_to` while a block is decoded. -/
def evictions : Nat → HpackDecoder → Progress → Bytes → List (DynamicTable × Nat)
  | 0, _, _, _ => []
  | fuel + 1, d, p, cur =>
    if cur = [] then []
    else (d.evicting p.sizeUpdateAllowed cur).toList ++
      match d.representation p.sizeUpdateAllowed cur with
      | .error _ => []
      | .ok (table, none, cur) => evictions fuel { d with table } p cur
      | .ok (table, some header, cur) =>
        evictions fuel { d with table } (p.field d.maxHeaderListSize header) cur

theorem evicting_adds_up {d : HpackDecoder} (h : d.WF) {allowed : Bool} {cur : Bytes}
    {call : DynamicTable × Nat} (hc : d.evicting allowed cur = some call) :
    call.1.size = (call.1.entries.map DynamicTable.cost).sum := by
  unfold evicting at hc
  split at hc
  · split at hc
    · cases hc
      exact h.table.size_eq
    · cases hc
  · cases hc
    exact h.table.size_eq
  · cases hc

/-- Every call of `evict_to` is on a table whose size adds up. -/
theorem evictions_add_up (fuel : Nat) {d : HpackDecoder} (h : d.WF) (p : Progress) (cur : Bytes) :
    ∀ call ∈ evictions fuel d p cur,
      call.1.size = (call.1.entries.map DynamicTable.cost).sum := by
  induction fuel generalizing d p cur with
  | zero => nofun
  | succ fuel ih =>
    intro call hcall
    rw [evictions] at hcall
    split at hcall
    · cases hcall
    · rcases List.mem_append.mp hcall with hnow | hlater
      · exact evicting_adds_up h (Option.mem_toList.mp hnow)
      · split at hlater
        · cases hlater
        · rename_i hr
          exact ih (h.representation hr) p _ call hlater
        · rename_i hr
          exact ih (h.representation hr) _ _ call hlater

end HpackDecoder

/-! ## Errors -/

/-- An error here can only be a compression error. -/
structure Compression {α : Type} (r : Except HpackError α) : Prop where
  of_error : ∀ e, r = .error e → ∃ msg, e = .compression msg

theorem Compression.ok {α : Type} (a : α) : Compression (.ok a) := ⟨nofun⟩

theorem Compression.error {α : Type} (msg : String) :
    Compression (.error (.compression msg) : Except HpackError α) := by
  constructor
  intro e h
  cases h
  exact ⟨msg, rfl⟩

theorem Compression.bind {α β : Type} {r : Except HpackError α} {f : α → Except HpackError β}
    (hr : Compression r) (hf : ∀ a, Compression (f a)) : Compression (r >>= f) := by
  cases r with
  | ok a => exact hf a
  | error e =>
    obtain ⟨msg, rfl⟩ := hr.of_error e rfl
    exact .error msg

theorem nextByte_compression (cur : Bytes) : Compression (nextByte cur) := by
  cases cur with
  | nil => exact .error _
  | cons b rest => exact .ok _

theorem take_compression (len : Nat) (cur : Bytes) : Compression (take len cur) := by
  unfold take
  split
  · exact .ok _
  · exact .error _

theorem decodeIntFrom_compression (value shift fuel : Nat) (cur : Bytes) :
    Compression (decodeIntFrom value shift fuel cur) := by
  induction fuel generalizing value shift cur with
  | zero => exact .error _
  | succ fuel ih =>
    refine .bind (nextByte_compression cur) fun read => ?_
    dsimp only
    split
    · exact .error _
    · split
      · exact .ok _
      · exact ih ..

theorem decodeInt_compression (first : UInt8) (prefixBits : Nat) (cur : Bytes) :
    Compression (decodeInt first prefixBits cur) := by
  unfold decodeInt
  dsimp only
  split
  · exact .ok _
  · exact decodeIntFrom_compression ..

theorem decodeString_compression (cur : Bytes) : Compression (decodeString cur) := by
  refine .bind (nextByte_compression cur) fun read => ?_
  refine .bind (decodeInt_compression ..) fun read => ?_
  refine .bind (take_compression ..) fun read => ?_
  dsimp only
  split
  · cases Huffman.decode read.1 with
    | ok s => exact .ok _
    | error msg => exact .error _
  · exact .ok _

theorem lookup_compression (table : DynamicTable) (index : Nat) :
    Compression (lookup table index) := by
  unfold lookup
  split
  · exact .error _
  split
  · split
    · exact .ok _
    · exact .error _
  · split
    · exact .ok _
    · exact .error _

namespace HpackDecoder

theorem literal_compression (table : DynamicTable) (first : UInt8) (prefixBits : Nat) (cur : Bytes)
    (sensitive : Bool) : Compression (literal table first prefixBits cur sensitive) := by
  refine .bind (decodeInt_compression ..) fun read => ?_
  have value : ∀ name : Bytes × Bytes, Compression (do
      let read ← decodeString name.2
      .ok (⟨name.1, read.1, sensitive⟩, read.2) : Except HpackError (Header × Bytes)) :=
    fun name => .bind (decodeString_compression _) fun value => .ok _
  dsimp only
  split
  · exact .bind (decodeString_compression _) value
  · exact .bind (lookup_compression ..) fun e => value (e.1, read.2)

theorem representation_compression (d : HpackDecoder) (allowed : Bool) (cur : Bytes) :
    Compression (d.representation allowed cur) := by
  refine .bind (nextByte_compression cur) fun read => ?_
  dsimp only
  split
  · exact .bind (decodeInt_compression ..) fun read => .bind (lookup_compression ..) fun e => .ok _
  split
  · exact .bind (literal_compression ..) fun read => .ok _
  split
  · split
    · exact .error _
    · refine .bind (decodeInt_compression ..) fun read => ?_
      split
      · exact .error _
      · exact .ok _
  split
  · exact .bind (literal_compression ..) fun read => .ok _
  · exact .bind (literal_compression ..) fun read => .ok _

/-! ## The limit -/

/-- What a limit makes of the answer without one. -/
def judge (limit : Option Nat) : Except HpackError (List Header) → Except HpackError (List Header)
  | .error e => .error e
  | .ok headers =>
    match limit with
    | some limit =>
      let size := (headers.map Header.listSize).sum
      if size > limit then .error (.headerListTooLarge size limit) else .ok headers
    | none => .ok headers

theorem judge_compression (limit : Option Nat) (r : Except HpackError (List Header))
    (msg : String) : judge limit r = .error (.compression msg) ↔ r = .error (.compression msg) := by
  cases r with
  | error e => rfl
  | ok headers =>
    cases limit with
    | none => rfl
    | some limit =>
      unfold judge
      dsimp only
      split
      · exact ⟨nofun, nofun⟩
      · rfl

/-- A run under a limit beside the one without: the same but for the list once it is dropped. -/
structure Tracks (limit : Option Nat) (p q : Progress) : Prop where
  allowed : p.sizeUpdateAllowed = q.sizeUpdateAllowed
  size : p.listSize = q.listSize
  sum : q.listSize = (q.headers.map Header.listSize).sum
  whole : q.oversized = none
  oversized : p.oversized = limit.filter (· < q.listSize)
  headers : p.oversized = none → p.headers = q.headers

theorem Tracks.start (limit : Option Nat) : Tracks limit .start .start where
  allowed := rfl
  size := rfl
  sum := rfl
  whole := rfl
  oversized := by cases limit <;> rfl
  headers := fun _ => rfl

theorem Tracks.field {limit : Option Nat} {p q : Progress} (h : Tracks limit p q)
    (header : Header) : Tracks limit (p.field limit header) (q.field none header) := by
  have sum : q.listSize + header.listSize =
      ((q.headers ++ [header]).map Header.listSize).sum := by
    rw [List.map_append, List.sum_append, ← h.sum]
    simp
  cases limit with
  | none => exact ⟨rfl, congrArg (· + header.listSize) h.size, sum, h.whole, h.oversized,
      fun hp => by rw [show (p.field none header).headers = p.headers ++ [header] from rfl,
        h.headers hp]; rfl⟩
  | some limit =>
    have before : p.oversized = if limit < q.listSize then some limit else none := by
      rw [h.oversized, Option.filter_some]
      simp only [decide_eq_true_eq]
    have size : p.listSize + header.listSize = q.listSize + header.listSize := by rw [h.size]
    by_cases exceeds : p.listSize + header.listSize > limit
    · have dropped : p.field (some limit) header =
          ⟨[], p.listSize + header.listSize, some limit, false⟩ := by
        unfold Progress.field
        dsimp only
        rw [if_pos exceeds, before]
        split
        · rfl
        · rfl
      rw [dropped]
      refine ⟨rfl, size, sum, h.whole, ?_, nofun⟩
      show some limit = (some limit).filter _
      rw [Option.filter_some, if_pos]
      rw [size] at exceeds
      exact decide_eq_true exceeds
    · have kept : p.field (some limit) header =
          ⟨p.headers ++ [header], p.listSize + header.listSize, p.oversized, false⟩ := by
        unfold Progress.field
        dsimp only
        rw [if_neg exceeds]
      have within : p.oversized = none := by
        rw [before, if_neg (by have := h.size; omega)]
      rw [kept]
      refine ⟨rfl, size, sum, h.whole, ?_, fun hp => ?_⟩
      · show p.oversized = (some limit).filter _
        rw [within, Option.filter_some, if_neg]
        rw [size] at exceeds
        exact fun h => exceeds (of_decide_eq_true h)
      · show p.headers ++ [header] = q.headers ++ [header]
        rw [h.headers hp]

theorem Tracks.outcome {limit : Option Nat} {p q : Progress} (h : Tracks limit p q) :
    (match p.oversized with
      | some limit => .error (.headerListTooLarge p.listSize limit)
      | none => .ok p.headers) = judge limit (.ok q.headers) := by
  cases limit with
  | none =>
    have hp : p.oversized = none := h.oversized
    rw [hp, h.headers hp]
    rfl
  | some limit =>
    have hp := h.oversized
    rw [Option.filter_some] at hp
    unfold judge
    dsimp only
    rw [← h.sum]
    by_cases exceeds : q.listSize > limit
    · rw [if_pos (decide_eq_true exceeds)] at hp
      rw [hp, if_pos exceeds, h.size]
    · rw [if_neg (fun h => exceeds (of_decide_eq_true h))] at hp
      rw [hp, if_neg exceeds, h.headers hp]

/-- This decoder under another limit. -/
def under (limit : Option Nat) (d : HpackDecoder) : HpackDecoder :=
  { d with maxHeaderListSize := limit }

/-- Two loops that differ in the limit go through the same tables and fail alike. -/
theorem decodeLoop_under (limit : Option Nat) (fuel : Nat) (d : HpackDecoder) {p q : Progress}
    (h : Tracks limit p q) (cur : Bytes) :
    (decodeLoop fuel (d.under limit) p cur).1 = (decodeLoop fuel (d.under none) q cur).1.under limit ∧
      match (decodeLoop fuel (d.under limit) p cur).2, (decodeLoop fuel (d.under none) q cur).2 with
      | .ok p, .ok q => Tracks limit p q
      | .error e, .error e' => e = e' ∧ ∃ msg, e = .compression msg
      | _, _ => False := by
  induction fuel generalizing d p q cur with
  | zero => exact ⟨rfl, h⟩
  | succ fuel ih =>
    rw [decodeLoop, decodeLoop]
    by_cases done : cur = []
    · rw [if_pos done, if_pos done]
      exact ⟨rfl, h⟩
    · rw [if_neg done, if_neg done]
      have same : (d.under limit).representation p.sizeUpdateAllowed cur =
          (d.under none).representation q.sizeUpdateAllowed cur := by
        rw [h.allowed]
        rfl
      rw [same]
      cases hr : (d.under none).representation q.sizeUpdateAllowed cur with
      | error e => exact ⟨rfl, rfl, (representation_compression ..).of_error e hr⟩
      | ok read =>
        obtain ⟨table, header, rest⟩ := read
        cases header with
        | none => exact ih { d with table } h rest
        | some header => exact ih { d with table } (h.field header) rest

/-- A limit decides no more than the answer. -/
theorem decode_under (limit : Option Nat) (d : HpackDecoder) (block : Bytes) :
    ((d.under limit).decode block).1 = ((d.under none).decode block).1.under limit ∧
      ((d.under limit).decode block).2 = judge limit ((d.under none).decode block).2 ∧
      Compression ((d.under none).decode block).2 := by
  obtain ⟨hstate, houtcome⟩ := decodeLoop_under limit block.length d (.start limit) block
  refine ⟨hstate, ?_⟩
  unfold decode
  dsimp only
  cases hp : (decodeLoop block.length (d.under limit) .start block).2 with
  | ok p =>
    cases hq : (decodeLoop block.length (d.under none) .start block).2 with
    | ok q =>
      rw [hp, hq] at houtcome
      dsimp only at houtcome
      dsimp only [Except.bind]
      rw [houtcome.whole]
      exact ⟨houtcome.outcome, .ok _⟩
    | error e =>
      rw [hp, hq] at houtcome
      exact houtcome.elim
  | error e =>
    cases hq : (decodeLoop block.length (d.under none) .start block).2 with
    | ok q =>
      rw [hp, hq] at houtcome
      exact houtcome.elim
    | error e' =>
      rw [hp, hq] at houtcome
      obtain ⟨rfl, msg, rfl⟩ := houtcome
      exact ⟨rfl, .error msg⟩

/-! ## Sequences of blocks -/

/-- A decoder that has been given these blocks. -/
def after (d : HpackDecoder) (blocks : List Bytes) : HpackDecoder :=
  blocks.foldl (fun d block => (d.decode block).1) d

theorem WF.after {d : HpackDecoder} (h : d.WF) (blocks : List Bytes) :
    (d.after blocks).WF ∧ (d.after blocks).capacity = d.capacity := by
  induction blocks generalizing d with
  | nil => exact ⟨h, rfl⟩
  | cons block blocks ih =>
    obtain ⟨hwf, hcap⟩ := h.decode block
    obtain ⟨hwf', hcap'⟩ := ih hwf
    exact ⟨hwf', hcap'.trans hcap⟩

theorem after_under (limit : Option Nat) (d : HpackDecoder) (blocks : List Bytes) :
    (d.under limit).after blocks = ((d.under none).after blocks).under limit := by
  induction blocks generalizing d with
  | nil => rfl
  | cons block blocks ih =>
    show ((d.under limit).decode block).1.after blocks =
      (((d.under none).decode block).1.after blocks).under limit
    rw [(decode_under limit d block).1, ih]
    have unlimited : ((d.under none).decode block).1 = ((d.under none).decode block).1.under none := by
      have hnone := maxHeaderListSize_decode (d.under none) block
      generalize ((d.under none).decode block).1 = d' at hnone ⊢
      cases d'
      cases hnone
      rfl
    rw [← unlimited]

/-- Whatever the decoder is given, its table adds up and stays within its bound and the
    capacity, and eviction finds an entry whenever it pops one. Decoders that differ only in
    the limit keep equal tables and fail alike; a limit turns a list that is too large into
    that error, with its size, and nothing else. -/
theorem decoder_robust (capacity : Nat) (limit limit' : Option Nat) (blocks : List Bytes)
    (block : Bytes) :
    let d := (new capacity limit).after blocks
    let d' := (new capacity limit').after blocks
    let table := (d.decode block).1.table
    (table.size = (table.entries.map DynamicTable.cost).sum ∧ table.size ≤ table.maxSize ∧
      table.maxSize ≤ capacity) ∧
    (∀ call ∈ evictions block.length d .start block,
      DynamicTable.popOldest call.2 call.1.entries.reverse call.1.size =
        some ((call.1.evictTo call.2).entries.reverse, (call.1.evictTo call.2).size)) ∧
    (d'.decode block).1.table = table ∧
    (∀ msg, (d.decode block).2 = .error (.compression msg) ↔
      (d'.decode block).2 = .error (.compression msg)) ∧
    ∃ answer, (∀ e, answer = .error e → ∃ msg, e = .compression msg) ∧
      (d.decode block).2 = judge limit answer ∧ (d'.decode block).2 = judge limit' answer := by
  dsimp only
  have start : ∀ limit, new capacity limit = (new capacity none).under limit := fun _ => rfl
  obtain ⟨hwf, hcap⟩ := (WF.new capacity limit).after blocks
  obtain ⟨hwf', hcap'⟩ := hwf.decode block
  have reached : ∀ limit, (new capacity limit).after blocks =
      (((new capacity none).under none).after blocks).under limit := by
    intro limit
    rw [start limit, after_under]
  have hone := decode_under limit (((new capacity none).under none).after blocks) block
  have hother := decode_under limit' (((new capacity none).under none).after blocks) block
  rw [← reached limit] at hone
  rw [← reached limit'] at hother
  refine ⟨⟨hwf'.table.size_eq, hwf'.table.size_le, ?_⟩, ?_, ?_, ?_, _, hone.2.2.of_error,
    hone.2.1, hother.2.1⟩
  · have := hwf'.maxSize_le
    rw [hcap', hcap] at this
    exact this
  · intro call hcall
    exact DynamicTable.WF.popOldest (evictions_add_up _ hwf _ _ call hcall) _
  · rw [hone.1, hother.1]
    rfl
  · intro msg
    rw [hone.2.1, hother.2.1, judge_compression, judge_compression]

end HpackDecoder

end H2Proxy
