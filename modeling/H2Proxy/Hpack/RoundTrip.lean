import H2Proxy.Lib.Budget
import H2Proxy.Hpack.HuffmanCode
import H2Proxy.Hpack.Integer
import H2Proxy.Hpack.WellFormed

/-
  One header field through the encoder and the decoder.

  The two tables need not be equal: it is enough that the encoder's entries are a front of
  the decoder's, for then every index the encoder picks resolves to the same entry. What
  one field does to either table is the same operation on both.
-/

namespace H2Proxy

namespace Hpack

/-! ## Strings -/

theorem encodedLen_le_of_coded {s : Bytes} {allowed : Bool}
    (h : (allowed && decide (Huffman.encodedLen s ≤ s.length)) = true) :
    Huffman.encodedLen s ≤ s.length := by
  rw [Bool.and_eq_true, decide_eq_true_eq] at h
  exact h.2

theorem take_append (raw tail : Bytes) : take raw.length (raw ++ tail) = .ok (raw, tail) := by
  unfold take
  rw [if_pos (by simp), List.take_left, List.drop_left]

theorem decodeString_encodeString {s : Bytes} (hs : s.length ≤ u32Max) (allowed : Bool)
    (tail : Bytes) : decodeString (encodeString s allowed ++ tail) = .ok (s, tail) := by
  have hcoded : ∀ w < 128, ((0x80 : UInt8) ||| UInt8.ofNat w) &&& 0x80 ≠ 0 := by decide
  have hplain : ∀ w < 128, ((0x00 : UInt8) ||| UInt8.ofNat w) &&& 0x80 = 0 := by decide
  unfold encodeString
  dsimp only
  split
  · rename_i hallowed
    have hlen := encodedLen_le_of_coded hallowed
    obtain ⟨w, hw, octets, henc, hdec⟩ := decodeInt_encodeInt 7 0x80 (by decide) rfl
      (Nat.le_trans hlen hs)
    rw [henc, List.append_assoc, List.cons_append]
    simp only [decodeString, nextByte, bind, Except.bind, hdec]
    rw [← Huffman.length_encode, take_append]
    dsimp only
    rw [if_pos (hcoded w hw), Huffman.decode_encode]
  · obtain ⟨w, hw, octets, henc, hdec⟩ := decodeInt_encodeInt 7 0x00 (by decide) rfl hs
    rw [henc, List.append_assoc, List.cons_append]
    simp only [decodeString, nextByte, bind, Except.bind, hdec]
    rw [take_append]
    dsimp only
    rw [if_neg (by rw [hplain w hw]; decide)]

/-! ## The table as a list under a budget -/

namespace DynamicTable

theorem evict_eq_fit (target : Nat) : ∀ (n : Nat) (es : List (Bytes × Bytes)),
    es.length ≤ n → (evict target n es (Budget.total cost es)).1 = Budget.fit cost target es
  | 0, es, hn => by
    have hes : es = [] := List.eq_nil_of_length_eq_zero (by omega)
    subst hes
    rfl
  | n + 1, es, hn => by
    rw [evict]
    split
    · rename_i hover
      cases hl : es.getLast? with
      | some e =>
        have hsum : Budget.total cost es = Budget.total cost es.dropLast + cost e :=
          sum_dropLast es e hl
        have hrest : Budget.total cost es - cost e = Budget.total cost es.dropLast := by omega
        dsimp only
        rw [hrest, evict_eq_fit target n _ (by rw [List.length_dropLast]; omega),
          Budget.fit_dropLast hover]
      | none =>
        rw [List.getLast?_eq_none_iff] at hl
        subst hl
        rfl
    · rename_i hwithin
      exact (Budget.fit_of_le (Nat.le_of_not_lt hwithin)).symm

theorem entries_evictTo {t : DynamicTable} (h : t.size = (t.entries.map cost).sum)
    (target : Nat) : (t.evictTo target).entries = Budget.fit cost target t.entries := by
  have hsize : t.size = Budget.total cost t.entries := h
  show (evict target t.entries.length t.entries t.size).1 = _
  rw [hsize, evict_eq_fit target _ _ (Nat.le_refl _)]

/-- Adding a field keeps what fits of it and the entries before it. -/
theorem entries_insert {t : DynamicTable} (h : t.WF) (name value : Bytes) :
    (t.insert name value).entries =
      Budget.fit cost t.maxSize ((name, value) :: t.entries) := by
  have hevict := entries_evictTo h.size_eq (t.maxSize - cost (name, value))
  unfold DynamicTable.insert
  dsimp only
  rw [Budget.fit]
  split
  · rename_i hover
    have hnothing : ∀ es : List (Bytes × Bytes), Budget.fit cost 0 es = [] := by
      intro es
      cases es with
      | nil => rfl
      | cons e es =>
        have hpos : 0 < cost e := by
          unfold cost entryOverhead
          omega
        rw [Budget.fit, if_neg (by omega)]
    rw [if_neg (by omega), hevict, show t.maxSize - cost (name, value) = 0 by omega, hnothing]
  · rw [if_pos (by omega), ← hevict]

theorem entries_setMaxSize {t : DynamicTable} (h : t.WF) (maxSize : Nat) :
    (t.setMaxSize maxSize).entries = Budget.fit cost maxSize t.entries :=
  entries_evictTo (t := { t with maxSize }) h.size_eq maxSize

/-- A well-formed table keeps all of itself. -/
theorem WF.fit_self {t : DynamicTable} (h : t.WF) :
    Budget.fit cost t.maxSize t.entries = t.entries := by
  refine Budget.fit_of_le ?_
  have hsize : t.size = Budget.total cost t.entries := h.size_eq
  rw [← hsize]
  exact h.size_le

/-- A well-formed table is its entries and its bound. -/
theorem WF.ext {t t' : DynamicTable} (h : t.WF) (h' : t'.WF) (hentries : t.entries = t'.entries)
    (hmax : t.maxSize = t'.maxSize) : t = t' := by
  have hsize : t.size = t'.size := by rw [h.size_eq, h'.size_eq, hentries]
  cases t
  cases t'
  simp_all

end DynamicTable

/-! ## Indices -/

/-- What a scan returns is an entry with the field's name, and with its value too if the
    match is full. -/
theorem findIn_spec (name value : Bytes) (es : List (Bytes × Bytes)) (index : Nat)
    (nameOnly : Option Nat) :
    (∀ i, findIn name value index nameOnly es = .inl i →
      ∃ k, i = index + k ∧ es[k]? = some (name, value)) ∧
    (∀ i, findIn name value index nameOnly es = .inr (some i) →
      nameOnly = some i ∨ ∃ k v, i = index + k ∧ es[k]? = some (name, v)) := by
  induction es generalizing index nameOnly with
  | nil => exact ⟨fun i h => (by cases h), fun i h => .inl (Sum.inr.inj h)⟩
  | cons e es ih =>
    obtain ⟨n, v⟩ := e
    have hshift : ∀ {i : Nat} {e : Bytes × Bytes}, (∃ k, i = index + 1 + k ∧ es[k]? = some e) →
        ∃ k, i = index + k ∧ ((n, v) :: es)[k]? = some e := by
      rintro i e ⟨k, hi, hk⟩
      exact ⟨k + 1, by omega, hk⟩
    rw [findIn]
    split
    · rename_i hn
      subst hn
      split
      · rename_i hv
        subst hv
        refine ⟨fun i h => ⟨0, ?_, rfl⟩, fun i h => by cases h⟩
        cases h
        rfl
      · obtain ⟨ih1, ih2⟩ := ih (index + 1) (nameOnly.or (some index))
        refine ⟨fun i h => hshift (ih1 i h), fun i h => ?_⟩
        rcases ih2 i h with h | ⟨k, v', hi, hk⟩
        · cases nameOnly with
          | some j => exact .inl h
          | none =>
            cases h
            exact .inr ⟨0, v, rfl, rfl⟩
        · exact .inr ⟨k + 1, v', by omega, hk⟩
    · obtain ⟨ih1, ih2⟩ := ih (index + 1) nameOnly
      refine ⟨fun i h => hshift (ih1 i h), fun i h => ?_⟩
      rcases ih2 i h with h | ⟨k, v', hi, hk⟩
      · exact .inl h
      · exact .inr ⟨k + 1, v', by omega, hk⟩

/-- The two tables as one list of entries; wire index `i + 1` is its entry `i`. -/
def allEntries (table : DynamicTable) : List (Bytes × Bytes) :=
  StaticTable.entries.map (fun e => (ascii e.1, ascii e.2)) ++ table.entries

theorem lookup_succ (table : DynamicTable) (k : Nat) {e : Bytes × Bytes}
    (h : (allEntries table)[k]? = some e) : lookup table (k + 1) = .ok e := by
  have hlen : (StaticTable.entries.map fun e => (ascii e.1, ascii e.2)).length =
      StaticTable.len := List.length_map _
  unfold lookup
  rw [if_neg (by omega)]
  unfold allEntries at h
  split
  · rename_i hk
    rw [List.getElem?_append_left (by omega), List.getElem?_map] at h
    have hget : StaticTable.get (k + 1) = some e := h
    rw [hget]
  · rename_i hk
    rw [List.getElem?_append_right (by omega), hlen] at h
    rw [show k + 1 - StaticTable.len - 1 = k - StaticTable.len by omega, h]

/-- What `find` returns is an index that looks up the field's name, and its value if the
    match is full. -/
theorem find_spec (table : DynamicTable) (name value : Bytes) :
    (∀ i, find table name value = .full i →
      ∃ k, i = k + 1 ∧ (allEntries table)[k]? = some (name, value)) ∧
    (∀ i, find table name value = .name i →
      ∃ k v, i = k + 1 ∧ (allEntries table)[k]? = some (name, v)) := by
  obtain ⟨hfull, hname⟩ := findIn_spec name value (allEntries table) 1 none
  dsimp only [find]
  unfold allEntries at hfull hname ⊢
  cases h : findIn name value 1 none
      (StaticTable.entries.map (fun e => (ascii e.1, ascii e.2)) ++ table.entries) with
  | inl index =>
    obtain ⟨k, hk, he⟩ := hfull index h
    refine ⟨fun i hi => ?_, fun i hi => (by cases hi)⟩
    cases hi
    exact ⟨k, by omega, he⟩
  | inr only =>
    cases only with
    | none => exact ⟨fun i hi => (by cases hi), fun i hi => (by cases hi)⟩
    | some index =>
      refine ⟨fun i hi => (by cases hi), fun i hi => ?_⟩
      cases hi
      rcases hname index h with h' | ⟨k, v, hk, he⟩
      · cases h'
      · exact ⟨k, v, by omega, he⟩

/-- A longer table resolves the same indices to the same entries. -/
theorem lookup_of_front {t t' : DynamicTable} (h : t.entries <+: t'.entries) {k : Nat}
    {e : Bytes × Bytes} (he : (allEntries t)[k]? = some e) : lookup t' (k + 1) = .ok e := by
  refine lookup_succ t' k ?_
  obtain ⟨rest, hrest⟩ := h
  have hlonger : allEntries t' = allEntries t ++ rest := by
    unfold allEntries
    rw [← hrest, List.append_assoc]
  rw [hlonger, List.getElem?_append_left]
  · exact he
  · exact (List.getElem?_eq_some_iff.mp he).1

/-- The index a match puts on the wire; 0 announces a name in full. -/
def Match.index : Match → Nat
  | full index => index
  | name index => index
  | none => 0

end Hpack

open Hpack

/-! ## Fields -/

/-- The integers written for a field are integers of 32 bits. -/
def HpackEncoder.Fits (e : HpackEncoder) (h : Header) : Prop :=
  h.name.length ≤ u32Max ∧ h.value.length ≤ u32Max ∧
    (find e.table h.name h.value).index ≤ u32Max

instance (e : HpackEncoder) (h : Header) : Decidable (e.Fits h) :=
  inferInstanceAs (Decidable (_ ∧ _ ∧ _))

namespace HpackDecoder

variable {d : HpackDecoder}

theorem literal_name (table : DynamicTable) {first : UInt8} {prefixBits : Nat}
    {cur tail : Bytes} {h : Header} {huffman : Bool} (hname : h.name.length ≤ u32Max) (hvalue : h.value.length ≤ u32Max)
    (hint : decodeInt first prefixBits cur =
      .ok (0, encodeString h.name huffman ++ (encodeString h.value huffman ++ tail))) :
    literal table first prefixBits cur h.sensitive = .ok (h, tail) := by
  simp only [literal, bind, Except.bind, hint]
  rw [if_pos trivial, decodeString_encodeString hname]
  dsimp only
  rw [decodeString_encodeString hvalue]

theorem literal_index (table : DynamicTable) {first : UInt8} {prefixBits k : Nat}
    {cur tail value' : Bytes} {h : Header} {huffman : Bool} (hvalue : h.value.length ≤ u32Max)
    (hlookup : lookup table (k + 1) = .ok (h.name, value'))
    (hint : decodeInt first prefixBits cur =
      .ok (k + 1, encodeString h.value huffman ++ tail)) :
    literal table first prefixBits cur h.sensitive = .ok (h, tail) := by
  simp only [literal, bind, Except.bind, hint]
  rw [if_neg (by omega), hlookup]
  dsimp only
  rw [decodeString_encodeString hvalue]

/-- The four kinds of first octet the encoder writes, told apart as the decoder does. -/
theorem representation_indexed (allowed : Bool) {w : Nat} (hw : w < 2 ^ 7) {cur tail : Bytes}
    {index : Nat} {name value : Bytes}
    (hint : decodeInt (0x80 ||| UInt8.ofNat w) 7 cur = .ok (index, tail))
    (hlookup : lookup d.table index = .ok (name, value)) :
    d.representation allowed ((0x80 ||| UInt8.ofNat w) :: cur) =
      .ok (d.table, some (.new name value), tail) := by
  have hflag : ∀ w < 2 ^ 7, ((0x80 : UInt8) ||| UInt8.ofNat w) &&& 0x80 ≠ 0 := by decide
  simp only [representation, nextByte, bind, Except.bind]
  rw [if_pos (hflag w hw), hint]
  dsimp only
  rw [hlookup]

theorem representation_stored {allowed : Bool} {w : Nat} (hw : w < 2 ^ 6) {cur tail : Bytes}
    {h : Header} (hliteral : literal d.table (0x40 ||| UInt8.ofNat w) 6 cur false = .ok (h, tail)) :
    d.representation allowed ((0x40 ||| UInt8.ofNat w) :: cur) =
      .ok (d.table.insert h.name h.value, some h, tail) := by
  have hflags : ∀ w < 2 ^ 6, ((0x40 : UInt8) ||| UInt8.ofNat w) &&& 0x80 = 0 ∧
      ((0x40 : UInt8) ||| UInt8.ofNat w) &&& 0xc0 = 0x40 := by decide
  obtain ⟨h1, h2⟩ := hflags w hw
  simp only [representation, nextByte, bind, Except.bind]
  rw [if_neg (not_not.mpr h1), if_pos h2, hliteral]

theorem representation_sizeUpdate {w : Nat} (hw : w < 2 ^ 5) {cur tail : Bytes} {size : Nat}
    (hint : decodeInt (0x20 ||| UInt8.ofNat w) 5 cur = .ok (size, tail))
    (hsize : size ≤ d.capacity) :
    d.representation true ((0x20 ||| UInt8.ofNat w) :: cur) =
      .ok (d.table.setMaxSize size, none, tail) := by
  have hflags : ∀ w < 2 ^ 5, ((0x20 : UInt8) ||| UInt8.ofNat w) &&& 0x80 = 0 ∧
      ((0x20 : UInt8) ||| UInt8.ofNat w) &&& 0xc0 ≠ 0x40 ∧
      ((0x20 : UInt8) ||| UInt8.ofNat w) &&& 0xe0 = 0x20 := by decide
  obtain ⟨h1, h2, h3⟩ := hflags w hw
  simp only [representation, nextByte, bind, Except.bind]
  rw [if_neg (not_not.mpr h1), if_neg h2, if_pos h3, if_neg (by decide), hint]
  dsimp only
  rw [if_neg (Nat.not_lt.mpr hsize)]

theorem representation_neverIndexed {allowed : Bool} {w : Nat} (hw : w < 2 ^ 4)
    {cur tail : Bytes} {h : Header}
    (hliteral : literal d.table (0x10 ||| UInt8.ofNat w) 4 cur true = .ok (h, tail)) :
    d.representation allowed ((0x10 ||| UInt8.ofNat w) :: cur) = .ok (d.table, some h, tail) := by
  have hflags : ∀ w < 2 ^ 4, ((0x10 : UInt8) ||| UInt8.ofNat w) &&& 0x80 = 0 ∧
      ((0x10 : UInt8) ||| UInt8.ofNat w) &&& 0xc0 ≠ 0x40 ∧
      ((0x10 : UInt8) ||| UInt8.ofNat w) &&& 0xe0 ≠ 0x20 ∧
      ((0x10 : UInt8) ||| UInt8.ofNat w) &&& 0xf0 = 0x10 := by decide
  obtain ⟨h1, h2, h3, h4⟩ := hflags w hw
  simp only [representation, nextByte, bind, Except.bind]
  rw [if_neg (not_not.mpr h1), if_neg h2, if_neg h3, if_pos h4, hliteral]

end HpackDecoder

/-- What coding one field does to the encoder: nothing, or it stores the field. -/
def HpackEncoder.stores (e : HpackEncoder) (h : Header) : Bool :=
  !h.sensitive && match find e.table h.name h.value with
    | .full _ => false
    | _ => true

/-- What one field does to a table. -/
def Hpack.DynamicTable.after (t : DynamicTable) (stored : Bool) (h : Header) : DynamicTable :=
  if stored then t.insert h.name h.value else t

theorem HpackEncoder.encodeOne_fst (e : HpackEncoder) (h : Header) :
    (e.encodeOne h).1 = { e with table := e.table.after (e.stores h) h } := by
  unfold HpackEncoder.encodeOne HpackEncoder.stores Hpack.DynamicTable.after
  cases h.sensitive with
  | true => rfl
  | false => cases find e.table h.name h.value <;> rfl

/-- A field's octets come back as the field, and the decoder stores it just when the encoder
    did. -/
theorem representation_encodeOne {e : HpackEncoder} {d : HpackDecoder}
    (front : e.table.entries <+: d.table.entries) {h : Header} (fits : e.Fits h)
    (allowed : Bool) (tail : Bytes) :
    d.representation allowed ((e.encodeOne h).2 ++ tail) =
      .ok (d.table.after (e.stores h) h, some h, tail) := by
  obtain ⟨hname, hvalue, hindex⟩ := fits
  obtain ⟨hfull, honly⟩ := find_spec e.table h.name h.value
  unfold HpackEncoder.encodeOne HpackEncoder.stores Hpack.DynamicTable.after
  cases hs : h.sensitive with
  | true =>
    -- a literal never stored, by whatever index the name has
    have hnamed : ∀ k v, (allEntries e.table)[k]? = some (h.name, v) → k + 1 ≤ u32Max →
        d.representation allowed
          (encodeInt (k + 1) 4 0x10 ++ encodeString h.value e.huffman ++ tail) =
            .ok (d.table, some h, tail) := by
      intro k v hk hle
      obtain ⟨w, hw, octets, henc, hdec⟩ := decodeInt_encodeInt 4 0x10 (by decide) rfl hle
      have hliteral := HpackDecoder.literal_index d.table hvalue
        (lookup_of_front front hk) (hdec (encodeString h.value e.huffman ++ tail))
      rw [hs] at hliteral
      rw [henc, List.cons_append, List.cons_append, List.append_assoc]
      exact HpackDecoder.representation_neverIndexed hw hliteral
    simp only [Bool.not_true, Bool.false_and, Bool.false_eq_true, if_false, if_true]
    cases hfind : find e.table h.name h.value with
    | full i =>
      obtain ⟨k, rfl, hk⟩ := hfull i hfind
      rw [hfind] at hindex
      exact hnamed k _ hk hindex
    | name i =>
      obtain ⟨k, v, rfl, hk⟩ := honly i hfind
      rw [hfind] at hindex
      exact hnamed k v hk hindex
    | none =>
      have hint : ∀ cur, decodeInt 0x10 4 cur = .ok (0, cur) := fun _ => rfl
      have hliteral := HpackDecoder.literal_name d.table hname hvalue
        (hint (encodeString h.name e.huffman ++ (encodeString h.value e.huffman ++ tail)))
      rw [hs] at hliteral
      dsimp only
      rw [List.cons_append, List.cons_append, List.append_assoc]
      exact HpackDecoder.representation_neverIndexed (w := 0) (by decide) hliteral
  | false =>
    simp only [Bool.not_false, Bool.true_and, Bool.false_eq_true, if_false]
    cases hfind : find e.table h.name h.value with
    | full i =>
      obtain ⟨k, rfl, hk⟩ := hfull i hfind
      rw [hfind] at hindex
      obtain ⟨w, hw, octets, henc, hdec⟩ := decodeInt_encodeInt 7 0x80 (by decide) rfl hindex
      have hplain : Header.new h.name h.value = h := by
        cases h
        simp_all [Header.new]
      have hrep := HpackDecoder.representation_indexed allowed hw (hdec tail)
        (lookup_of_front front hk)
      rw [hplain] at hrep
      dsimp only [Match.index] at henc ⊢
      rw [henc, List.cons_append, if_neg (by decide)]
      exact hrep
    | name i =>
      obtain ⟨k, v, rfl, hk⟩ := honly i hfind
      rw [hfind] at hindex
      obtain ⟨w, hw, octets, henc, hdec⟩ := decodeInt_encodeInt 6 0x40 (by decide) rfl hindex
      have hliteral := HpackDecoder.literal_index d.table hvalue
        (lookup_of_front front hk) (hdec (encodeString h.value e.huffman ++ tail))
      rw [hs] at hliteral
      dsimp only [Match.index] at henc ⊢
      rw [henc, List.cons_append, List.cons_append, List.append_assoc]
      exact HpackDecoder.representation_stored hw hliteral
    | none =>
      have hint : ∀ cur, decodeInt 0x40 6 cur = .ok (0, cur) := fun _ => rfl
      have hliteral := HpackDecoder.literal_name d.table hname hvalue
        (hint (encodeString h.name e.huffman ++ (encodeString h.value e.huffman ++ tail)))
      rw [hs] at hliteral
      dsimp only
      rw [List.cons_append, List.cons_append, List.append_assoc]
      exact HpackDecoder.representation_stored (w := 0) (by decide) hliteral

/-! ## How long a block gets -/

namespace Hpack

theorem length_encodeString (s : Bytes) (allowed : Bool) :
    (encodeString s allowed).length ≤ s.length + 11 := by
  unfold encodeString
  dsimp only
  split
  · rename_i hallowed
    have hlen := encodedLen_le_of_coded hallowed
    have hint := length_encodeInt (Huffman.encodedLen s) 7 0x80
    rw [List.length_append, Huffman.length_encode]
    omega
  · have hint := length_encodeInt s.length 7 0x00
    rw [List.length_append]
    omega

end Hpack

namespace HpackEncoder

/-- A field takes no more octets than it counts for in a list's size. -/
theorem length_encodeOne (e : HpackEncoder) (h : Header) :
    (e.encodeOne h).2.length ≤ h.listSize := by
  have hname := Hpack.length_encodeString h.name e.huffman
  have hvalue := Hpack.length_encodeString h.value e.huffman
  have hover : entryOverhead = 32 := rfl
  unfold Header.listSize encodeOne
  dsimp only
  split
  · rw [List.length_append]
    split
    · rename_i i _
      have hint := Hpack.length_encodeInt i 4 0x10
      omega
    · rename_i i _
      have hint := Hpack.length_encodeInt i 4 0x10
      omega
    · rw [List.length_cons]
      omega
  · split
    · rename_i i _
      have hint := Hpack.length_encodeInt i 7 0x80
      dsimp only
      omega
    · rename_i i _
      have hint := Hpack.length_encodeInt i 6 0x40
      rw [List.length_append]
      omega
    · rw [List.length_append, List.length_cons]
      omega

theorem length_encodeAll (e : HpackEncoder) (hs : List Header) :
    (e.encodeAll hs).2.length ≤ (hs.map Header.listSize).sum := by
  induction hs generalizing e with
  | nil => exact Nat.le_refl 0
  | cons h hs ih =>
    have hone := length_encodeOne e h
    have hrest := ih (e.encodeOne h).1
    rw [encodeAll, List.map_cons, List.sum_cons, List.length_append]
    omega

/-- A block is no longer than its list's size and one size update. -/
theorem length_encode (e : HpackEncoder) (hs : List Header) :
    (e.encode hs).2.length ≤ (hs.map Header.listSize).sum + 11 := by
  have hall := length_encodeAll { e with pendingSizeUpdate := none } hs
  unfold encode
  dsimp only
  rw [List.length_append]
  split
  · rename_i size _
    have hint := Hpack.length_encodeInt size 5 0x20
    omega
  · rw [List.length_nil]
    omega

end HpackEncoder

end H2Proxy
