import H2Proxy.Hpack.DecodeTable

/-
  The Huffman codec is exact: the decoder accepts the codings of RFC 7541 §5.2 and nothing else.

  The code of Appendix B is canonical: the lengths alone determine it (`codes_canonical`), and a
  coding is the codes of its octets and fewer than eight ones.
-/

namespace H2Proxy

namespace Huffman

/-! ## The canonical code -/

/-- The lengths of the codes, by symbol. -/
def lengths : List Nat := codes.map (·.2)

/-- The first code of a length: each shorter code has taken its share of the space. -/
def firstCode (lengths : List Nat) (len : Nat) : Nat :=
  (lengths.map fun l => if l < len then 2 ^ (len - l) else 0).sum

/-- The code that a canonical assignment gives a symbol: shorter codes come first, equal lengths
    in the order of their symbols. -/
def canonicalCode (lengths : List Nat) (sym : Nat) : Nat :=
  let len := lengths.getD sym 0
  firstCode lengths len + (lengths.take sym).count len

/-- The bits of an octet under the canonical code. -/
def canonicalBits (b : UInt8) : List Bool :=
  Bits.low (canonicalCode lengths b.toNat) (lengths.getD b.toNat 0)

/-- An element is found among those like it by how many of them come before it. -/
theorem getElem?_filter_countP {α : Type} (p : α → Bool) {l : List α} {i : Nat} {x : α}
    (h : l[i]? = some x) (hp : p x = true) : (l.filter p)[(l.take i).countP p]? = some x := by
  induction l generalizing i with
  | nil => cases h
  | cons y l ih =>
    cases i with
    | zero =>
      cases h
      simp [hp]
    | succ i =>
      have htail := ih (i := i) h
      by_cases hy : p y = true
      · simpa [hy] using htail
      · simpa [hy] using htail

/-- The codes of one length are consecutive. -/
theorem codes_consecutive : ∀ len < 31, (codes.filter (·.2 == len)).map (·.1) =
    List.range' (firstCode lengths len) (lengths.count len) := by decide +kernel

theorem codes_canonical {sym code len : Nat} (h : codes[sym]? = some (code, len)) :
    canonicalCode lengths sym = code ∧ lengths.getD sym 0 = len := by
  have hshort : ∀ c ∈ codes, c.2 < 31 := by decide +kernel
  have hlen : lengths.getD sym 0 = len := by
    unfold lengths
    rw [List.getD_eq_getElem?_getD, List.getElem?_map, h]
    rfl
  have hrank : (lengths.take sym).count len = (codes.take sym).countP (·.2 == len) := by
    unfold lengths
    rw [← List.map_take, List.count_eq_countP, List.countP_map]
    rfl
  have hget := getElem?_filter_countP (·.2 == len) h (beq_self_eq_true len)
  have hrun : (List.range' (firstCode lengths len) (lengths.count len))[
      (codes.take sym).countP (·.2 == len)]? = some code := by
    rw [← codes_consecutive len (hshort _ (List.mem_of_getElem? h)), List.getElem?_map, hget]
    rfl
  obtain ⟨hlt, hcode⟩ := List.getElem?_eq_some_iff.mp hrun
  rw [List.getElem_range', Nat.one_mul] at hcode
  refine ⟨?_, hlen⟩
  unfold canonicalCode
  dsimp only
  rw [hlen, hrank]
  exact hcode

theorem canonicalBits_eq (b : UInt8) : canonicalBits b = codeBits b := by
  have hall : codes.length = 257 := by decide +kernel
  have hlt : b.toNat < codes.length := by
    rw [hall]
    exact Nat.lt_succ_of_lt b.toNat_lt
  have hget : codes[b.toNat]? = some (code b) := by
    unfold code
    rw [List.getD_eq_getElem?_getD, List.getElem?_eq_getElem hlt]
    rfl
  obtain ⟨hcode, hlen⟩ := @codes_canonical _ (code b).1 (code b).2 hget
  unfold canonicalBits codeBits
  rw [hcode, hlen]

/-- The codes of the octets of `out`, filled up with fewer than eight ones. -/
def IsCoding (src out : Bytes) : Prop :=
  ∃ k < 8, src.flatMap octetBits = out.flatMap canonicalBits ++ List.replicate k true

theorem flatMap_canonicalBits (out : Bytes) :
    out.flatMap canonicalBits = out.flatMap codeBits := by
  congr 1
  funext b
  exact canonicalBits_eq b

/-! ## Decoding -/

/-- A state is at the end of the path of its bits. -/
structure Placed (s : State) (path : List Bool) : Prop where
  place : Tree.build.sub path = some s.place
  depth : s.depth = path.length
  eosPrefix : s.eosPrefix = path.all id

theorem placed_root : Placed .root [] where
  place := by
    have hroot : ∀ t : Tree, t.sub [] = some (State.mk t 0 true).place := Tree.sub_nil
    exact hroot Tree.build
  depth := by
    unfold State.root
    rfl
  eosPrefix := by
    unfold State.root
    rfl

/-- The path to a symbol's leaf is its code. -/
theorem path_eq_codeBits {path : List Bool} {sym : Nat} (h : Tree.build.sub path = some (.leaf sym))
    (heos : sym ≠ eos) : path = codeBits (UInt8.ofNat sym) := by
  obtain ⟨c, hc, heq⟩ := List.mem_map.mp (mem_words_iff.mpr ((Tree.walk_eq_sub _ _ _).mpr h))
  obtain ⟨rfl, rfl⟩ := Prod.mk.inj heq
  have hget := List.mem_zipIdx_iff_getElem?.mp hc
  have hlt : c.2 < 257 := by
    by_contra hge
    have hall : codes.length = 257 := by decide +kernel
    rw [List.getElem?_eq_none (by omega)] at hget
    cases hget
  have hoctet : (UInt8.ofNat c.2).toNat = c.2 := by
    have heos' : c.2 ≠ 256 := heos
    rw [UInt8.toNat_ofNat']
    omega
  have hcode : code (UInt8.ofNat c.2) = c.1 := by
    unfold code
    rw [hoctet, List.getD_eq_getElem?_getD, hget]
    rfl
  unfold codeBits
  rw [hcode]

namespace Placed

variable {s s' : State} {path : List Bool}

/-- A bit either lengthens the path or completes a code. -/
theorem bit (h : Placed s path) {b : Bool} {emit : Option UInt8} (hb : s.bit b = some (s', emit)) :
    emit = none ∧ Placed s' (path ++ [b]) ∨
      ∃ octet, emit = some octet ∧ s' = .root ∧ path ++ [b] = codeBits octet := by
  have hsub : Tree.build.sub (path ++ [b]) = s.place.sub [b] := by
    rw [Tree.sub_append, h.place]
    rfl
  unfold State.bit at hb
  cases hplace : s.place with
  | empty | leaf => rw [hplace] at hb; cases hb
  | node zero one =>
    rw [hplace] at hb hsub
    have hnext : Tree.build.sub (path ++ [b]) = some (if b then one else zero) := by
      rw [hsub, Tree.sub, Tree.sub_nil]
    dsimp only at hb
    split at hb
    · rename_i sym hleaf
      rw [hleaf] at hnext
      split at hb
      · cases hb
      · rename_i heos
        obtain ⟨hroot, hemit⟩ := Prod.mk.inj (Option.some.inj hb)
        exact .inr ⟨UInt8.ofNat sym, hemit.symm, hroot.symm, path_eq_codeBits hnext heos⟩
    · cases hb
      refine .inl ⟨rfl, hnext, ?_, ?_⟩
      · simp [h.depth]
      · simp [h.eosPrefix]

/-- The bits read are the codes of what was emitted, then the path of the state reached. -/
theorem bits (h : Placed s path) {bs : List Bool} {out : Bytes}
    (hbits : s.bits bs = some (s', out)) :
    ∃ rest, Placed s' rest ∧ path ++ bs = out.flatMap codeBits ++ rest := by
  induction bs generalizing s path out with
  | nil =>
    cases hbits
    exact ⟨path, h, List.append_nil path⟩
  | cons b bs ih =>
    cases hb : s.bit b with
    | none =>
      rw [State.bits, hb] at hbits
      cases hbits
    | some r =>
      obtain ⟨t, emit⟩ := r
      rw [State.bits_cons hb] at hbits
      obtain ⟨⟨t', out'⟩, hrest, heq⟩ := Option.map_eq_some_iff.mp hbits
      cases heq
      obtain ⟨rfl, hplaced⟩ | ⟨octet, rfl, rfl, hcode⟩ := h.bit hb
      · obtain ⟨rest, hend, hall⟩ := ih hplaced hrest
        refine ⟨rest, hend, ?_⟩
        rw [List.append_cons, hall]
        rfl
      · obtain ⟨rest, hend, hall⟩ := ih placed_root hrest
        refine ⟨rest, hend, ?_⟩
        rw [List.nil_append] at hall
        rw [List.append_cons, hcode, hall, ← List.append_assoc]
        rfl

end Placed

theorem eq_replicate_of_all {path : List Bool} (h : path.all id = true) :
    path = List.replicate path.length true := by
  rw [List.eq_replicate_iff]
  exact ⟨rfl, fun b hb => by simpa using List.all_eq_true.mp h b hb⟩

theorem decode_eq_ok_iff (src out : Bytes) : decode src = .ok out ↔ IsCoding src out := by
  unfold IsCoding
  rw [flatMap_canonicalBits]
  constructor
  · intro h
    unfold decode at h
    split at h
    · cases h
    · rename_i s out' hbits
      split at h
      · cases h
      · rename_i hdepth
        split at h
        · cases h
        · rename_i heos
          cases h
          obtain ⟨rest, hplaced, hall⟩ := placed_root.bits hbits
          have hones : rest.all id = true := by simpa [hplaced.eosPrefix] using heos
          refine ⟨rest.length, by rw [← hplaced.depth]; omega, ?_⟩
          rw [← eq_replicate_of_all hones]
          exact hall
  · rintro ⟨k, hk, hsrc⟩
    obtain ⟨s, hs, hdepth, heos⟩ := bits_padding hk
    have hbits : State.root.bits (src.flatMap octetBits) = some (s, out) := by
      rw [hsrc, bits_append, bits_codes, Option.bind_some, hs]
      simp
    unfold decode
    rw [hbits]
    dsimp only
    rw [if_neg (by omega), heos]
    rfl

theorem encode_isCoding (out : Bytes) : IsCoding (encode out) out :=
  (decode_eq_ok_iff _ _).mp (decode_encode out)

theorem flatMap_octetBits_injective {s t : Bytes}
    (h : s.flatMap octetBits = t.flatMap octetBits) : s = t := by
  induction s generalizing t with
  | nil =>
    have hlen := congrArg List.length h
    rw [length_flatMap_octetBits, length_flatMap_octetBits, List.length_nil] at hlen
    exact (List.eq_nil_of_length_eq_zero (by omega)).symm
  | cons b s ih =>
    cases t with
    | nil => cases h
    | cons c t =>
      rw [List.flatMap_cons, List.flatMap_cons] at h
      obtain ⟨hhead, htail⟩ := List.append_inj h rfl
      have hb : b.toNat = c.toNat := Bits.eq_of_low_eq (n := 8) b.toNat_lt c.toNat_lt hhead
      rw [UInt8.toNat_inj.mp hb, ih htail]

/-- A string has one coding. -/
theorem IsCoding.eq_encode {src out : Bytes} (h : IsCoding src out) : src = encode out := by
  obtain ⟨k, hk, hsrc⟩ := h
  rw [flatMap_canonicalBits] at hsrc
  have hlen := congrArg List.length hsrc
  rw [length_flatMap_octetBits, List.length_append, length_flatMap_codeBits,
    List.length_replicate] at hlen
  have hpad : k = padding (bitLen out) := by
    unfold padding
    omega
  rw [hpad, ← encode_bits] at hsrc
  exact flatMap_octetBits_injective hsrc

/-- The decode table can be built, reaches no undefined transition, and accepts exactly the
    codings; the encoder writes the coding, of the length announced. -/
theorem codec_exact : ∃ t, DecodeTable.build = some t ∧ ∀ src out,
    (t.decode src = some (.ok out) ↔ IsCoding src out) ∧ (t.decode src).isSome ∧
      (IsCoding src out ↔ src = encode out) ∧ (encode out).length = encodedLen out := by
  obtain ⟨t, hbuild, hdecode⟩ := table_decode
  refine ⟨t, hbuild, fun src out => ⟨?_, ?_, ⟨IsCoding.eq_encode, ?_⟩, length_encode out⟩⟩
  · rw [hdecode, Option.some_inj]
    exact decode_eq_ok_iff src out
  · rw [hdecode]
    rfl
  · rintro rfl
    exact encode_isCoding out

end Huffman

end H2Proxy
