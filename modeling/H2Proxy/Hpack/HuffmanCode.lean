import H2Proxy.Lib.Bits
import H2Proxy.Hpack.Huffman

/-
  The Huffman codec read bit by bit: `encode` writes the codes of its octets one after the
  other and fills the last octet with ones, and the decoder's tree takes each code back to
  its octet and accepts such a filling.
-/

namespace H2Proxy

namespace Huffman

/-! ## What the encoder writes -/

/-- The bits of an octet's code. -/
def codeBits (b : UInt8) : List Bool := Bits.low (code b).1 (code b).2

/-- How many bits a string's codes take. -/
def bitLen (src : Bytes) : Nat := (src.map fun b => (code b).2).sum

/-- How many ones fill the last octet of a string of `n` bits. -/
def padding (n : Nat) : Nat := (8 - n % 8) % 8

theorem octetBits_ofNat (x : Nat) : octetBits (UInt8.ofNat x) = Bits.low x 8 := by
  have hoctet : octetBits (UInt8.ofNat x) = Bits.low (UInt8.ofNat x).toNat 8 := rfl
  rw [hoctet, UInt8.toNat_ofNat', Bits.low_mod x (Nat.le_refl 8)]

/-- Every code fits its length, which is at least 5 and at most 30 bits. -/
theorem code_bound (b : UInt8) :
    (code b).1 < 2 ^ (code b).2 ∧ 5 ≤ (code b).2 ∧ (code b).2 ≤ 30 := by
  have hall : ∀ n < 256, (codes.getD n (0, 0)).1 < 2 ^ (codes.getD n (0, 0)).2 ∧
      5 ≤ (codes.getD n (0, 0)).2 ∧ (codes.getD n (0, 0)).2 ≤ 30 := by decide +kernel
  exact hall b.toNat b.toNat_lt

/-- The octets flushed and the bits left pending are the bits that were pending. -/
theorem flush_bits (acc nbits : Nat) :
    (flush acc nbits).flatMap octetBits ++ Bits.low acc (nbits % 8) = Bits.low acc nbits := by
  have hfront : ∀ m, 8 * m ≤ nbits →
      ((List.range m).map fun i => UInt8.ofNat (acc >>> (nbits - 8 * (i + 1)))).flatMap octetBits ++
        Bits.low acc (nbits - 8 * m) = Bits.low acc nbits := by
    intro m hm
    induction m with
    | zero => rfl
    | succ m ih =>
      have hsplit : Bits.low acc (nbits - 8 * m) =
          Bits.low (acc >>> (nbits - 8 * (m + 1))) 8 ++ Bits.low acc (nbits - 8 * (m + 1)) := by
        rw [← Bits.low_add]
        congr 1
        omega
      rw [List.range_succ, List.map_append, List.flatMap_append, List.append_assoc]
      rw [← ih (by omega), hsplit]
      congr 1
      simp [octetBits_ofNat]
  have h := hfront (nbits / 8) (Nat.mul_div_le nbits 8)
  rw [show nbits - 8 * (nbits / 8) = nbits % 8 by omega] at h
  exact h

/-- One more code in the accumulator. -/
theorem low_accumulate (acc : Nat) {nbits : Nat} (hn : nbits < 8) (b : UInt8) :
    Bits.low ((acc <<< (code b).2) % 2 ^ 64 ||| (code b).1) (nbits + (code b).2) =
      Bits.low acc nbits ++ codeBits b := by
  obtain ⟨hcode, -, hlen⟩ := code_bound b
  have hcode64 : (code b).1 % 2 ^ 64 = (code b).1 :=
    Nat.mod_eq_of_lt (Nat.lt_of_lt_of_le hcode (Nat.pow_le_pow_right (by decide) (by omega)))
  have hor : (acc <<< (code b).2) % 2 ^ 64 ||| (code b).1 =
      (acc <<< (code b).2 ||| (code b).1) % 2 ^ 64 := by
    rw [Nat.or_mod_two_pow, hcode64]
  rw [hor, Bits.low_mod _ (by omega), Bits.low_shiftLeft_or acc _ nbits hcode]
  rfl

/-- The octets written, as bits: what was pending, the codes, and ones to the octet's end. -/
theorem encodeFrom_bits (acc nbits : Nat) (hn : nbits < 8) (src : Bytes) :
    (encodeFrom acc nbits src).flatMap octetBits =
      Bits.low acc nbits ++ src.flatMap codeBits ++
        List.replicate (padding (nbits + bitLen src)) true := by
  induction src generalizing acc nbits with
  | nil =>
    simp only [encodeFrom, bitLen, List.map_nil, List.sum_nil, Nat.add_zero, List.flatMap_nil,
      List.append_nil]
    split
    · rename_i hpos
      have hones : (1 <<< (8 - nbits) - 1) = 2 ^ (8 - nbits) - 1 := by
        rw [Nat.shiftLeft_eq, Nat.one_mul]
      have hpad : padding nbits = 8 - nbits := by
        unfold padding
        omega
      have hlt : 2 ^ (8 - nbits) - 1 < 2 ^ (8 - nbits) :=
        Nat.sub_lt (Nat.two_pow_pos _) (by decide)
      have hlow := Bits.low_shiftLeft_or acc (2 ^ (8 - nbits) - 1) nbits hlt
      rw [Nat.add_sub_cancel' (by omega), Bits.low_ones] at hlow
      rw [List.flatMap_singleton, octetBits_ofNat, hones, hlow, hpad]
    · have hzero : nbits = 0 := by omega
      subst hzero
      rfl
  | cons b src ih =>
    have hlen : padding ((nbits + (code b).2) % 8 + bitLen src) =
        padding (nbits + bitLen (b :: src)) := by
      simp only [bitLen, List.map_cons, List.sum_cons, padding]
      omega
    simp only [encodeFrom]
    rw [List.flatMap_append, ih _ _ (Nat.mod_lt _ (by decide)), ← List.append_assoc,
      ← List.append_assoc, flush_bits, low_accumulate acc hn b, List.flatMap_cons, hlen]
    simp only [List.append_assoc]

/-- A coded string is the codes of its octets, filled up with ones. -/
theorem encode_bits (src : Bytes) :
    (encode src).flatMap octetBits =
      src.flatMap codeBits ++ List.replicate (padding (bitLen src)) true := by
  have h := encodeFrom_bits 0 0 (by decide) src
  rw [Nat.zero_add] at h
  exact h

theorem length_flatMap_octetBits (s : Bytes) : (s.flatMap octetBits).length = 8 * s.length := by
  induction s with
  | nil => rfl
  | cons b s ih =>
    have hb : (octetBits b).length = 8 := rfl
    rw [List.flatMap_cons, List.length_append, hb, ih, List.length_cons]
    omega

theorem length_flatMap_codeBits (src : Bytes) : (src.flatMap codeBits).length = bitLen src := by
  induction src with
  | nil => rfl
  | cons b src ih =>
    rw [List.flatMap_cons, List.length_append, ih, codeBits, Bits.length_low]
    rfl

/-- A coded string is as long as `encodedLen` announces. -/
theorem length_encode (src : Bytes) : (encode src).length = encodedLen src := by
  have h := congrArg List.length (encode_bits src)
  rw [length_flatMap_octetBits, List.length_append, length_flatMap_codeBits,
    List.length_replicate] at h
  show _ = (bitLen src + 7) / 8
  unfold padding at h
  omega

/-! ## What the decoder reads -/

/-- The symbol at the end of a path down the tree. -/
def Tree.walk : Tree → List Bool → Option Nat
  | .leaf sym, [] => some sym
  | .node zero one, b :: bs => (if b then one else zero).walk bs
  | _, _ => none

/-- Every octet's code leads to the octet. -/
theorem walk_codeBits (b : UInt8) : Tree.build.walk (codeBits b) = some b.toNat := by
  have hall : ∀ n < 256, Tree.build.walk
      (Bits.low (codes.getD n (0, 0)).1 (codes.getD n (0, 0)).2) = some n := by decide +kernel
  exact hall b.toNat b.toNat_lt

theorem bits_append (s : State) (bs cs : List Bool) :
    s.bits (bs ++ cs) = (s.bits bs).bind fun r =>
      (r.1.bits cs).map fun r' => (r'.1, r.2 ++ r'.2) := by
  induction bs generalizing s with
  | nil => cases h : s.bits cs <;> simp [State.bits, h]
  | cons b bs ih =>
    rw [List.cons_append, State.bits, State.bits]
    cases hb : s.bit b with
    | none => rfl
    | some r =>
      simp only [Option.bind_eq_bind, Option.bind_some, ih]
      cases hbs : r.1.bits bs with
      | none => rfl
      | some r' =>
        simp only [Option.bind_some]
        cases hcs : r'.1.bits cs <;> simp

/-- A path to an octet's leaf emits the octet and starts over. -/
theorem bits_walk {t : Tree} {bs : List Bool} {sym : Nat} (hwalk : t.walk bs = some sym)
    (heos : sym ≠ eos) (hne : bs ≠ []) (depth : Nat) (eosPrefix : Bool) :
    State.bits ⟨t, depth, eosPrefix⟩ bs = some (.root, [UInt8.ofNat sym]) := by
  induction bs generalizing t depth eosPrefix with
  | nil => exact absurd rfl hne
  | cons b bs ih =>
    cases t with
    | empty => cases hwalk
    | leaf sym' => cases hwalk
    | node zero one =>
      rw [Tree.walk] at hwalk
      rw [State.bits, State.bit]
      dsimp only
      generalize (if b = true then one else zero) = next at hwalk
      cases next with
      | empty => cases bs <;> cases hwalk
      | leaf sym' =>
        cases bs with
        | nil =>
          cases hwalk
          dsimp only
          rw [if_neg heos]
          rfl
        | cons b' bs => cases hwalk
      | node zero' one' =>
        have hbs : bs ≠ [] := by
          rintro rfl
          cases hwalk
        dsimp only
        simp only [Option.bind_eq_bind, Option.bind_some, ih hwalk hbs]
        rfl

theorem bits_codeBits (b : UInt8) : State.root.bits (codeBits b) = some (.root, [b]) := by
  have hwalk := walk_codeBits b
  have heos : b.toNat ≠ eos := Nat.ne_of_lt b.toNat_lt
  have hne : codeBits b ≠ [] := by
    intro h
    have hlen := Bits.length_low (code b).1 (code b).2
    have hpos := (code_bound b).2.1
    rw [show Bits.low (code b).1 (code b).2 = [] from h, List.length_nil] at hlen
    omega
  have h := bits_walk hwalk heos hne 0 true
  rw [UInt8.ofNat_toNat] at h
  exact h

theorem bits_codes (src : Bytes) : State.root.bits (src.flatMap codeBits) = some (.root, src) := by
  induction src with
  | nil => rfl
  | cons b src ih =>
    rw [List.flatMap_cons, bits_append, bits_codeBits, Option.bind_some, ih]
    rfl

/-- Fewer than eight ones are an acceptable end of a string. -/
theorem bits_padding {k : Nat} (hk : k < 8) :
    ∃ s, State.root.bits (List.replicate k true) = some (s, []) ∧ s.depth ≤ 7 ∧
      s.eosPrefix = true := by
  have hall : ∀ k < 8, ((State.root.bits (List.replicate k true)).any fun r =>
      r.2.isEmpty && r.1.eosPrefix && r.1.depth ≤ 7) = true := by decide +kernel
  have h := hall k hk
  rw [Option.any_eq_true] at h
  obtain ⟨⟨s, out⟩, hs, hr⟩ := h
  simp only [Bool.and_eq_true, List.isEmpty_iff, decide_eq_true_eq] at hr
  obtain ⟨⟨rfl, heos⟩, hdepth⟩ := hr
  exact ⟨s, hs, hdepth, heos⟩

theorem decode_encode (src : Bytes) : decode (encode src) = .ok src := by
  obtain ⟨s, hs, hdepth, heos⟩ := bits_padding (k := padding (bitLen src))
    (Nat.mod_lt _ (by decide))
  have hbits : State.root.bits ((encode src).flatMap octetBits) = some (s, src) := by
    rw [encode_bits, bits_append, bits_codes, Option.bind_some, hs]
    simp
  unfold decode
  rw [hbits]
  dsimp only
  rw [if_neg (by omega), heos]
  rfl

end Huffman

end H2Proxy
