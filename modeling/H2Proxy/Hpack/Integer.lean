import H2Proxy.Hpack.Codec
import Mathlib.Tactic.Ring

/-
  The integer codec: what `decodeInt` reads off the octets `encodeInt` writes.

  The decoder gives up after five continuation octets or past 32 bits, whichever comes
  first; for values of 32 bits neither cut-off is met (`integers_exact`).
-/

namespace H2Proxy

namespace Hpack

/-- One group of seven bits and the groups after it. -/
theorem groups_add (v rest shift : Nat) :
    v + (rest % 2 ^ 7) <<< shift + (rest >>> 7) * 2 ^ (shift + 7) = v + rest * 2 ^ shift := by
  have hsplit : rest = rest % 2 ^ 7 + 2 ^ 7 * (rest / 2 ^ 7) := (Nat.mod_add_div rest _).symm
  rw [Nat.shiftLeft_eq, Nat.shiftRight_eq_div_pow]
  conv_rhs => rw [hsplit]
  ring

/-- The continuation octets come back as the value they were cut from. The induction is on
    the octets the decoder has left; the encoder's count only has to suffice. -/
theorem decodeIntFrom_encodeIntRest (fuel : Nat) : ∀ (n v shift rest : Nat) (tail : Bytes),
    rest < 2 ^ (7 * (fuel + 1)) → rest < 2 ^ (7 * (n + 1)) → v + rest * 2 ^ shift ≤ u32Max →
      decodeIntFrom v shift (fuel + 1) (encodeIntRest n rest ++ tail) =
        .ok (v + rest * 2 ^ shift, tail) := by
  -- the last octet: everything that is left fits seven bits
  have hlast : ∀ (fuel v shift rest : Nat) (tail : Bytes), rest < 2 ^ 7 →
      v + rest * 2 ^ shift ≤ u32Max →
      decodeIntFrom v shift (fuel + 1) (UInt8.ofNat rest :: tail) =
        .ok (v + rest * 2 ^ shift, tail) := by
    intro fuel v shift rest tail hrest hv
    have hbyte : (UInt8.ofNat rest).toNat = rest := by
      rw [UInt8.toNat_ofNat']
      omega
    have hmod : rest % 2 ^ 7 = rest := Nat.mod_eq_of_lt hrest
    simp only [decodeIntFrom, nextByte, bind, Except.bind]
    rw [hbyte, hmod, Nat.shiftLeft_eq, if_neg (by omega), if_pos hrest]
  induction fuel with
  | zero =>
    intro n v shift rest tail hfuel hn hv
    have hrest : rest < 2 ^ 7 := hfuel
    cases n with
    | zero => exact hlast 0 v shift rest tail hrest hv
    | succ n =>
      rw [encodeIntRest, if_neg (by omega)]
      exact hlast 0 v shift rest tail hrest hv
  | succ fuel ih =>
    intro n v shift rest tail hfuel hn hv
    by_cases hrest : rest < 2 ^ 7
    · cases n with
      | zero => exact hlast _ v shift rest tail hrest hv
      | succ n =>
        rw [encodeIntRest, if_neg (by omega)]
        exact hlast _ v shift rest tail hrest hv
    · cases n with
      | zero => exact absurd hn hrest
      | succ n =>
        have hbyte : (UInt8.ofNat (rest % 2 ^ 7 + 0x80)).toNat = rest % 2 ^ 7 + 2 ^ 7 := by
          rw [UInt8.toNat_ofNat']
          omega
        have hmod : (rest % 2 ^ 7 + 2 ^ 7) % 2 ^ 7 = rest % 2 ^ 7 := by omega
        have hsum := groups_add v rest shift
        have hshift : rest >>> 7 = rest / 2 ^ 7 := Nat.shiftRight_eq_div_pow rest 7
        have hpow : ∀ k, 2 ^ (7 * (k + 1 + 1)) = 2 ^ (7 * (k + 1)) * 2 ^ 7 := fun k => by
          rw [← Nat.pow_add]
          rfl
        have hle : v + (rest % 2 ^ 7) <<< shift ≤ u32Max :=
          Nat.le_trans (Nat.le_add_right _ _) (hsum ▸ hv)
        rw [encodeIntRest, if_pos (by omega), List.cons_append, decodeIntFrom]
        simp only [nextByte, bind, Except.bind]
        rw [hbyte, hmod, if_neg (by omega), if_neg (by omega), ih n _ _ _ tail, hsum]
        · rw [hshift]
          exact Nat.div_lt_of_lt_mul (by rw [Nat.mul_comm, ← hpow]; exact hfuel)
        · rw [hshift]
          exact Nat.div_lt_of_lt_mul (by rw [Nat.mul_comm, ← hpow]; exact hn)
        · rw [hsum]
          exact hv

/-- What is or-ed in under the flag bits comes back from the first octet. -/
theorem toNat_flags_or {prefixBits : Nat} (hbits : prefixBits ≤ 7) {highBits : UInt8}
    (hhigh : highBits.toNat % 2 ^ prefixBits = 0) {w : Nat} (hw : w < 2 ^ prefixBits) :
    (highBits ||| UInt8.ofNat w).toNat % 2 ^ prefixBits = w := by
  have hpow : 2 ^ prefixBits ≤ 2 ^ 7 := Nat.pow_le_pow_right (by decide) hbits
  have hsmall : (UInt8.ofNat w).toNat = w := by
    rw [UInt8.toNat_ofNat']
    omega
  rw [UInt8.toNat_or, hsmall, Nat.or_mod_two_pow, hhigh, Nat.zero_or, Nat.mod_eq_of_lt hw]

/-- An encoded integer is its first octet, under the flags, and then octets from which
    `decodeInt` reads the value back and nothing more. -/
theorem decodeInt_encodeInt (prefixBits : Nat) (highBits : UInt8) (hbits : prefixBits ≤ 7)
    (hhigh : highBits.toNat % 2 ^ prefixBits = 0) {value : Nat} (hvalue : value ≤ u32Max) :
    ∃ w < 2 ^ prefixBits, ∃ octets,
      encodeInt value prefixBits highBits = (highBits ||| UInt8.ofNat w) :: octets ∧
      ∀ tail, decodeInt (highBits ||| UInt8.ofNat w) prefixBits (octets ++ tail) =
        .ok (value, tail) := by
  have hpos : 0 < 2 ^ prefixBits := Nat.two_pow_pos prefixBits
  have hmax : u32Max < 2 ^ (7 * (4 + 1)) := by decide
  by_cases hsmall : value < 2 ^ prefixBits - 1
  · refine ⟨value, by omega, [], if_pos hsmall, fun tail => ?_⟩
    have hfirst := toNat_flags_or hbits hhigh (w := value) (by omega)
    unfold decodeInt
    dsimp only
    rw [hfirst, if_pos hsmall]
    rfl
  · refine ⟨2 ^ prefixBits - 1, by omega, encodeIntRest 9 (value - (2 ^ prefixBits - 1)),
      if_neg hsmall, fun tail => ?_⟩
    have hfirst := toNat_flags_or hbits hhigh (w := 2 ^ prefixBits - 1) (by omega)
    have hrest := decodeIntFrom_encodeIntRest 4 9 (2 ^ prefixBits - 1) 0
      (value - (2 ^ prefixBits - 1)) tail (by omega)
      (Nat.lt_of_le_of_lt (Nat.sub_le _ _) (Nat.lt_of_le_of_lt hvalue (by decide))) (by omega)
    unfold decodeInt
    dsimp only
    rw [hfirst, if_neg (Nat.lt_irrefl _), hrest]
    congr 2
    omega

theorem length_encodeIntRest (fuel rest : Nat) : (encodeIntRest fuel rest).length ≤ fuel + 1 := by
  induction fuel generalizing rest with
  | zero => exact Nat.le_refl 1
  | succ fuel ih =>
    rw [encodeIntRest]
    split
    · have htail := ih (rest >>> 7)
      rw [List.length_cons]
      omega
    · exact Nat.le_add_left 1 _

/-- An encoded integer has a prefix and at most ten more octets. -/
theorem length_encodeInt (value prefixBits : Nat) (highBits : UInt8) :
    (encodeInt value prefixBits highBits).length ≤ 11 := by
  unfold encodeInt
  dsimp only
  split
  · exact Nat.le_add_left 1 _
  · have hrest := length_encodeIntRest 9 (value - (2 ^ prefixBits - 1))
    rw [List.length_cons]
    omega

/-! ## What the decoder reads -/

/-- A reader is done with the first `k` octets: it has read a value off them or fails on them
    whatever comes next, or there are no more. -/
def DoneAfter (read : Bytes → Except HpackError (Nat × Bytes)) (cur : Bytes) (k : Nat) : Prop :=
  k ≤ cur.length ∧
    ((∃ value ≤ u32Max, ∀ tail, read (cur.take k ++ tail) = .ok (value, tail)) ∨
      (∃ e, ∀ tail, read (cur.take k ++ tail) = .error e) ∨
      k = cur.length ∧ ∃ e, read cur = .error e)

theorem decodeIntFrom_done (fuel value shift : Nat) (cur : Bytes) :
    ∃ k ≤ fuel, DoneAfter (decodeIntFrom value shift fuel) cur k := by
  induction fuel generalizing value shift cur with
  | zero => exact ⟨0, Nat.le_refl _, Nat.zero_le _, .inr (.inl ⟨_, fun _ => rfl⟩)⟩
  | succ fuel ih =>
    cases cur with
    | nil => exact ⟨0, Nat.zero_le _, Nat.zero_le _, .inr (.inr ⟨rfl, _, rfl⟩)⟩
    | cons byte cur =>
      have reads : ∀ rest, decodeIntFrom value shift (fuel + 1) (byte :: rest) =
          if value + (byte.toNat % 2 ^ 7) <<< shift > u32Max then
            .error (.compression "integer overflows 32 bits")
          else if byte.toNat < 2 ^ 7 then .ok (value + (byte.toNat % 2 ^ 7) <<< shift, rest)
          else decodeIntFrom (value + (byte.toNat % 2 ^ 7) <<< shift) (shift + 7) fuel rest :=
        fun _ => rfl
      by_cases large : value + (byte.toNat % 2 ^ 7) <<< shift > u32Max
      · refine ⟨1, by omega, by simp, .inr (.inl ⟨.compression "integer overflows 32 bits", ?_⟩)⟩
        exact fun tail => (reads tail).trans (if_pos large)
      · simp only [if_neg large] at reads
        by_cases last : byte.toNat < 2 ^ 7
        · refine ⟨1, by omega, by simp, .inl ⟨_, Nat.le_of_not_lt large, fun tail => ?_⟩⟩
          exact (reads tail).trans (if_pos last)
        · simp only [if_neg last] at reads
          obtain ⟨k, hk, within, done⟩ :=
            ih (value + (byte.toNat % 2 ^ 7) <<< shift) (shift + 7) cur
          refine ⟨k + 1, by omega, by simpa using within, ?_⟩
          have front : ∀ tail, decodeIntFrom value shift (fuel + 1) ((byte :: cur).take (k + 1) ++ tail) =
              decodeIntFrom (value + (byte.toNat % 2 ^ 7) <<< shift) (shift + 7) fuel
                (cur.take k ++ tail) := fun tail => reads _
          obtain ⟨v, hv, read⟩ | ⟨e, fails⟩ | ⟨all, e, fails⟩ := done
          · exact .inl ⟨v, hv, fun tail => (front tail).trans (read tail)⟩
          · exact .inr (.inl ⟨e, fun tail => (front tail).trans (fails tail)⟩)
          · exact .inr (.inr ⟨congrArg (· + 1) all, e, (reads cur).trans fails⟩)

/-- The decoder is done after its first octet and five more. -/
theorem decodeInt_done (first : UInt8) {prefixBits : Nat} (hbits : prefixBits ≤ 7) (cur : Bytes) :
    ∃ k ≤ 5, DoneAfter (decodeInt first prefixBits) cur k := by
  by_cases small : first.toNat % 2 ^ prefixBits < 2 ^ prefixBits - 1
  · have le : 2 ^ prefixBits ≤ 2 ^ 7 := Nat.pow_le_pow_right (by decide) hbits
    refine ⟨0, Nat.zero_le _, Nat.zero_le _, .inl ⟨first.toNat % 2 ^ prefixBits, ?_, fun tail => ?_⟩⟩
    · unfold u32Max
      omega
    · exact if_pos small
  · obtain ⟨k, hk, within, done⟩ := decodeIntFrom_done 5 (first.toNat % 2 ^ prefixBits) 0 cur
    have goesOn : ∀ cur, decodeInt first prefixBits cur =
        decodeIntFrom (first.toNat % 2 ^ prefixBits) 0 5 cur := fun _ => if_neg small
    refine ⟨k, hk, within, ?_⟩
    simp only [goesOn]
    exact done

/-! ## The accumulator -/

/-- `decode_int`'s loop on a 64-bit accumulator; `none` where a shift or a sum does not fit it. -/
def decodeIntFrom64 (value shift : Nat) : Nat → Bytes → Option (Except HpackError (Nat × Bytes))
  | 0, _ => some (.error (.compression "integer continuation is too long"))
  | _ + 1, [] => some (.error (.compression "block ended mid-representation"))
  | fuel + 1, byte :: cur =>
    let group := (byte.toNat % 2 ^ 7) <<< shift
    if group > u64Max then none
    else if value + group > u64Max then none
    else if value + group > u32Max then some (.error (.compression "integer overflows 32 bits"))
    else if byte.toNat < 2 ^ 7 then some (.ok (value + group, cur))
    else decodeIntFrom64 (value + group) (shift + 7) fuel cur

def decodeInt64 (first : UInt8) (prefixBits : Nat) (cur : Bytes) :
    Option (Except HpackError (Nat × Bytes)) :=
  let mask := 2 ^ prefixBits - 1
  let value := first.toNat % 2 ^ prefixBits
  if value < mask then some (.ok (value, cur))
  else decodeIntFrom64 value 0 5 cur

/-- A group of seven bits shifted by at most 28 fits beside 32 bits. -/
theorem decodeIntFrom64_eq (fuel value shift : Nat) (cur : Bytes) (hvalue : value ≤ u32Max)
    (hshift : shift + 7 * fuel ≤ 35) :
    decodeIntFrom64 value shift fuel cur = some (decodeIntFrom value shift fuel cur) := by
  induction fuel generalizing value shift cur with
  | zero => rfl
  | succ fuel ih =>
    cases cur with
    | nil => rfl
    | cons byte cur =>
      have group : (byte.toNat % 2 ^ 7) <<< shift ≤ 2 ^ 35 := by
        have seven : byte.toNat % 2 ^ 7 ≤ 2 ^ 7 := Nat.le_of_lt (Nat.mod_lt _ (by decide))
        have power : 2 ^ shift ≤ 2 ^ 28 := Nat.pow_le_pow_right (by decide) (by omega)
        rw [Nat.shiftLeft_eq]
        calc byte.toNat % 2 ^ 7 * 2 ^ shift ≤ 2 ^ 7 * 2 ^ 28 := Nat.mul_le_mul seven power
          _ = 2 ^ 35 := by decide
      have room : u32Max + 2 ^ 35 ≤ u64Max := by decide
      simp only [decodeIntFrom64, decodeIntFrom, nextByte, bind, Except.bind]
      rw [if_neg (by omega), if_neg (by omega)]
      split
      · rfl
      · rename_i small
        split
        · rfl
        · exact ih _ _ _ (by omega) (by omega)

theorem decodeInt64_eq (first : UInt8) {prefixBits : Nat} (hbits : prefixBits ≤ 7) (cur : Bytes) :
    decodeInt64 first prefixBits cur = some (decodeInt first prefixBits cur) := by
  unfold decodeInt64 decodeInt
  dsimp only
  split
  · rfl
  · have le : 2 ^ prefixBits ≤ 2 ^ 7 := Nat.pow_le_pow_right (by decide) hbits
    have lt := Nat.mod_lt first.toNat (Nat.two_pow_pos prefixBits)
    exact decodeIntFrom64_eq 5 _ 0 cur (by unfold u32Max; omega) (by decide)

/-- What is written is read back, to the last octet and no further; whatever is read is done
    within five octets after the first, on an accumulator that never overflows. -/
theorem integers_exact (prefixBits : Nat) (narrow : prefixBits ≤ 7) :
    (∀ (highBits : UInt8) (value : Nat), highBits.toNat % 2 ^ prefixBits = 0 → value ≤ u32Max →
      ∃ first octets, encodeInt value prefixBits highBits = first :: octets ∧
        ∀ tail, decodeInt first prefixBits (octets ++ tail) = .ok (value, tail)) ∧
    ∀ (first : UInt8) (cur : Bytes), (∃ k ≤ 5, DoneAfter (decodeInt first prefixBits) cur k) ∧
      decodeInt64 first prefixBits cur = some (decodeInt first prefixBits cur) := by
  refine ⟨fun highBits value flags fits => ?_, fun first cur => ?_⟩
  · obtain ⟨w, -, octets, written, read⟩ := decodeInt_encodeInt prefixBits highBits narrow flags fits
    exact ⟨_, octets, written, read⟩
  · exact ⟨decodeInt_done first narrow cur, decodeInt64_eq first narrow cur⟩

/-- 1337 under a prefix of five bits. -/
theorem integers_exact_five :
    encodeInt 1337 5 0xa0 = [0xbf, 0x9a, 0x0a] ∧
      (∀ tail, decodeInt 0xbf 5 ([0x9a, 0x0a] ++ tail) = .ok (1337, tail)) ∧
      decodeInt64 0xbf 5 [0xff, 0xff, 0xff, 0xff, 0x7f] =
        some (decodeInt 0xbf 5 [0xff, 0xff, 0xff, 0xff, 0x7f]) := by
  obtain ⟨reads, stops⟩ := integers_exact 5 (by decide)
  obtain ⟨first, octets, written, read⟩ := reads 0xa0 1337 (by decide) (by decide)
  have same : encodeInt 1337 5 0xa0 = [0xbf, 0x9a, 0x0a] := by decide
  obtain ⟨rfl, rfl⟩ := List.cons.inj (same.symm.trans written)
  exact ⟨same, read, (stops 0xbf _).2⟩

end Hpack

end H2Proxy
