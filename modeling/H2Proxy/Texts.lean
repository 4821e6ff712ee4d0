import H2Proxy.Hpack.WellFormed
import H2Proxy.Settings

/-
  The texts of connection errors are short.

  A failing connection puts its error's text into the debug data of its GOAWAY, so a bound
  on the texts is a bound on that frame. The numbers in them are lengths, indices and
  settings, all below 2^32.
-/

namespace H2Proxy

/-- The error's text fits a GOAWAY frame of the smallest size a peer may ask for. -/
def ConnectionError.Short (e : ConnectionError) : Prop :=
  8 + e.debug.length ≤ defaultMaxFrameSize

/-- A text of at most `k` characters. -/
def Within (k : Nat) (s : String) : Prop := s.length ≤ k

namespace Within

theorem append {j k : Nat} {s t : String} (hs : Within j s) (ht : Within k t) :
    Within (j + k) (s ++ t) := by
  unfold Within at *
  rw [String.length_append]
  omega

theorem text {k : Nat} (s : String) (h : s.length ≤ k) : Within k (toString s) := h

theorem nat {n : Nat} (h : n < 2 ^ 32) : Within 10 (toString n) := by
  show (Nat.repr n).length ≤ 10
  rw [Nat.length_repr_le_iff (by decide)]
  omega

theorem mono {j k : Nat} {s : String} (h : Within j s) (hjk : j ≤ k) : Within k s :=
  Nat.le_trans h hjk

theorem short {k : Nat} {code : ErrorCode} {debug : String} (h : Within k debug)
    (hk : k ≤ 16376) : ConnectionError.Short ⟨code, debug⟩ := by
  unfold ConnectionError.Short defaultMaxFrameSize
  show 8 + debug.length ≤ 16384
  unfold Within at h
  omega

end Within

theorem FrameType.debug_within (t : FrameType) : Within 20 t.debug := by
  cases t with
  | unknown code =>
    have hc := code.toNat_lt
    exact (((Within.text "Unknown(" (k := 8) (by decide)).append (.nat (by omega))).append
      (.text ")" (k := 1) (by decide))).mono (by decide)
  | _ => exact Nat.le_of_ble_eq_true rfl

/-! ## Framing errors -/

namespace FrameError

/-- The number in the error is a length of the frame's payload, or of less. -/
def lenLe (n : Nat) : FrameError → Prop
  | badLength _ len => len ≤ n
  | oversized .. => False
  | _ => True

theorem lenLe.within {n : Nat} {e : FrameError} (h : e.lenLe n) (hn : n < 2 ^ 32) :
    Within 100 e.text := by
  cases e with
  | oversized => exact h.elim
  | badLength kind len =>
    have hlen : len ≤ n := h
    exact ((((Within.text _ (FrameType.debug_within kind)).append
      (.text " frame has an invalid length (" (k := 30) (by decide))).append
      (.nat (by omega))).append (.text ")" (k := 1) (by decide))).mono (by decide)
  | badStreamId kind =>
    exact ((Within.text _ (FrameType.debug_within kind)).append
      (.text " frame arrived on an invalid stream" (k := 36) (by decide))).mono (by decide)
  | paddingOverflow kind =>
    exact ((Within.text _ (FrameType.debug_within kind)).append
      (.text " frame padding is at least as long as its payload" (k := 60) (by decide))).mono
      (by decide)
  | unexpectedPushPromise => exact Nat.le_of_ble_eq_true rfl
  | selfDependency kind =>
    exact ((Within.text _ (FrameType.debug_within kind)).append
      (.text " frame declares itself as its own dependency" (k := 60) (by decide))).mono
      (by decide)

theorem oversized_within {len max : Nat} (hl : len < 2 ^ 32) (hm : max < 2 ^ 32) :
    Within 100 (oversized len max).text :=
  ((((Within.text "frame length " (k := 13) (by decide)).append (.nat hl)).append
    (.text " exceeds SETTINGS_MAX_FRAME_SIZE " (k := 40) (by decide))).append (.nat hm)).mono
    (by decide)

end FrameError

namespace Frame

theorem stripPadding_lenLe {kind : FrameType} {flags : Flags} {payload : Bytes} {e : FrameError}
    (h : stripPadding kind flags payload = .error e) : e.lenLe payload.length := by
  unfold stripPadding at h
  split at h
  · cases h
  · split at h
    · cases h; exact Nat.zero_le _
    · split at h
      · cases h; trivial
      · cases h

theorem readErrorCode_lenLe {kind : FrameType} {octets : Bytes} {e : FrameError}
    (h : readErrorCode kind octets = .error e) : e.lenLe octets.length := by
  unfold readErrorCode at h
  split at h
  · cases h
  · cases h; exact Nat.le_refl _

theorem headersFromParts_lenLe {header : FrameHeader} {payload : Bytes} {e : FrameError}
    (h : headersFromParts header payload = .error e) : e.lenLe payload.length := by
  unfold headersFromParts at h
  split at h
  · cases h; trivial
  · cases hs : stripPadding .headers header.flags payload with
    | error e' =>
      rw [hs] at h
      cases h
      exact stripPadding_lenLe hs
    | ok block =>
      have hb : block.length ≤ payload.length := by
        obtain ⟨h1, h2⟩ := stripPadding_length hs
        cases hp : header.flags.has .padded with
        | false => exact Nat.le_of_eq (by rw [h1 hp])
        | true => exact Nat.le_of_lt (h2 hp)
      rw [hs] at h
      simp only [bind, Except.bind] at h
      split at h
      · split at h
        · cases h; exact hb
        · split at h <;> cases h
          trivial
      · cases h

theorem map_error {α β : Type} {x : Except FrameError α} {f : α → β} {e : FrameError}
    (h : x.map f = .error e) : x = .error e := by
  cases x with
  | error e' => cases h; rfl
  | ok a => cases h

/-- A frame that does not decode says so with a length of its payload at most. -/
theorem fromParts_lenLe {header : FrameHeader} {payload : Bytes} {e : FrameError}
    (h : fromParts header payload = .error e) : e.lenLe payload.length := by
  unfold fromParts at h
  split at h
  · replace h := map_error h
    unfold dataFromParts at h
    split at h
    · cases h; trivial
    · cases hs : stripPadding .data header.flags payload with
      | error e' => rw [hs] at h; cases h; exact stripPadding_lenLe hs
      | ok octets => rw [hs] at h; cases h
  · exact headersFromParts_lenLe (map_error h)
  · replace h := map_error h
    unfold rstStreamFromParts at h
    split at h
    · cases h; trivial
    · cases hs : readErrorCode .rstStream payload with
      | error e' => rw [hs] at h; cases h; exact readErrorCode_lenLe hs
      | ok code => rw [hs] at h; cases h
  · replace h := map_error h
    unfold settingsFromParts at h
    split at h
    · cases h; trivial
    · split at h
      · split at h <;> cases h
        exact Nat.le_refl _
      · split at h <;> cases h
        exact Nat.le_refl _
  · replace h := map_error h
    unfold pingFromParts at h
    split at h
    · cases h; trivial
    · split at h <;> cases h
      exact Nat.le_refl _
  · replace h := map_error h
    unfold goAwayFromParts at h
    split at h
    · cases h; trivial
    · split at h
      · simp [readErrorCode, bind, Except.bind] at h
      · cases h; exact Nat.le_refl _
  · replace h := map_error h
    unfold windowUpdateFromParts at h
    split at h <;> cases h
    exact Nat.le_refl _
  · replace h := map_error h
    unfold continuationFromParts at h
    split at h <;> cases h
    trivial
  · split at h
    · cases h; trivial
    · split at h
      · unfold validatePriority at h
        split at h
        · cases h; trivial
        · split at h
          · cases h; exact Nat.le_refl _
          · split at h <;> cases h
            trivial
      · cases h

end Frame

theorem WireFrame.decode_within {w : WireFrame} {e : FrameError} (h : w.decode = .error e) :
    Within 100 e.text :=
  (Frame.fromParts_lenLe h).within (by rw [w.length_eq]; have := w.length_lt; omega)

/-! ## Settings errors -/

theorem maxWindowSize_within : Within 10 (toString maxWindowSize) := by
  show (toString maxWindowSize).length ≤ 10
  decide +kernel

theorem frameSize_within {value low high : Nat} (hv : value < 2 ^ 32) (hl : low < 2 ^ 32)
    (hh : high < 2 ^ 32) : Within 100 s!"MAX_FRAME_SIZE {value} outside [{low}, {high}]" := by
  have text := (((((Within.text "MAX_FRAME_SIZE " (k := 20) (by decide)).append
    (.nat hv)).append (.text " outside [" (k := 10) (by decide))).append (.nat hl)).append
    (.text ", " (k := 2) (by decide))).append (.nat hh)
  exact (text.append (.text "]" (k := 1) (by decide))).mono (by decide)

theorem Settings.applyOne_short {s : Settings} {id : UInt16} {value : Nat} {e : ConnectionError}
    (h : s.applyOne id value = .error e) (hv : value < 2 ^ 32) : e.Short := by
  unfold applyOne at h
  split at h
  · cases h
  split at h
  · split at h <;> cases h
    have text := (Within.text "ENABLE_PUSH must be 0 or 1, got " (k := 40) (by decide)).append
      (.nat hv)
    exact text.short (by decide)
  split at h
  · cases h
  split at h
  · split at h <;> cases h
    have text := (((Within.text "INITIAL_WINDOW_SIZE " (k := 40) (by decide)).append
      (.nat hv)).append (.text " exceeds " (k := 9) (by decide))).append maxWindowSize_within
    exact text.short (by decide)
  split at h
  · split at h <;> cases h
    have hl : defaultMaxFrameSize < 2 ^ 32 := by unfold defaultMaxFrameSize; omega
    have hh : maxAllowedFrameSize < 2 ^ 32 := by unfold maxAllowedFrameSize; omega
    exact (frameSize_within hv hl hh).short (by decide)
  split at h <;> cases h

theorem Settings.apply_short (params : List (UInt16 × UInt32)) {s : Settings}
    {e : ConnectionError} (h : (s.apply params).2 = .error e) : e.Short := by
  induction params generalizing s with
  | nil => cases h
  | cons p ps ih =>
    simp only [apply] at h
    split at h
    · rename_i e' he
      cases h
      exact applyOne_short he p.2.toNat_lt
    · exact ih h

/-! ## HPACK errors -/

/-- The text of a compression error is short. -/
def HpackError.Terse (e : HpackError) : Prop := ∀ msg, e = .compression msg → Within 200 msg

theorem HpackError.terse {msg : String} {k : Nat} (h : Within k msg) (hk : k ≤ 200) :
    (HpackError.compression msg).Terse := by
  intro m hm
  cases hm
  exact h.mono hk

theorem HpackError.Terse.short {msg : String} (h : (HpackError.compression msg).Terse) :
    (HpackError.compression msg).toConnectionError.Short :=
  ((Within.text "HPACK compression error: " (k := 30) (by decide)).append (h msg rfl)).short
    (by decide)

namespace Hpack

theorem nextByte_terse {cur : Bytes} {e : HpackError} (h : nextByte cur = .error e) : e.Terse := by
  unfold nextByte at h
  split at h <;> cases h
  exact HpackError.terse (.text "block ended mid-representation" (k := 40) (by decide)) (by decide)

/-- A decoded integer fits 32 bits, or the error is terse. -/
def Bounded : Except HpackError (Nat × Bytes) → Prop
  | .ok r => r.1 < 2 ^ 32
  | .error e => e.Terse

theorem decodeIntFrom_bounded (fuel : Nat) (value shift : Nat) (cur : Bytes) :
    Bounded (decodeIntFrom value shift fuel cur) := by
  induction fuel generalizing value shift cur with
  | zero =>
    exact HpackError.terse (.text "integer continuation is too long" (k := 40) (by decide))
      (by decide)
  | succ fuel ih =>
    cases cur with
    | nil => exact nextByte_terse (show nextByte [] = .error _ from rfl)
    | cons byte cur =>
      simp only [decodeIntFrom, nextByte, bind, Except.bind]
      split
      · exact HpackError.terse (.text "integer overflows 32 bits" (k := 40) (by decide))
          (by decide)
      · rename_i hle
        split
        · unfold u32Max at hle
          show _ < _
          omega
        · exact ih _ _ _

theorem decodeInt_bounded (first : UInt8) {prefixBits : Nat} (hp : prefixBits ≤ 7) (cur : Bytes) :
    Bounded (decodeInt first prefixBits cur) := by
  unfold decodeInt
  dsimp only
  split
  · rename_i hlt
    have hpow : 2 ^ prefixBits ≤ 2 ^ 7 := Nat.pow_le_pow_right (by decide) hp
    show _ < _
    omega
  · exact decodeIntFrom_bounded _ _ _ _

theorem decodeInt_lt {first : UInt8} {prefixBits n : Nat} {cur rest : Bytes} (hp : prefixBits ≤ 7)
    (h : decodeInt first prefixBits cur = .ok (n, rest)) : n < 2 ^ 32 := by
  have := decodeInt_bounded first hp cur
  rw [h] at this
  exact this

theorem decodeInt_terse {first : UInt8} {prefixBits : Nat} {cur : Bytes} {e : HpackError}
    (hp : prefixBits ≤ 7) (h : decodeInt first prefixBits cur = .error e) : e.Terse := by
  have := decodeInt_bounded first hp cur
  rw [h] at this
  exact this

theorem take_terse {len : Nat} {cur : Bytes} {e : HpackError} (hl : len < 2 ^ 32)
    (h : take len cur = .error e) : e.Terse := by
  unfold take at h
  split at h <;> cases h
  exact HpackError.terse (((Within.text "string of " (k := 10) (by decide)).append (.nat hl)).append
    (.text " octets runs past the end of the block" (k := 40) (by decide))) (by decide)

end Hpack

namespace Huffman

/-- The longest path to a leaf. -/
def Tree.height : Tree → Nat
  | .node zero one => max zero.height one.height + 1
  | _ => 0

theorem root_height : State.root.depth + State.root.place.height ≤ 30 := by decide +kernel

theorem State.bit_depth {s s' : State} {b : Bool} {emit : Option UInt8}
    (h : s.depth + s.place.height ≤ 30) (hb : s.bit b = some (s', emit)) :
    s'.depth + s'.place.height ≤ 30 := by
  unfold State.bit at hb
  split at hb
  · rename_i zero one hp
    rw [hp, Tree.height] at h
    split at hb
    · split at hb
      · cases hb
      · rw [Option.some.injEq, Prod.mk.injEq] at hb
        rw [← hb.1]
        exact root_height
    · rename_i t _
      cases hb
      show s.depth + 1 + (if b then one else zero).height ≤ 30
      cases b <;> simp only [Bool.false_eq_true, if_false, if_true] <;> omega
  · cases hb

theorem State.bits_depth {bs : List Bool} : ∀ {s s' : State} {out : Bytes},
    s.depth + s.place.height ≤ 30 → s.bits bs = some (s', out) → s'.depth ≤ 30 := by
  induction bs with
  | nil =>
    intro s s' out h hb
    cases hb
    omega
  | cons b bs ih =>
    intro s s' out h hb
    simp only [State.bits, Option.bind_eq_bind, Option.bind_eq_some_iff] at hb
    obtain ⟨⟨s1, emit⟩, h1, ⟨s2, out2⟩, h2, h3⟩ := hb
    cases h3
    exact ih (State.bit_depth h h1) h2

theorem decode_within {src : Bytes} {msg : String} (h : decode src = .error msg) :
    Within 100 msg := by
  unfold decode at h
  split at h
  · cases h
    exact (Within.text "huffman string contains the EOS symbol" (k := 100) (by decide))
  · rename_i s out hb
    have hd : s.depth ≤ 30 := State.bits_depth root_height hb
    split at h
    · cases h
      exact (((Within.text "huffman padding is " (k := 20) (by decide)).append
        (.nat (by omega))).append
        (.text " bits, more than the 7 allowed" (k := 30) (by decide))).mono (by decide)
    · split at h <;> cases h
      exact (Within.text "huffman padding is not a prefix of the EOS code" (k := 100) (by decide))

end Huffman

namespace Hpack

theorem decodeString_terse {cur : Bytes} {e : HpackError} (h : decodeString cur = .error e) :
    e.Terse := by
  unfold decodeString at h
  simp only [bind, Except.bind] at h
  split at h
  · rename_i hn; cases h; exact nextByte_terse hn
  · split at h
    · rename_i hi; cases h; exact decodeInt_terse (by decide) hi
    · rename_i hi
      split at h
      · rename_i ht; cases h; exact take_terse (decodeInt_lt (by decide) hi) ht
      · split at h
        · split at h
          · cases h
          · rename_i hm; cases h; exact HpackError.terse (Huffman.decode_within hm) (by decide)
        · cases h

theorem lookup_terse {t : DynamicTable} {index : Nat} {e : HpackError} (hi : index < 2 ^ 32)
    (ht : t.entries.length < 2 ^ 32) (h : lookup t index = .error e) : e.Terse := by
  unfold lookup at h
  split at h
  · cases h
    exact HpackError.terse (.text "index 0 is not a valid table entry" (k := 40) (by decide))
      (by decide)
  · split at h
    · split at h <;> cases h
      exact HpackError.terse (.text "bad static index" (k := 40) (by decide)) (by decide)
    · split at h <;> cases h
      have text := (((Within.text "index " (k := 6) (by decide)).append (.nat hi)).append
        (.text " is past the end of the dynamic table (" (k := 40) (by decide))).append (.nat ht)
      exact HpackError.terse (text.append (.text " entries)" (k := 9) (by decide))) (by decide)

end Hpack

namespace HpackDecoder

open Hpack

theorem literal_terse {t : DynamicTable} {first : UInt8} {prefixBits : Nat} {cur : Bytes}
    {sensitive : Bool} {e : HpackError} (hp : prefixBits ≤ 7) (ht : t.entries.length < 2 ^ 32)
    (h : literal t first prefixBits cur sensitive = .error e) : e.Terse := by
  unfold literal at h
  simp only [bind, Except.bind] at h
  split at h
  · rename_i hi; cases h; exact decodeInt_terse hp hi
  · rename_i hi
    split at h
    · split at h
      · rename_i hs; cases h; exact decodeString_terse hs
      · split at h
        · rename_i hs; cases h; exact decodeString_terse hs
        · cases h
    · split at h
      · rename_i hl; cases h; exact lookup_terse (decodeInt_lt hp hi) ht hl
      · split at h
        · rename_i hs; cases h; exact decodeString_terse hs
        · cases h

theorem representation_terse {d : HpackDecoder} {allowed : Bool} {cur : Bytes} {e : HpackError}
    (ht : d.table.entries.length < 2 ^ 32) (hc : d.capacity < 2 ^ 32)
    (h : d.representation allowed cur = .error e) : e.Terse := by
  unfold representation at h
  simp only [bind, Except.bind] at h
  split at h
  · rename_i hn; cases h; exact nextByte_terse hn
  split at h
  · split at h
    · rename_i hi; cases h; exact decodeInt_terse (by decide) hi
    · rename_i hi
      split at h
      · rename_i hl; cases h; exact lookup_terse (decodeInt_lt (by decide) hi) ht hl
      · cases h
  split at h
  · split at h
    · rename_i hl; cases h; exact literal_terse (by decide) ht hl
    · cases h
  split at h
  · split at h
    · cases h
      exact HpackError.terse
        (.text "dynamic table size update after a header field" (k := 60) (by decide)) (by decide)
    · split at h
      · rename_i hi; cases h; exact decodeInt_terse (by decide) hi
      · rename_i hi
        split at h
        · cases h
          have text := ((Within.text "dynamic table size update to " (k := 40) (by decide)).append
            (.nat (decodeInt_lt (by decide) hi))).append
            (.text " exceeds the advertised " (k := 30) (by decide))
          exact HpackError.terse (text.append
            ((Within.text "maximum of " (k := 20) (by decide)).append (.nat hc))) (by decide)
        · cases h
  split at h
  · split at h
    · rename_i hl; cases h; exact literal_terse (by decide) ht hl
    · cases h
  · split at h
    · rename_i hl; cases h; exact literal_terse (by decide) ht hl
    · cases h

theorem decodeLoop_terse (fuel : Nat) {d : HpackDecoder} (hd : d.WF) (hc : d.capacity < 2 ^ 32)
    (p : Progress) (cur : Bytes) {e : HpackError} (h : (decodeLoop fuel d p cur).2 = .error e) :
    e.Terse := by
  induction fuel generalizing d p cur with
  | zero => cases h
  | succ fuel ih =>
    have ht : d.table.entries.length < 2 ^ 32 := by
      have h1 := hd.table.length_le
      have h2 := hd.maxSize_le
      omega
    simp only [decodeLoop] at h
    split at h
    · cases h
    · split at h
      · rename_i hr; cases h; exact representation_terse ht hc hr
      · rename_i hr; exact ih (hd.representation hr) hc _ _ h
      · rename_i hr; exact ih (hd.representation hr) hc _ _ h

/-- Decoding fails with a short text or because the list is too large. -/
theorem decode_terse {d : HpackDecoder} (hd : d.WF) (hc : d.capacity < 2 ^ 32) {block : Bytes}
    {e : HpackError} (h : (d.decode block).2 = .error e) : e.Terse := by
  simp only [decode] at h
  cases hl : (decodeLoop block.length d .start block).2 with
  | error e' =>
    rw [hl] at h
    cases h
    exact decodeLoop_terse _ hd hc _ _ hl
  | ok p =>
    rw [hl] at h
    simp only [Except.bind] at h
    split at h <;> cases h
    intro msg hm
    cases hm

end HpackDecoder

end H2Proxy
