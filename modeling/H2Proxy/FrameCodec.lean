import H2Proxy.Frame

/-
  The frame codec over a buffer (`FrameCodec` in `core/src/frame.rs`): one frame at a time,
  all the frames a buffer holds, and a buffer that is filled read by read.

  `round_trip` says that what the encoder writes is what the decoder reads, and that what
  the decoder reads the encoder can write; `reads_agree` that the decoder does not see how
  the octets arrived.
-/

namespace H2Proxy

/-! ## Octets -/

theorem toNat_ofNat (n : Nat) : (UInt8.ofNat n).toNat = n % 2 ^ 8 := rfl

theorem be16_ofNat (n : Nat) : be16 (UInt8.ofNat (n / 2 ^ 8)) (UInt8.ofNat n) = n % 2 ^ 16 := by
  simp only [be16, toNat_ofNat]
  omega

theorem be32_ofNat (n : Nat) :
    be32 (UInt8.ofNat (n / 2 ^ 16 / 2 ^ 8)) (UInt8.ofNat (n / 2 ^ 16)) (UInt8.ofNat (n / 2 ^ 8))
      (UInt8.ofNat n) = n % 2 ^ 32 := by
  simp only [be32, be16_ofNat]
  omega

theorem be24_ofNat (n : Nat) :
    be32 0 (UInt8.ofNat (n / 2 ^ 16)) (UInt8.ofNat (n / 2 ^ 8)) (UInt8.ofNat n) = n % 2 ^ 24 := by
  simp only [be32, be16, toNat_ofNat, UInt8.toNat_zero]
  omega

theorem StreamId.new_get (id : StreamId) : StreamId.new (id.get % 2 ^ 32) = id := by
  refine StreamId.ext_get ?_
  have := id.lt
  show id.get % 2 ^ 32 % 2 ^ 31 = id.get
  omega

theorem ErrorCode.asU32_lt (c : ErrorCode) : c.asU32 < 2 ^ 32 := by
  cases c <;> decide

/-! ## The encoder over a buffer -/

namespace Frame

/-- `write_header`: nothing is written where the length does not fit its field. -/
def writeHeader (kind : FrameType) (flags : Flags) (id : StreamId) (payloadLen : Nat)
    (out : Bytes) : Except FrameError Unit × Bytes :=
  if payloadLen > maxAllowedFrameSize then
    (.error (.oversized (min payloadLen u32Max) maxAllowedFrameSize), out)
  else (.ok (), out ++ FrameHeader.write ⟨payloadLen, kind, flags, id⟩)

end Frame

namespace FrameCodec

/-- Serialize a frame onto `out`. -/
def encode (f : Frame) (out : Bytes) : Except FrameError Unit × Bytes :=
  match Frame.writeHeader f.kind f.flags f.streamId f.payloadLen out with
  | (.error e, out) => (.error e, out)
  | (.ok (), out) => (.ok (), out ++ f.payload)

/-- Serialize frames in order, up to the first that does not encode. -/
def encodeAll : List Frame → Bytes → Except FrameError Unit × Bytes
  | [], out => (.ok (), out)
  | f :: fs, out =>
    match encode f out with
    | (.error e, out) => (.error e, out)
    | (.ok (), out) => encodeAll fs out

theorem encode_eq (f : Frame) (out : Bytes) :
    encode f out = match f.write with
      | .ok bytes => (.ok (), out ++ bytes)
      | .error e => (.error e, out) := by
  unfold encode Frame.writeHeader Frame.write
  by_cases h : f.payloadLen > maxAllowedFrameSize
  · simp only [if_pos h]
  · simp only [if_neg h, List.append_assoc]

/-! ## The decoder over a buffer -/

/-- The octets the frame at the front of a buffer takes, by its header. -/
def frameLen : Bytes → Nat
  | b0 :: b1 :: b2 :: _ => frameHeaderLen + be32 0 b0 b1 b2
  | _ => 0

theorem drop_header (b0 b1 b2 b3 b4 b5 b6 b7 b8 : UInt8) (rest : Bytes) (n : Nat) :
    (b0 :: b1 :: b2 :: b3 :: b4 :: b5 :: b6 :: b7 :: b8 :: rest).drop (n + 9) = rest.drop n := rfl

/-- A frame is cut off whole: its header and the octets that follow it. -/
theorem splitFrame_some {max : Nat} {buf rest : Bytes} {w : WireFrame}
    (h : splitFrame max buf = .ok (some (w, rest))) :
    frameLen buf = frameHeaderLen + w.header.length ∧ frameLen buf ≤ buf.length ∧
      rest = buf.drop (frameLen buf) ∧ w.header.length ≤ max := by
  unfold splitFrame at h
  split at h
  · rename_i b0 b1 b2 b3 b4 b5 b6 b7 b8 rest'
    dsimp only at h
    split at h
    · cases h
    rename_i hmax
    split at h
    · cases h
    · rename_i hrest
      cases h
      have hlen : frameLen (b0 :: b1 :: b2 :: b3 :: b4 :: b5 :: b6 :: b7 :: b8 :: rest') =
          (FrameHeader.parse b0 b1 b2 b3 b4 b5 b6 b7 b8).length + 9 := Nat.add_comm _ _
      rw [hlen, drop_header]
      refine ⟨?_, ?_, rfl, Nat.le_of_not_lt hmax⟩
      · simp only [frameHeaderLen]
        omega
      · simp only [List.length_cons]
        omega
  · cases h

/-- What is cut off a buffer is cut off any longer one. -/
theorem splitFrame_append {max : Nat} {buf rest : Bytes} {w : WireFrame} (more : Bytes)
    (h : splitFrame max buf = .ok (some (w, rest))) :
    splitFrame max (buf ++ more) = .ok (some (w, rest ++ more)) := by
  unfold splitFrame at h
  split at h
  · rename_i b0 b1 b2 b3 b4 b5 b6 b7 b8 rest'
    dsimp only at h
    split at h
    · cases h
    rename_i hmax
    split at h
    · cases h
    · rename_i hrest
      cases h
      have hle : (FrameHeader.parse b0 b1 b2 b3 b4 b5 b6 b7 b8).length ≤ rest'.length :=
        Nat.le_of_not_lt hrest
      have hlong : ¬ (rest' ++ more).length <
          (FrameHeader.parse b0 b1 b2 b3 b4 b5 b6 b7 b8).length := by
        rw [List.length_append]
        omega
      simp only [List.cons_append, splitFrame, if_neg hmax, dif_neg hlong,
        List.take_append_of_le_length hle, List.drop_append_of_le_length hle]
  · cases h

theorem splitFrame_append_error {max : Nat} {buf : Bytes} {e : FrameError} (more : Bytes)
    (h : splitFrame max buf = .error e) : splitFrame max (buf ++ more) = .error e := by
  unfold splitFrame at h
  split at h
  · rename_i b0 b1 b2 b3 b4 b5 b6 b7 b8 rest'
    dsimp only at h
    split at h
    · rename_i hmax
      simp only [List.cons_append, splitFrame, if_pos hmax]
      exact h
    split at h
    · cases h
    · cases h
  · cases h

section DecodeAny

variable {max : Nat} {buf rest : Bytes} {d : Decoded} {e : FrameError}

theorem decodeAny_some :
    decodeAny max buf = (.ok (some d), rest) ↔
      ∃ w, splitFrame max buf = .ok (some (w, rest)) ∧ w.decode = .ok d := by
  unfold decodeAny
  cases hs : splitFrame max buf with
  | error e => simp
  | ok cut =>
    cases cut with
    | none => simp
    | some cut =>
      obtain ⟨w, rest'⟩ := cut
      cases hw : w.decode with
      | error e =>
        constructor
        · intro h
          simp only [hw] at h
          cases h
        · rintro ⟨w', ⟨⟩, hw'⟩
          rw [hw] at hw'
          cases hw'
      | ok d' =>
        constructor
        · intro h
          simp only [hw] at h
          cases h
          exact ⟨w, rfl, hw⟩
        · rintro ⟨w', ⟨⟩, hw'⟩
          rw [hw] at hw'
          cases hw'
          simp only [hw]
          rfl

theorem decodeAny_none (h : decodeAny max buf = (.ok none, rest)) : rest = buf := by
  unfold decodeAny at h
  cases hs : splitFrame max buf with
  | error e => rw [hs] at h; cases h
  | ok cut =>
    rw [hs] at h
    cases cut with
    | none => cases h; rfl
    | some cut =>
      obtain ⟨w, rest'⟩ := cut
      cases hw : w.decode with
      | error e => simp only [hw] at h; cases h
      | ok d => simp only [hw] at h; cases h

theorem decodeAny_error :
    decodeAny max buf = (.error e, rest) ↔
      splitFrame max buf = .error e ∧ rest = buf ∨
        ∃ w, splitFrame max buf = .ok (some (w, rest)) ∧ w.decode = .error e := by
  unfold decodeAny
  cases hs : splitFrame max buf with
  | error e' => simp [eq_comm]
  | ok cut =>
    cases cut with
    | none => simp
    | some cut =>
      obtain ⟨w, rest'⟩ := cut
      cases hw : w.decode with
      | error e' =>
        constructor
        · intro h
          simp only [hw] at h
          cases h
          exact .inr ⟨w, rfl, hw⟩
        · rintro (⟨⟨⟩, -⟩ | ⟨w', ⟨⟩, hw'⟩)
          rw [hw] at hw'
          cases hw'
          simp only [hw]
          rfl
      | ok d =>
        constructor
        · intro h
          simp only [hw] at h
          cases h
        · rintro (⟨⟨⟩, -⟩ | ⟨w', ⟨⟩, hw'⟩)
          rw [hw] at hw'
          cases hw'

theorem decodeAny_length (h : decodeAny max buf = (.ok (some d), rest)) :
    rest.length < buf.length := by
  obtain ⟨w, hs, -⟩ := decodeAny_some.mp h
  obtain ⟨hlen, hle, hrest, -⟩ := splitFrame_some hs
  unfold frameHeaderLen at hlen
  rw [hrest, List.length_drop]
  omega

/-- Octets behind a frame do not change how it is decoded. -/
theorem decodeAny_append (more : Bytes) (h : decodeAny max buf = (.ok (some d), rest)) :
    decodeAny max (buf ++ more) = (.ok (some d), rest ++ more) := by
  obtain ⟨w, hs, hw⟩ := decodeAny_some.mp h
  exact decodeAny_some.mpr ⟨w, splitFrame_append more hs, hw⟩

theorem decodeAny_append_error (more : Bytes) (h : decodeAny max buf = (.error e, rest)) :
    decodeAny max (buf ++ more) = (.error e, rest ++ more) := by
  obtain ⟨hs, rfl⟩ | ⟨w, hs, hw⟩ := decodeAny_error.mp h
  · exact decodeAny_error.mpr (.inl ⟨splitFrame_append_error more hs, rfl⟩)
  · exact decodeAny_error.mpr (.inr ⟨w, splitFrame_append more hs, hw⟩)

end DecodeAny

/-- One frame off the front of a buffer, past those that are ignored; the buffer that is
    left. -/
def decode (max : Nat) (buf : Bytes) : Except FrameError (Option Frame) × Bytes :=
  match _h : decodeAny max buf with
  | (.error e, rest) => (.error e, rest)
  | (.ok none, rest) => (.ok none, rest)
  | (.ok (some (.frame f)), rest) => (.ok (some f), rest)
  | (.ok (some (.ignored ..)), rest) => decode max rest
termination_by buf.length
decreasing_by exact decodeAny_length _h

/-- Call `decode_any` until it asks for more or fails: what it returned, the error, and the
    buffer that is left. -/
def decodeAll (max : Nat) (buf : Bytes) : List Decoded × Option FrameError × Bytes :=
  match _h : decodeAny max buf with
  | (.error e, rest) => ([], some e, rest)
  | (.ok none, rest) => ([], none, rest)
  | (.ok (some d), rest) =>
    let (ds, e, left) := decodeAll max rest
    (d :: ds, e, left)
termination_by buf.length
decreasing_by exact decodeAny_length _h

/-- Fill a buffer read by read, decoding all it holds after each; nothing is read after an
    error. -/
def decodeReads (max : Nat) : Bytes → List Bytes → List Decoded × Option FrameError × Bytes
  | buf, [] => ([], none, buf)
  | buf, read :: reads =>
    match decodeAll max (buf ++ read) with
    | (ds, some e, rest) => (ds, some e, rest)
    | (ds, none, rest) =>
      let (ds', e, left) := decodeReads max rest reads
      (ds ++ ds', e, left)

section Reads

variable {max : Nat} {buf : Bytes}

theorem decodeAll_of_none {rest : Bytes} (h : decodeAny max buf = (.ok none, rest)) :
    decodeAll max buf = ([], none, rest) := by
  rw [decodeAll]
  split <;> rename_i h' <;> rw [h] at h' <;> cases h'
  rfl

theorem decodeAll_of_error {e : FrameError} {rest : Bytes}
    (h : decodeAny max buf = (.error e, rest)) : decodeAll max buf = ([], some e, rest) := by
  rw [decodeAll]
  split <;> rename_i h' <;> rw [h] at h' <;> cases h'
  rfl

theorem decodeAll_of_some {d : Decoded} {rest : Bytes}
    (h : decodeAny max buf = (.ok (some d), rest)) :
    decodeAll max buf =
      (d :: (decodeAll max rest).1, (decodeAll max rest).2.1, (decodeAll max rest).2.2) := by
  rw [decodeAll]
  split <;> rename_i h' <;> rw [h] at h' <;> cases h'
  rfl

/-- Octets that arrive behind a buffer are decoded after it: what is left of it and they are
    decoded as one, unless the buffer ended in an error. -/
theorem decodeAll_append (max : Nat) (buf more : Bytes) :
    decodeAll max (buf ++ more) =
      match decodeAll max buf with
      | (ds, some e, rest) => (ds, some e, rest ++ more)
      | (ds, none, rest) =>
        (ds ++ (decodeAll max (rest ++ more)).1, (decodeAll max (rest ++ more)).2.1,
          (decodeAll max (rest ++ more)).2.2) := by
  induction hn : buf.length using Nat.strongRecOn generalizing buf with
  | ind n ih =>
    rcases h : decodeAny max buf with ⟨result, rest⟩
    cases result with
    | error e =>
      rw [decodeAll_of_error h, decodeAll_of_error (decodeAny_append_error more h)]
    | ok cut =>
      cases cut with
      | none =>
        rw [decodeAll_of_none h, decodeAny_none h]
        rfl
      | some d =>
        have shorter : rest.length < n := hn ▸ decodeAny_length h
        rw [decodeAll_of_some h, decodeAll_of_some (decodeAny_append more h), ih _ shorter rest rfl]
        rcases decodeAll max rest with ⟨ds, _ | e, left⟩ <;> rfl

/-- A buffer that asks for more is used up as far as it goes. -/
theorem decodeAll_left {ds : List Decoded} {rest : Bytes} (h : decodeAll max buf = (ds, none, rest)) :
    decodeAll max rest = ([], none, rest) := by
  induction hn : buf.length using Nat.strongRecOn generalizing buf ds with
  | ind n ih =>
    rcases hd : decodeAny max buf with ⟨result, rest'⟩
    cases result with
    | error e =>
      rw [decodeAll_of_error hd] at h
      cases h
    | ok cut =>
      cases cut with
      | none =>
        rw [decodeAll_of_none hd] at h
        cases h
        have same := decodeAny_none hd
        subst same
        exact decodeAll_of_none hd
      | some d =>
        have shorter : rest'.length < n := hn ▸ decodeAny_length hd
        rw [decodeAll_of_some hd] at h
        obtain ⟨-, h⟩ := Prod.mk.inj h
        have later : decodeAll max rest' = ((decodeAll max rest').1, none, rest) := Prod.ext rfl h
        exact ih _ shorter later rfl

/-- The results of filling a buffer read by read are those of the whole stream at once, and
    so is the buffer left, where there is no error. -/
theorem decodeReads_eq (max : Nat) (buf : Bytes) (reads : List Bytes)
    (hbuf : decodeAll max buf = ([], none, buf)) :
    (decodeReads max buf reads).1 = (decodeAll max (buf ++ reads.flatten)).1 ∧
      (decodeReads max buf reads).2.1 = (decodeAll max (buf ++ reads.flatten)).2.1 ∧
      ((decodeReads max buf reads).2.1 = none →
        (decodeReads max buf reads).2.2 = (decodeAll max (buf ++ reads.flatten)).2.2) := by
  induction reads generalizing buf with
  | nil =>
    rw [List.flatten_nil, List.append_nil, hbuf]
    exact ⟨rfl, rfl, fun _ => rfl⟩
  | cons read reads ih =>
    rw [List.flatten_cons, ← List.append_assoc, decodeAll_append max (buf ++ read)]
    rcases h : decodeAll max (buf ++ read) with ⟨ds, _ | e, rest⟩
    · obtain ⟨hds, herr, hleft⟩ := ih rest (decodeAll_left h)
      simp only [decodeReads, h]
      exact ⟨by rw [hds], herr, hleft⟩
    · simp [decodeReads, h]

end Reads

/-- The decoder does not see how the octets arrived: for every splitting of a stream into
    reads, it returns what it returns for the stream at once, up to the first error. A call
    that asks for more leaves the buffer alone, and one that returns a frame takes exactly
    the frame's header and the octets it announces. -/
theorem reads_agree (max : Nat) :
    (∀ reads : List Bytes,
      (decodeReads max [] reads).1 = (decodeAll max reads.flatten).1 ∧
        (decodeReads max [] reads).2.1 = (decodeAll max reads.flatten).2.1) ∧
      (∀ buf rest, decodeAny max buf = (.ok none, rest) → rest = buf) ∧
      ∀ buf rest d, decodeAny max buf = (.ok (some d), rest) →
        frameHeaderLen ≤ frameLen buf ∧ frameLen buf ≤ buf.length ∧
          rest = buf.drop (frameLen buf) := by
  have empty : decodeAll max [] = ([], none, []) := decodeAll_of_none rfl
  refine ⟨fun reads => ?_, fun buf rest h => decodeAny_none h, fun buf rest d h => ?_⟩
  · obtain ⟨hds, herr, -⟩ := decodeReads_eq max [] reads empty
    exact ⟨hds, herr⟩
  · obtain ⟨w, hs, -⟩ := decodeAny_some.mp h
    obtain ⟨hlen, hle, hrest, -⟩ := splitFrame_some hs
    exact ⟨by omega, hle, hrest⟩

end FrameCodec

/-! ## Round trip -/

namespace Flags

theorem setIf_endStream (b : Bool) :
    (setIf 0 b .endStream).has .padded = false ∧ (setIf 0 b .endStream).has .endStream = b := by
  cases b <;> decide

theorem setIf_ack (b : Bool) : (setIf 0 b .ack).has .ack = b := by
  cases b <;> decide

theorem setIf_endHeaders (b : Bool) : (setIf 0 b .endHeaders).has .endHeaders = b := by
  cases b <;> decide

theorem setIf_headers (s h : Bool) :
    (setIf (setIf 0 s .endStream) h .endHeaders).has .padded = false ∧
      (setIf (setIf 0 s .endStream) h .endHeaders).has .priority = false ∧
      (setIf (setIf 0 s .endStream) h .endHeaders).has .endStream = s ∧
      (setIf (setIf 0 s .endStream) h .endHeaders).has .endHeaders = h := by
  cases s <;> cases h <;> decide

end Flags

namespace Frame

/-- The fields are in the ranges the format gives them. -/
def InRange : Frame → Prop
  | data id .. | headers id .. | rstStream id _ | continuation id .. => ¬ id.isConnection
  | settings ack params => ack → params = []
  | windowUpdate _ increment => increment < 2 ^ 31
  | ping .. | goAway .. => True

instance : DecidablePred InRange := fun f => by
  cases f <;> unfold InRange <;> infer_instance

theorem settingsParams_cons (id : UInt16) (value : UInt32) (rest : Bytes) :
    settingsParams (put16 id.toNat ++ put32 value.toNat ++ rest) =
      (id, value) :: settingsParams rest := by
  have hid : id.toNat % 2 ^ 16 = id.toNat := Nat.mod_eq_of_lt id.toNat_lt
  have hvalue : value.toNat % 2 ^ 32 = value.toNat := Nat.mod_eq_of_lt value.toNat_lt
  simp only [put16, put32, List.cons_append, List.nil_append, settingsParams, be16_ofNat,
    be32_ofNat, hid, hvalue, UInt16.ofNat_toNat, UInt32.ofNat_toNat]

theorem settingsParams_flatMap (params : List (UInt16 × UInt32)) :
    settingsParams (params.flatMap fun p => put16 p.1.toNat ++ put32 p.2.toNat) = params := by
  induction params with
  | nil => rfl
  | cons p params ih => rw [List.flatMap_cons, settingsParams_cons, ih]

theorem readErrorCode_put32 (kind : FrameType) (c : ErrorCode) :
    readErrorCode kind (put32 c.asU32) = .ok c := by
  simp only [put32, put16, List.cons_append, List.nil_append, readErrorCode, be32_ofNat]
  rw [Nat.mod_eq_of_lt c.asU32_lt, ErrorCode.fromU32_asU32]

/-- The parser reads back what the encoder writes. -/
theorem fromParts_payload {f : Frame} (h : f.InRange) :
    fromParts ⟨f.payloadLen, f.kind, f.flags, f.streamId⟩ f.payload = .ok (.frame f) := by
  cases f with
  | data id octets endStream =>
    have hid : id.isConnection = false := by simpa [InRange] using h
    obtain ⟨hp, he⟩ := Flags.setIf_endStream endStream
    simp [fromParts, kind, dataFromParts, streamId, hid, payload, stripPadding, flags, hp, he, bind,
      Except.bind, Except.map]
  | headers id block endStream endHeaders =>
    have hid : id.isConnection = false := by simpa [InRange] using h
    obtain ⟨hp, hprio, hs, hh⟩ := Flags.setIf_headers endStream endHeaders
    simp [fromParts, kind, headersFromParts, streamId, hid, payload, stripPadding, flags, hp, hprio,
      hs, hh, bind, Except.bind, Except.map]
  | settings ack params =>
    cases ack with
    | true =>
      have hparams : params = [] := h rfl
      subst hparams
      simp [fromParts, kind, settingsFromParts, streamId, StreamId.isConnection, StreamId.connection,
        flags, Flags.setIf_ack, payload, Except.map]
    | false =>
      have hlen : (payload (.settings false params)).length % 6 = 0 := by
        rw [length_payload]
        exact Nat.mul_mod_left _ _
      have hread : settingsParams (payload (.settings false params)) = params :=
        settingsParams_flatMap params
      simp [fromParts, kind, settingsFromParts, streamId, StreamId.isConnection, StreamId.connection,
        flags, Flags.setIf_ack, hlen, hread, Except.map]
  | windowUpdate id increment =>
    have hlt : increment < 2 ^ 31 := h
    have hread : be32 (UInt8.ofNat (increment % 2 ^ 31 / 2 ^ 16 / 2 ^ 8))
        (UInt8.ofNat (increment % 2 ^ 31 / 2 ^ 16)) (UInt8.ofNat (increment % 2 ^ 31 / 2 ^ 8))
        (UInt8.ofNat (increment % 2 ^ 31)) % 2 ^ 31 = increment := by
      rw [be32_ofNat]
      omega
    simp only [fromParts, kind, payload, put32, put16, List.cons_append, List.nil_append,
      windowUpdateFromParts, hread, streamId]
    rfl
  | rstStream id code =>
    have hid : id.isConnection = false := by simpa [InRange] using h
    simp [fromParts, kind, rstStreamFromParts, streamId, hid, payload, readErrorCode_put32, bind,
      Except.bind, Except.map]
  | ping octets ack =>
    simp [fromParts, kind, pingFromParts, streamId, StreamId.isConnection, StreamId.connection,
      payload, octets.2, flags, Flags.setIf_ack, Except.map]
  | goAway last code debugData =>
    have hlast : StreamId.new (be32 (UInt8.ofNat (last.get / 2 ^ 16 / 2 ^ 8))
        (UInt8.ofNat (last.get / 2 ^ 16)) (UInt8.ofNat (last.get / 2 ^ 8))
        (UInt8.ofNat last.get)) = last := by
      rw [be32_ofNat]
      exact last.new_get
    have hcode := readErrorCode_put32 .goAway code
    simp only [put32, put16, List.cons_append, List.nil_append] at hcode
    simp only [fromParts, kind, goAwayFromParts, streamId, payload, put32, put16, List.cons_append,
      List.nil_append, hlast, hcode, bind, Except.bind, Except.map]
    rfl
  | continuation id block endHeaders =>
    have hid : id.isConnection = false := by simpa [InRange] using h
    simp [fromParts, kind, continuationFromParts, streamId, hid, payload, flags,
      Flags.setIf_endHeaders, Except.map]

theorem stripPadding_le {kind : FrameType} {flags : Flags} {body out : Bytes}
    (h : stripPadding kind flags body = .ok out) : out.length ≤ body.length := by
  obtain ⟨plain, padded⟩ := stripPadding_length h
  cases hp : flags.has .padded with
  | false => exact Nat.le_of_eq (by rw [plain hp])
  | true => exact Nat.le_of_lt (padded hp)

theorem length_settingsParams (body : Bytes) : (settingsParams body).length * 6 ≤ body.length := by
  induction body using settingsParams.induct with
  | case1 a b c d e f rest ih =>
    simp only [settingsParams, List.length_cons]
    omega
  | case2 body hnot =>
    unfold settingsParams
    split
    · rename_i a b c d e f rest
      exact absurd rfl (hnot a b c d e f rest)
    · exact Nat.zero_le _

/-- What a parser of the codec accepts is in range, and takes no more octets than it was
    read from. -/
def Accepts (body : Bytes) (r : Except FrameError Frame) : Prop :=
  ∀ f, r = .ok f → f.InRange ∧ f.payloadLen ≤ body.length

section Accepts

variable (header : FrameHeader) (body : Bytes)

theorem dataFromParts_accepts : Accepts body (dataFromParts header body) := by
  intro f h
  unfold dataFromParts at h
  split at h
  · cases h
  · rename_i hid
    cases hs : stripPadding .data header.flags body with
    | error e => rw [hs] at h; cases h
    | ok out =>
      rw [hs] at h
      cases h
      exact ⟨hid, stripPadding_le hs⟩

theorem headersFromParts_accepts : Accepts body (headersFromParts header body) := by
  intro f h
  unfold headersFromParts at h
  split at h
  · cases h
  · rename_i hid
    cases hs : stripPadding .headers header.flags body with
    | error e => rw [hs] at h; cases h
    | ok out =>
      have hle := stripPadding_le hs
      rw [hs] at h
      simp only [bind, Except.bind] at h
      split at h
      · split at h
        · cases h
        split at h
        · cases h
        · cases h
          refine ⟨hid, ?_⟩
          simp only [payloadLen, List.length_drop]
          omega
      · cases h
        exact ⟨hid, hle⟩

theorem settingsFromParts_accepts : Accepts body (settingsFromParts header body) := by
  intro f h
  unfold settingsFromParts at h
  split at h
  · cases h
  split at h
  · split at h
    · cases h
    · cases h
      exact ⟨fun _ => rfl, Nat.zero_le _⟩
  split at h
  · cases h
  · cases h
    exact ⟨nofun, length_settingsParams body⟩

theorem rstStreamFromParts_accepts : Accepts body (rstStreamFromParts header body) := by
  intro f h
  unfold rstStreamFromParts at h
  split at h
  · cases h
  · rename_i hid
    unfold readErrorCode at h
    split at h
    · cases h
      exact ⟨hid, Nat.le_refl _⟩
    · cases h

theorem pingFromParts_accepts : Accepts body (pingFromParts header body) := by
  intro f h
  unfold pingFromParts at h
  split at h
  · cases h
  split at h
  · rename_i hlen
    cases h
    exact ⟨trivial, Nat.le_of_eq hlen.symm⟩
  · cases h

theorem goAwayFromParts_accepts : Accepts body (goAwayFromParts header body) := by
  intro f h
  unfold goAwayFromParts at h
  split at h
  · cases h
  split at h
  · cases h
    refine ⟨trivial, ?_⟩
    simp only [payloadLen, List.length_cons]
    omega
  · cases h

theorem windowUpdateFromParts_accepts : Accepts body (windowUpdateFromParts header body) := by
  intro f h
  unfold windowUpdateFromParts at h
  split at h
  · cases h
    exact ⟨Nat.mod_lt _ (by decide), Nat.le_refl _⟩
  · cases h

theorem continuationFromParts_accepts : Accepts body (continuationFromParts header body) := by
  intro f h
  unfold continuationFromParts at h
  split at h
  · cases h
  · rename_i hid
    cases h
    exact ⟨hid, Nat.le_refl _⟩

end Accepts

theorem fromParts_accepts {header : FrameHeader} {body : Bytes} {f : Frame}
    (h : fromParts header body = .ok (.frame f)) : f.InRange ∧ f.payloadLen ≤ body.length := by
  unfold fromParts at h
  have lift : ∀ {r : Except FrameError Frame}, Accepts body r → r.map Decoded.frame = .ok (.frame f) →
      f.InRange ∧ f.payloadLen ≤ body.length := by
    intro r hr hmap
    obtain ⟨g, hg, heq⟩ := map_ok hmap
    cases heq
    exact hr f hg
  split at h
  · exact lift (dataFromParts_accepts header body) h
  · exact lift (headersFromParts_accepts header body) h
  · exact lift (rstStreamFromParts_accepts header body) h
  · exact lift (settingsFromParts_accepts header body) h
  · exact lift (pingFromParts_accepts header body) h
  · exact lift (goAwayFromParts_accepts header body) h
  · exact lift (windowUpdateFromParts_accepts header body) h
  · exact lift (continuationFromParts_accepts header body) h
  · -- What is not modelled is discarded, never a frame.
    split at h
    · cases h
    split at h
    · unfold validatePriority at h
      split at h
      · cases h
      split at h
      · cases h
      split at h
      · cases h
      · cases h
    · cases h

end Frame

theorem FrameType.fromU8_kind (f : Frame) : FrameType.fromU8 f.kind.asU8 = f.kind := by
  cases f <;> rfl

/-- A header is parsed back from the octets it is written in. -/
theorem FrameHeader.parse_write (f : Frame) (h : f.payloadLen < 2 ^ 24) (rest : Bytes) :
    ∃ b0 b1 b2 b3 b4 b5 b6 b7 b8,
      FrameHeader.write ⟨f.payloadLen, f.kind, f.flags, f.streamId⟩ ++ rest =
        b0 :: b1 :: b2 :: b3 :: b4 :: b5 :: b6 :: b7 :: b8 :: rest ∧
      FrameHeader.parse b0 b1 b2 b3 b4 b5 b6 b7 b8 = ⟨f.payloadLen, f.kind, f.flags, f.streamId⟩ := by
  refine ⟨_, _, _, _, _, _, _, _, _, rfl, ?_⟩
  unfold FrameHeader.parse
  rw [be24_ofNat, be32_ofNat, FrameType.fromU8_kind, f.streamId.new_get, Nat.mod_eq_of_lt h]

namespace FrameCodec

/-- A frame that encodes is the next one the decoder returns, whatever follows it. -/
theorem decodeAny_write {max : Nat} {f : Frame} {bytes : Bytes} (hf : f.InRange)
    (hlen : f.payloadLen ≤ max) (h : f.write = .ok bytes) (rest : Bytes) :
    decodeAny max (bytes ++ rest) = (.ok (some (.frame f)), rest) := by
  unfold Frame.write at h
  split at h
  · cases h
  · rename_i hmax
    cases h
    have hlt : f.payloadLen < 2 ^ 24 := by
      unfold maxAllowedFrameSize at hmax
      omega
    obtain ⟨b0, b1, b2, b3, b4, b5, b6, b7, b8, hbytes, hparse⟩ :=
      FrameHeader.parse_write f hlt (f.payload ++ rest)
    have hmax' : ¬ (FrameHeader.parse b0 b1 b2 b3 b4 b5 b6 b7 b8).length > max := by
      rw [hparse]
      exact Nat.not_lt.mpr hlen
    have hwhole : ¬ (f.payload ++ rest).length <
        (FrameHeader.parse b0 b1 b2 b3 b4 b5 b6 b7 b8).length := by
      rw [hparse, List.length_append, f.length_payload]
      show ¬ f.payloadLen + rest.length < f.payloadLen
      omega
    have hplen : f.payload.length = (FrameHeader.parse b0 b1 b2 b3 b4 b5 b6 b7 b8).length := by
      rw [hparse]
      exact f.length_payload
    have htake : (f.payload ++ rest).take (FrameHeader.parse b0 b1 b2 b3 b4 b5 b6 b7 b8).length =
        f.payload := by rw [← hplen, List.take_left]
    have hdrop : (f.payload ++ rest).drop (FrameHeader.parse b0 b1 b2 b3 b4 b5 b6 b7 b8).length =
        rest := by rw [← hplen, List.drop_left]
    rw [List.append_assoc, hbytes]
    refine decodeAny_some.mpr ⟨⟨FrameHeader.parse b0 b1 b2 b3 b4 b5 b6 b7 b8, f.payload, hplen,
      FrameHeader.parse_length_lt ..⟩, ?_, ?_⟩
    · simp only [splitFrame, if_neg hmax', dif_neg hwhole, htake, hdrop]
    · show Frame.fromParts (FrameHeader.parse b0 b1 b2 b3 b4 b5 b6 b7 b8) f.payload = _
      rw [hparse]
      exact Frame.fromParts_payload hf

/-- A frame the decoder returns can be written again. -/
theorem decodeAny_inRange {max : Nat} {buf rest : Bytes} {f : Frame}
    (h : decodeAny max buf = (.ok (some (.frame f)), rest)) :
    f.InRange ∧ f.payloadLen ≤ max ∧ ∃ bytes, f.write = .ok bytes := by
  obtain ⟨w, hs, hw⟩ := decodeAny_some.mp h
  obtain ⟨-, -, -, hmax⟩ := splitFrame_some hs
  obtain ⟨hrange, hle⟩ := Frame.fromParts_accepts hw
  rw [w.length_eq] at hle
  have hlt := w.length_lt
  obtain ⟨bytes, hbytes, -⟩ := Frame.write_of_le (f := f) (by unfold maxAllowedFrameSize; omega)
  exact ⟨hrange, by omega, bytes, hbytes⟩

section Decode

variable {max : Nat} {buf rest : Bytes} {f : Frame}

theorem decode_of_frame (h : decodeAny max buf = (.ok (some (.frame f)), rest)) :
    decode max buf = (.ok (some f), rest) := by
  rw [decode]
  split <;> rename_i h' <;> rw [h] at h' <;> cases h'
  rfl

/-- A frame that `decode` returns came of one call of `decode_any`. -/
theorem decode_some (h : decode max buf = (.ok (some f), rest)) :
    ∃ buf', decodeAny max buf' = (.ok (some (.frame f)), rest) := by
  induction hn : buf.length using Nat.strongRecOn generalizing buf with
  | ind n ih =>
    rw [decode] at h
    split at h
    · cases h
    · cases h
    · rename_i hd
      cases h
      exact ⟨buf, hd⟩
    · rename_i hd
      exact ih _ (hn ▸ decodeAny_length hd) h rfl

end Decode

/-- Encoding appends the octets of the frames, one after another. -/
theorem encodeAll_ok {fs : List Frame} {out bytes : Bytes} (h : encodeAll fs out = (.ok (), bytes)) :
    ∃ parts : List Bytes, fs.map Frame.write = parts.map .ok ∧ bytes = out ++ parts.flatten := by
  induction fs generalizing out with
  | nil =>
    cases h
    exact ⟨[], rfl, (List.append_nil _).symm⟩
  | cons f fs ih =>
    unfold encodeAll at h
    rw [encode_eq] at h
    cases hw : f.write with
    | error e => rw [hw] at h; cases h
    | ok octets =>
      rw [hw] at h
      obtain ⟨parts, hparts, hbytes⟩ := ih h
      refine ⟨octets :: parts, ?_, ?_⟩
      · rw [List.map_cons, List.map_cons, hw, hparts]
      · rw [hbytes, List.flatten_cons, List.append_assoc]

/-- Frames written one after another are decoded one after another, to the last octet. -/
theorem decodeAll_parts {max : Nat} {fs : List Frame} {parts : List Bytes}
    (hf : ∀ f ∈ fs, f.InRange ∧ f.payloadLen ≤ max) (h : fs.map Frame.write = parts.map .ok) :
    decodeAll max parts.flatten = (fs.map .frame, none, []) := by
  induction fs generalizing parts with
  | nil =>
    have hparts : parts = [] := by simpa using h.symm
    subst hparts
    exact decodeAll_of_none rfl
  | cons f fs ih =>
    cases parts with
    | nil => cases h
    | cons octets parts =>
      simp only [List.map_cons, List.cons.injEq] at h
      obtain ⟨hw, hrest⟩ := h
      obtain ⟨hrange, hlen⟩ := hf f List.mem_cons_self
      have hfs := ih (fun g hg => hf g (List.mem_cons_of_mem _ hg)) hrest
      rw [List.flatten_cons, decodeAll_of_some (decodeAny_write hrange hlen hw parts.flatten), hfs]
      rfl

/-- What the encoder writes, the decoder reads, frame by frame and to the last octet; what
    the decoder returns, the encoder can write, and it is read back the same; and an encoder
    that fails writes nothing. -/
theorem round_trip (max : Nat) :
    (∀ fs bytes, (∀ f ∈ fs, f.InRange ∧ f.payloadLen ≤ max) → encodeAll fs [] = (.ok (), bytes) →
      decodeAll max bytes = (fs.map .frame, none, [])) ∧
      (∀ buf rest f, decode max buf = (.ok (some f), rest) →
        ∃ bytes, encode f [] = (.ok (), bytes) ∧ decode max bytes = (.ok (some f), [])) ∧
      ∀ f out e out', encode f out = (.error e, out') → out' = out := by
  refine ⟨fun fs bytes hf h => ?_, fun buf rest f h => ?_, fun f out e out' h => ?_⟩
  · obtain ⟨parts, hparts, hbytes⟩ := encodeAll_ok h
    rw [hbytes, List.nil_append]
    exact decodeAll_parts hf hparts
  · obtain ⟨buf', hd⟩ := decode_some h
    obtain ⟨hrange, hlen, bytes, hw⟩ := decodeAny_inRange hd
    refine ⟨bytes, ?_, ?_⟩
    · rw [encode_eq, hw]
      rfl
    · have := decodeAny_write hrange hlen hw []
      rw [List.append_nil] at this
      exact decode_of_frame this
  · rw [encode_eq] at h
    cases hw : f.write with
    | error e' =>
      rw [hw] at h
      cases h
      rfl
    | ok bytes => rw [hw] at h; cases h

/-- A SETTINGS ACK and a RST_STREAM, written behind one another and read back. -/
theorem round_trip_two :
    ∃ bytes, encodeAll [.settings true [], .rstStream ⟨5, by decide⟩ .cancel] [] = (.ok (), bytes) ∧
      decodeAll 16384 bytes =
        ([.frame (.settings true []), .frame (.rstStream ⟨5, by decide⟩ .cancel)], none, []) :=
  ⟨_, rfl, (round_trip 16384).1 [.settings true [], .rstStream ⟨5, by decide⟩ .cancel] _ (by decide) rfl⟩

end FrameCodec

end H2Proxy
