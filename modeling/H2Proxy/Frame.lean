import H2Proxy.Basic

/-
  The framing layer (`core/src/frame.rs`): wire octets to typed frames and back.

  A `WireFrame` is one whole frame as it is cut off the read buffer: its header and its
  payload, before padding and priority fields are stripped. `fromParts` interprets it;
  `decodeAny` is the cut followed by the interpretation.
-/

namespace H2Proxy

def frameHeaderLen : Nat := 9
def maxAllowedFrameSize : Nat := 2 ^ 24 - 1
def defaultMaxFrameSize : Nat := 16384
def priorityFieldLen : Nat := 5
def pushPromiseType : UInt8 := 0x5
def priorityType : UInt8 := 0x2

/-! ## Big-endian integers -/

def be16 (a b : UInt8) : Nat := a.toNat * 2 ^ 8 + b.toNat
def be32 (a b c d : UInt8) : Nat := be16 a b * 2 ^ 16 + be16 c d

def put16 (n : Nat) : Bytes := [UInt8.ofNat (n / 2 ^ 8), UInt8.ofNat n]
def put24 (n : Nat) : Bytes := UInt8.ofNat (n / 2 ^ 16) :: put16 n
def put32 (n : Nat) : Bytes := put16 (n / 2 ^ 16) ++ put16 n

/-! ## Types, flags and headers -/

inductive FrameType
  | data | headers | rstStream | settings | ping | goAway | windowUpdate | continuation
  | unknown (code : UInt8)
deriving DecidableEq

namespace FrameType

def fromU8 (v : UInt8) : FrameType :=
  if v = 0x0 then data
  else if v = 0x1 then headers
  else if v = 0x3 then rstStream
  else if v = 0x4 then settings
  else if v = 0x6 then ping
  else if v = 0x7 then goAway
  else if v = 0x8 then windowUpdate
  else if v = 0x9 then continuation
  else unknown v

def asU8 : FrameType → UInt8
  | data => 0x0
  | headers => 0x1
  | rstStream => 0x3
  | settings => 0x4
  | ping => 0x6
  | goAway => 0x7
  | windowUpdate => 0x8
  | continuation => 0x9
  | unknown code => code

/-- The derived `Debug` text. -/
def debug : FrameType → String
  | data => "Data"
  | headers => "Headers"
  | rstStream => "RstStream"
  | settings => "Settings"
  | ping => "Ping"
  | goAway => "GoAway"
  | windowUpdate => "WindowUpdate"
  | continuation => "Continuation"
  | unknown code => s!"Unknown({code.toNat})"

end FrameType

/-- The frame flags byte. -/
abbrev Flags := UInt8

namespace Flags

def endStream : Flags := 0x1
def ack : Flags := 0x1
def endHeaders : Flags := 0x4
def padded : Flags := 0x8
def priority : Flags := 0x20

/-- Every bit set in `other` is also set in `f`. -/
def has (f other : Flags) : Bool := f &&& other == other

def setIf (f : Flags) (cond : Bool) (other : Flags) : Flags := if cond then f ||| other else f

end Flags

/-- The parsed 9-octet frame header. -/
structure FrameHeader where
  length : Nat
  kind : FrameType
  flags : Flags
  streamId : StreamId
deriving DecidableEq

/-- Parse a header from its nine octets. -/
def FrameHeader.parse (b0 b1 b2 b3 b4 b5 b6 b7 b8 : UInt8) : FrameHeader :=
  ⟨be32 0 b0 b1 b2, .fromU8 b3, b4, .new (be32 b5 b6 b7 b8)⟩

def FrameHeader.write (h : FrameHeader) : Bytes :=
  put24 h.length ++ [h.kind.asU8, h.flags] ++ put32 h.streamId.get

/-- The eight opaque octets of a PING. -/
abbrev PingData := { bytes : Bytes // bytes.length = 8 }

/-- A typed HTTP/2 frame. -/
inductive Frame
  | data (streamId : StreamId) (data : Bytes) (endStream : Bool)
  | headers (streamId : StreamId) (block : Bytes) (endStream endHeaders : Bool)
  | settings (ack : Bool) (params : List (UInt16 × UInt32))
  | windowUpdate (streamId : StreamId) (increment : Nat)
  | rstStream (streamId : StreamId) (errorCode : ErrorCode)
  | ping (data : PingData) (ack : Bool)
  | goAway (lastStreamId : StreamId) (errorCode : ErrorCode) (debugData : Bytes)
  | continuation (streamId : StreamId) (block : Bytes) (endHeaders : Bool)
deriving DecidableEq

namespace Frame

def kind : Frame → FrameType
  | data .. => .data
  | headers .. => .headers
  | settings .. => .settings
  | windowUpdate .. => .windowUpdate
  | rstStream .. => .rstStream
  | ping .. => .ping
  | goAway .. => .goAway
  | continuation .. => .continuation

/-- The stream this frame is addressed to. -/
def streamId : Frame → StreamId
  | data id .. | headers id .. | windowUpdate id .. | rstStream id .. | continuation id .. => id
  | settings .. | ping .. | goAway .. => .connection

end Frame

/-! ## Errors -/

inductive FrameError
  | oversized (len max : Nat)
  | badLength (kind : FrameType) (len : Nat)
  | badStreamId (kind : FrameType)
  | paddingOverflow (kind : FrameType)
  | unexpectedPushPromise
  | selfDependency (kind : FrameType)
deriving DecidableEq

namespace FrameError

/-- The connection error code a framing violation is reported with. -/
def code : FrameError → ErrorCode
  | oversized .. | badLength .. => .frameSizeError
  | badStreamId _ | paddingOverflow _ | unexpectedPushPromise | selfDependency _ => .protocolError

def text : FrameError → String
  | oversized len max => s!"frame length {len} exceeds SETTINGS_MAX_FRAME_SIZE {max}"
  | badLength kind len => s!"{kind.debug} frame has an invalid length ({len})"
  | badStreamId kind => s!"{kind.debug} frame arrived on an invalid stream"
  | paddingOverflow kind => s!"{kind.debug} frame padding is at least as long as its payload"
  | unexpectedPushPromise =>
    "received PUSH_PROMISE, but this endpoint advertises ENABLE_PUSH = 0"
  | selfDependency kind => s!"{kind.debug} frame declares itself as its own dependency"

end FrameError

/-! ## Decoding -/

/-- One decoding step's result: a frame, or one that is consumed but not modelled. -/
inductive Decoded
  | frame (frame : Frame)
  | ignored (kind : FrameType) (streamId : StreamId)
deriving DecidableEq

/-- One whole frame off the wire, padding and priority fields included. -/
structure WireFrame where
  header : FrameHeader
  payload : Bytes
  length_eq : payload.length = header.length
  length_lt : header.length < 2 ^ 24
deriving DecidableEq

def WireFrame.ofParts (kind : FrameType) (flags : Flags) (id : StreamId) (payload : Bytes)
    (h : payload.length < 2 ^ 24) : WireFrame :=
  ⟨⟨payload.length, kind, flags, id⟩, payload, rfl, h⟩

namespace Frame

/-- The stream dependency out of a priority field. -/
def dependsOn : Bytes → StreamId
  | a :: b :: c :: d :: _ => .new (be32 a b c d)
  | _ => .connection

def validatePriority (header : FrameHeader) (payload : Bytes) : Except FrameError Decoded :=
  if header.streamId.isConnection then
    .error (.badStreamId (.unknown priorityType))
  else if payload.length ≠ priorityFieldLen then
    .error (.badLength (.unknown priorityType) payload.length)
  else if dependsOn payload = header.streamId then
    .error (.selfDependency (.unknown priorityType))
  else
    .ok (.ignored (.unknown priorityType) header.streamId)

/-- Validate and strip the optional padding shared by DATA and HEADERS. -/
def stripPadding (kind : FrameType) (flags : Flags) (payload : Bytes) : Except FrameError Bytes :=
  if !flags.has .padded then
    .ok payload
  else match payload with
    | [] => .error (.badLength kind 0)
    | pad :: rest =>
      if pad.toNat ≥ payload.length then .error (.paddingOverflow kind)
      else .ok (rest.take (rest.length - pad.toNat))

def dataFromParts (header : FrameHeader) (payload : Bytes) : Except FrameError Frame :=
  if header.streamId.isConnection then
    .error (.badStreamId .data)
  else do
    let octets ← stripPadding .data header.flags payload
    .ok (.data header.streamId octets (header.flags.has .endStream))

def headersFromParts (header : FrameHeader) (payload : Bytes) : Except FrameError Frame :=
  if header.streamId.isConnection then
    .error (.badStreamId .headers)
  else do
    let block ← stripPadding .headers header.flags payload
    let block ←
      if header.flags.has .priority then
        if block.length < priorityFieldLen then .error (.badLength .headers block.length)
        else if dependsOn block = header.streamId then .error (.selfDependency .headers)
        else .ok (block.drop priorityFieldLen)
      else .ok block
    .ok (.headers header.streamId block (header.flags.has .endStream)
      (header.flags.has .endHeaders))

/-- The id/value pairs of a SETTINGS payload whose length is a multiple of six. -/
def settingsParams : Bytes → List (UInt16 × UInt32)
  | a :: b :: c :: d :: e :: f :: rest =>
    (UInt16.ofNat (be16 a b), UInt32.ofNat (be32 c d e f)) :: settingsParams rest
  | _ => []

def settingsFromParts (header : FrameHeader) (payload : Bytes) : Except FrameError Frame :=
  if !header.streamId.isConnection then
    .error (.badStreamId .settings)
  else if header.flags.has .ack then
    if payload ≠ [] then .error (.badLength .settings payload.length)
    else .ok (.settings true [])
  else if payload.length % 6 ≠ 0 then
    .error (.badLength .settings payload.length)
  else
    .ok (.settings false (settingsParams payload))

/-- Read the 4-octet error code shared by RST_STREAM and GOAWAY. -/
def readErrorCode (kind : FrameType) : Bytes → Except FrameError ErrorCode
  | [a, b, c, d] => .ok (.fromU32 (be32 a b c d))
  | bytes => .error (.badLength kind bytes.length)

def rstStreamFromParts (header : FrameHeader) (payload : Bytes) : Except FrameError Frame :=
  if header.streamId.isConnection then
    .error (.badStreamId .rstStream)
  else do
    let code ← readErrorCode .rstStream payload
    .ok (.rstStream header.streamId code)

def pingFromParts (header : FrameHeader) (payload : Bytes) : Except FrameError Frame :=
  if !header.streamId.isConnection then
    .error (.badStreamId .ping)
  else if h : payload.length = 8 then
    .ok (.ping ⟨payload, h⟩ (header.flags.has .ack))
  else
    .error (.badLength .ping payload.length)

def goAwayFromParts (header : FrameHeader) (payload : Bytes) : Except FrameError Frame :=
  if !header.streamId.isConnection then
    .error (.badStreamId .goAway)
  else match payload with
    | a :: b :: c :: d :: e :: f :: g :: h :: debugData => do
      let code ← readErrorCode .goAway [e, f, g, h]
      .ok (.goAway (.new (be32 a b c d)) code debugData)
    | _ => .error (.badLength .goAway payload.length)

def windowUpdateFromParts (header : FrameHeader) : Bytes → Except FrameError Frame
  | [a, b, c, d] => .ok (.windowUpdate header.streamId (be32 a b c d % 2 ^ 31))
  | payload => .error (.badLength .windowUpdate payload.length)

def continuationFromParts (header : FrameHeader) (payload : Bytes) : Except FrameError Frame :=
  if header.streamId.isConnection then
    .error (.badStreamId .continuation)
  else
    .ok (.continuation header.streamId payload (header.flags.has .endHeaders))

/-- Interpret a header and an opaque payload as a typed frame. -/
def fromParts (header : FrameHeader) (payload : Bytes) : Except FrameError Decoded :=
  match header.kind with
  | .data => (dataFromParts header payload).map .frame
  | .headers => (headersFromParts header payload).map .frame
  | .rstStream => (rstStreamFromParts header payload).map .frame
  | .settings => (settingsFromParts header payload).map .frame
  | .ping => (pingFromParts header payload).map .frame
  | .goAway => (goAwayFromParts header payload).map .frame
  | .windowUpdate => (windowUpdateFromParts header payload).map .frame
  | .continuation => (continuationFromParts header payload).map .frame
  | .unknown code =>
    if code = pushPromiseType then .error .unexpectedPushPromise
    else if code = priorityType then validatePriority header payload
    else .ok (.ignored (.unknown code) header.streamId)

end Frame

def WireFrame.decode (w : WireFrame) : Except FrameError Decoded :=
  Frame.fromParts w.header w.payload

/-- The DATA frame a wire frame decodes to, if it does. -/
def WireFrame.data? (w : WireFrame) : Option (StreamId × Bytes × Bool) :=
  match w.decode with
  | .ok (.frame (.data id octets endStream)) => some (id, octets, endStream)
  | _ => none

namespace WireFrame

/-- The octets of body a DATA frame carries on the streams of `p`: padding is not among them. -/
def octets (p : StreamId → Bool) (w : WireFrame) : Nat :=
  match w.data? with
  | some (id, octets, _) => if p id then octets.length else 0
  | none => 0

/-- The octets a DATA frame costs the streams of `p`: its whole payload. -/
def cost (p : StreamId → Bool) (w : WireFrame) : Nat :=
  match w.data? with
  | some (id, _, _) => if p id then w.header.length else 0
  | none => 0

/-- A DATA frame with the PADDED flag. -/
def isPaddedData (w : WireFrame) : Bool := w.data?.isSome && w.header.flags.has .padded

end WireFrame

theorem FrameHeader.parse_length_lt (b0 b1 b2 b3 b4 b5 b6 b7 b8 : UInt8) :
    (FrameHeader.parse b0 b1 b2 b3 b4 b5 b6 b7 b8).length < 2 ^ 24 := by
  have h0 := b0.toNat_lt
  have h1 := b1.toNat_lt
  have h2 := b2.toNat_lt
  simp only [parse, be32, be16, UInt8.toNat_zero]
  omega

/-- Cut one whole frame off the front of `buf`; `none` while it holds only part of one. -/
def splitFrame (maxFrameSize : Nat) (buf : Bytes) :
    Except FrameError (Option (WireFrame × Bytes)) :=
  match buf with
  | b0 :: b1 :: b2 :: b3 :: b4 :: b5 :: b6 :: b7 :: b8 :: rest =>
    let header := FrameHeader.parse b0 b1 b2 b3 b4 b5 b6 b7 b8
    if header.length > maxFrameSize then
      .error (.oversized header.length maxFrameSize)
    else if h : rest.length < header.length then
      .ok none
    else
      .ok (some (⟨header, rest.take header.length, by
        rw [List.length_take]; omega, FrameHeader.parse_length_lt ..⟩, rest.drop header.length))
  | _ => .ok none

/-- Decode one frame off the front of `buf`; the buffer that is left. -/
def decodeAny (maxFrameSize : Nat) (buf : Bytes) : Except FrameError (Option Decoded) × Bytes :=
  match splitFrame maxFrameSize buf with
  | .error e => (.error e, buf)
  | .ok none => (.ok none, buf)
  | .ok (some (w, rest)) => (w.decode.map some, rest)

/-! ## Encoding -/

namespace Frame

/-- The octets of the frame's payload, as the encoder writes it. -/
def payload : Frame → Bytes
  | data _ octets _ => octets
  | headers _ block _ _ => block
  | settings _ params => params.flatMap fun p => put16 p.1.toNat ++ put32 p.2.toNat
  | windowUpdate _ increment => put32 (increment % 2 ^ 31)
  | rstStream _ code => put32 code.asU32
  | ping octets _ => octets.1
  | goAway last code debugData => put32 last.get ++ put32 code.asU32 ++ debugData
  | continuation _ block _ => block

def flags : Frame → Flags
  | data _ _ endStream => Flags.setIf 0 endStream .endStream
  | headers _ _ endStream endHeaders =>
    Flags.setIf (Flags.setIf 0 endStream .endStream) endHeaders .endHeaders
  | settings ack _ => Flags.setIf 0 ack .ack
  | ping _ ack => Flags.setIf 0 ack .ack
  | continuation _ _ endHeaders => Flags.setIf 0 endHeaders .endHeaders
  | windowUpdate .. | rstStream .. | goAway .. => 0

/-- The length `write_header` is given for this frame. -/
def payloadLen : Frame → Nat
  | data _ octets _ => octets.length
  | headers _ block _ _ => block.length
  | settings _ params => params.length * 6
  | windowUpdate .. => 4
  | rstStream .. => 4
  | ping .. => 8
  | goAway _ _ debugData => 8 + debugData.length
  | continuation _ block _ => block.length

/-- Serialize the frame, refusing a payload the 24-bit length field cannot express. -/
def write (f : Frame) : Except FrameError Bytes :=
  if f.payloadLen > maxAllowedFrameSize then
    .error (.oversized (min f.payloadLen u32Max) maxAllowedFrameSize)
  else
    .ok (FrameHeader.write ⟨f.payloadLen, f.kind, f.flags, f.streamId⟩ ++ f.payload)

@[simp] theorem length_put16 (n : Nat) : (put16 n).length = 2 := rfl
@[simp] theorem length_put32 (n : Nat) : (put32 n).length = 4 := rfl

theorem length_payload (f : Frame) : f.payload.length = f.payloadLen := by
  cases f with
  | settings _ params =>
    simp only [payload, payloadLen]
    induction params with
    | nil => rfl
    | cons p ps ih => simp only [List.flatMap_cons, List.length_append, ih, length_put16,
        length_put32, List.length_cons]; omega
  | ping octets _ => exact octets.2
  | goAway _ _ debugData =>
    simp only [payload, payloadLen, List.length_append, length_put32]
  | _ => rfl

theorem write_of_le {f : Frame} (h : f.payloadLen ≤ maxAllowedFrameSize) :
    ∃ bytes, f.write = .ok bytes ∧ bytes.length = frameHeaderLen + f.payloadLen := by
  refine ⟨_, by rw [write, if_neg (by omega)], ?_⟩
  rw [List.length_append, length_payload]
  rfl

theorem write_error {f : Frame} {e : FrameError} (h : f.write = .error e) :
    maxAllowedFrameSize < f.payloadLen := by
  by_contra hle
  obtain ⟨_, hb, _⟩ := write_of_le (f := f) (by omega)
  rw [hb] at h
  cases h

theorem write_ok {f : Frame} {bytes : Bytes} (h : f.write = .ok bytes) :
    f.payloadLen ≤ maxAllowedFrameSize := by
  unfold write at h
  split at h
  · cases h
  · omega

/-- Stripping never lengthens: with PADDED set, at least the Pad Length octet goes. -/
theorem stripPadding_length {kind : FrameType} {flags : Flags} {payload out : Bytes}
    (h : stripPadding kind flags payload = .ok out) :
    (flags.has .padded = false → out = payload) ∧
      (flags.has .padded = true → out.length < payload.length) := by
  unfold stripPadding at h
  cases hp : flags.has .padded with
  | false =>
    rw [hp] at h
    exact ⟨fun _ => by simpa using h.symm, by simp⟩
  | true =>
    rw [hp] at h
    refine ⟨by simp, fun _ => ?_⟩
    cases payload with
    | nil => simp at h
    | cons pad rest =>
      simp only [Bool.not_true, Bool.false_eq_true, if_false] at h
      split at h
      · cases h
      · cases h
        simp only [List.length_take, List.length_cons]
        omega

theorem map_ok {α β ε : Type} {x : Except ε α} {f : α → β} {b : β} (h : x.map f = .ok b) :
    ∃ a, x = .ok a ∧ f a = b := by
  cases x with
  | error e => cases h
  | ok a => exact ⟨a, rfl, Except.ok.inj h⟩

/-- DATA comes of nothing but the DATA parser: its octets are the payload, stripped. -/
theorem fromParts_data {header : FrameHeader} {payload : Bytes} {id : StreamId} {octets : Bytes}
    {endStream : Bool} (h : fromParts header payload = .ok (.frame (.data id octets endStream))) :
    stripPadding .data header.flags payload = .ok octets := by
  unfold fromParts at h
  split at h
  · obtain ⟨f, hf, hd⟩ := map_ok h
    cases hd
    unfold dataFromParts at hf
    split at hf
    · cases hf
    · cases hs : stripPadding .data header.flags payload with
      | error e => rw [hs] at hf; cases hf
      | ok out => rw [hs] at hf; cases hf; rfl
  case h_9 =>
    simp only [validatePriority] at h
    grind
  case h_7 =>
    obtain ⟨f, hf, hd⟩ := map_ok h
    cases hd
    unfold windowUpdateFromParts at hf
    grind
  all_goals
    obtain ⟨f, hf, hd⟩ := map_ok h
    cases hd
    simp only [headersFromParts, rstStreamFromParts, settingsFromParts, pingFromParts,
      goAwayFromParts, continuationFromParts, bind, Except.bind] at hf
    grind
end Frame

namespace WireFrame

variable {w : WireFrame} {id : StreamId} {octets : Bytes} {endStream : Bool}

theorem decode_of_data? (h : w.data? = some (id, octets, endStream)) :
    w.decode = .ok (.frame (.data id octets endStream)) := by
  unfold data? at h
  cases hd : w.decode with
  | error e => rw [hd] at h; cases h
  | ok d =>
    rw [hd] at h
    cases d with
    | ignored kind id => cases h
    | frame f =>
      cases f with
      | data id octets endStream =>
        cases h
        rfl
      | _ => cases h

theorem data?_stripped (h : w.data? = some (id, octets, endStream)) :
    Frame.stripPadding .data w.header.flags w.payload = .ok octets :=
  Frame.fromParts_data (decode_of_data? h)

theorem isPaddedData_eq (h : w.data? = some (id, octets, endStream)) :
    w.isPaddedData = w.header.flags.has .padded := by
  simp [isPaddedData, h]

/-- A DATA frame carries its whole payload unless it is padded. -/
theorem octets_le_cost (p : StreamId → Bool) (w : WireFrame) : w.octets p ≤ w.cost p := by
  unfold WireFrame.octets cost
  cases h : w.data? with
  | none => exact Nat.le_refl _
  | some d =>
    obtain ⟨id, octets, endStream⟩ := d
    obtain ⟨hplain, hpadded⟩ := Frame.stripPadding_length (data?_stripped h)
    dsimp only
    split
    · rw [← w.length_eq]
      cases hp : w.header.flags.has .padded with
      | false => exact Nat.le_of_eq (by rw [hplain hp])
      | true => exact Nat.le_of_lt (hpadded hp)
    · exact Nat.le_refl _

theorem octets_eq_cost_iff (w : WireFrame) :
    w.octets (fun _ => true) = w.cost (fun _ => true) ↔ w.isPaddedData = false := by
  unfold WireFrame.octets cost
  cases h : w.data? with
  | none => simp [isPaddedData, h]
  | some d =>
    obtain ⟨id, octets, endStream⟩ := d
    obtain ⟨hplain, hpadded⟩ := Frame.stripPadding_length (data?_stripped h)
    rw [isPaddedData_eq h, ← w.length_eq]
    simp only [if_true]
    cases hp : w.header.flags.has .padded with
    | false => simp [hplain hp]
    | true =>
      have := hpadded hp
      simp only [Bool.true_eq_false, iff_false]
      omega

theorem octets_eq_cost (p : StreamId → Bool) (h : w.isPaddedData = false) :
    w.octets p = w.cost p := by
  unfold WireFrame.octets cost
  cases hd : w.data? with
  | none => rfl
  | some d =>
    obtain ⟨id, octets, endStream⟩ := d
    rw [isPaddedData_eq hd] at h
    dsimp only
    rw [(Frame.stripPadding_length (data?_stripped hd)).1 h, w.length_eq]

end WireFrame

end H2Proxy
