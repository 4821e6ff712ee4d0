import H2Proxy.FrameCodec

/-
  Frames that need a stream.

  DATA, RST_STREAM and WINDOW_UPDATE may not come on an idle stream. What such a frame decodes
  to is on the stream its header names, so which stream that is does not depend on its payload.
-/

namespace H2Proxy

namespace WireFrame

/-- A frame of a kind that no idle stream may carry, on some stream. -/
def needsStream (w : WireFrame) : Bool :=
  !w.header.streamId.isConnection &&
    (w.header.kind = .data || w.header.kind = .rstStream || w.header.kind = .windowUpdate)

/-- What a frame that needs a stream decodes to. -/
inductive Needy (id : StreamId) : Decoded → Prop
  | data (data : Bytes) (endStream : Bool) : Needy id (.frame (.data id data endStream))
  | rstStream (code : ErrorCode) : Needy id (.frame (.rstStream id code))
  | windowUpdate (increment : Nat) : Needy id (.frame (.windowUpdate id increment))

theorem needy {w : WireFrame} (needs : w.needsStream) {d : Decoded} (decoded : w.decode = .ok d) :
    Needy w.header.streamId d := by
  unfold needsStream at needs
  simp only [Bool.and_eq_true, Bool.or_eq_true, decide_eq_true_eq] at needs
  unfold decode Frame.fromParts at decoded
  rcases needs.2 with (kind | kind) | kind
  · rw [kind] at decoded
    obtain ⟨f, hf, rfl⟩ := Frame.map_ok decoded
    unfold Frame.dataFromParts at hf
    split at hf
    · cases hf
    cases hstrip : Frame.stripPadding .data w.header.flags w.payload with
    | error e => rw [hstrip] at hf; cases hf
    | ok octets =>
      rw [hstrip] at hf
      cases hf
      exact .data octets _
  · rw [kind] at decoded
    obtain ⟨f, hf, rfl⟩ := Frame.map_ok decoded
    unfold Frame.rstStreamFromParts at hf
    split at hf
    · cases hf
    cases hcode : Frame.readErrorCode .rstStream w.payload with
    | error e => rw [hcode] at hf; cases hf
    | ok code =>
      rw [hcode] at hf
      cases hf
      exact .rstStream code
  · rw [kind] at decoded
    obtain ⟨f, hf, rfl⟩ := Frame.map_ok decoded
    unfold Frame.windowUpdateFromParts at hf
    split at hf
    · cases hf
      exact .windowUpdate _
    · cases hf

/-- A frame has the kind and the stream of its header. -/
theorem decode_header {w : WireFrame} {f : Frame} (decoded : w.decode = .ok (.frame f)) :
    w.header.kind = f.kind ∧ w.header.streamId = f.streamId := by
  have connection : ∀ id : StreamId, id.isConnection = true → id = .connection := by
    intro id h
    exact StreamId.ext_get (beq_iff_eq.mp h)
  unfold decode Frame.fromParts at decoded
  split at decoded
  case h_9 =>
    unfold Frame.validatePriority at decoded
    repeat' split at decoded
    all_goals cases decoded
  all_goals
    rename_i kind
    obtain ⟨g, hg, hd⟩ := Frame.map_ok decoded
    obtain rfl := Decoded.frame.inj hd
    rw [kind]
  case h_1 =>
    unfold Frame.dataFromParts at hg
    split at hg
    · cases hg
    cases hstrip : Frame.stripPadding .data w.header.flags w.payload with
    | error e => rw [hstrip] at hg; cases hg
    | ok octets =>
      rw [hstrip] at hg
      cases hg
      exact ⟨rfl, rfl⟩
  case h_2 =>
    unfold Frame.headersFromParts at hg
    simp only [bind, Except.bind] at hg
    repeat' split at hg
    all_goals cases hg
    all_goals exact ⟨rfl, rfl⟩
  case h_3 =>
    unfold Frame.rstStreamFromParts at hg
    split at hg
    · cases hg
    cases hcode : Frame.readErrorCode .rstStream w.payload with
    | error e => rw [hcode] at hg; cases hg
    | ok code =>
      rw [hcode] at hg
      cases hg
      exact ⟨rfl, rfl⟩
  case h_4 =>
    unfold Frame.settingsFromParts at hg
    split at hg
    · cases hg
    rename_i on
    have on := connection _ (by simpa using on)
    repeat' split at hg
    all_goals cases hg
    all_goals exact ⟨rfl, on⟩
  case h_5 =>
    unfold Frame.pingFromParts at hg
    split at hg
    · cases hg
    rename_i on
    have on := connection _ (by simpa using on)
    split at hg
    all_goals cases hg
    exact ⟨rfl, on⟩
  case h_6 =>
    unfold Frame.goAwayFromParts at hg
    split at hg
    · cases hg
    rename_i on
    have on := connection _ (by simpa using on)
    split at hg
    · rename_i a b c d e f g h debugData hp
      cases hcode : Frame.readErrorCode .goAway [e, f, g, h] with
      | error e => rw [hcode] at hg; cases hg
      | ok code =>
        rw [hcode] at hg
        cases hg
        exact ⟨rfl, on⟩
    · cases hg
  case h_7 =>
    unfold Frame.windowUpdateFromParts at hg
    split at hg
    all_goals cases hg
    exact ⟨rfl, rfl⟩
  case h_8 =>
    unfold Frame.continuationFromParts at hg
    split at hg
    all_goals cases hg
    exact ⟨rfl, rfl⟩

theorem needsStream_of {w : WireFrame} {f : Frame} (decoded : w.decode = .ok (.frame f))
    (kind : f.kind = .data ∨ f.kind = .rstStream ∨ f.kind = .windowUpdate)
    (stream : f.streamId.isConnection = false) : w.needsStream := by
  obtain ⟨hkind, hstream⟩ := decode_header decoded
  unfold needsStream
  rw [hkind, hstream, stream]
  rcases kind with kind | kind | kind <;> rw [kind] <;> rfl

theorem data?_stream {w : WireFrame} {id : StreamId} {data : Bytes} {endStream : Bool}
    (frame : w.data? = some (id, data, endStream)) : id.isConnection = false := by
  have inRange := (Frame.fromParts_accepts (decode_of_data? frame)).1
  simpa [Frame.InRange] using inRange

/-- The stream that a HEADERS frame asks for. -/
def asks (w : WireFrame) : Option StreamId :=
  match w.decode with
  | .ok (.frame (.headers id ..)) => some id
  | _ => none

end WireFrame

end H2Proxy
