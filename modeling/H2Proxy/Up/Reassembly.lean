import H2Proxy.Conn.Reassembly
import H2Proxy.Up.Block

/-
  An upstream connection reads a header block in pieces as it reads it in one (`response_reassembled`),
  as a client connection does. There is no guard here: the pieces of a block are bounded by its
  length alone, and an empty one costs nothing.
-/

namespace H2Proxy

namespace Upstream

/-- The log without the frames heard. -/
def deeds (log : List UpObs) : List UpObs :=
  log.filter fun
    | .heard _ => false
    | _ => true

theorem deeds_append (l l' : List UpObs) : deeds (l ++ l') = deeds l ++ deeds l' :=
  List.filter_append ..

/-- Everything but what is kept of a block, the log and the clock's last reading. -/
def bare (s : Upstream) : Upstream := put (.closed false) [] { s with log := [], now := 0 }

theorem put_bare (s : Upstream) : put s.block s.log { s.bare with now := s.now } = s := by
  show ({ s with log := s.log ++ ([] : List UpObs) } : Upstream) = s
  rw [List.append_nil]

/-- The same but for what is kept of a block, and for the frames heard. -/
structure Alike (s t : Upstream) : Prop where
  bare : s.bare = t.bare
  deeds : deeds s.log = deeds t.log

theorem Alike.refl (s : Upstream) : Alike s s := ⟨rfl, rfl⟩

theorem Alike.stop {s t : Upstream} (h : Alike s t) : s.stop = t.stop := by
  have same := congrArg (fun s : Upstream => s.stop) h.bare
  exact same

theorem alike_put (b b' : Block) {l l' : List UpObs} (h : deeds l = deeds l') (s : Upstream) :
    Alike (put b l s) (put b' l' s) := by
  refine ⟨rfl, ?_⟩
  show deeds (l ++ s.log) = deeds (l' ++ s.log)
  rw [deeds_append, deeds_append, h]

/-- The frame that is heard, if one is. -/
def frameOf (i : Instant × UpInput) : Option WireFrame :=
  match i.2 with
  | .frame w => some w
  | _ => none

theorem frame_of_some {i : Instant × UpInput} {w : WireFrame} (h : frameOf i = some w) :
    i = (i.1, .frame w) := by
  obtain ⟨now, input⟩ := i
  cases input with
  | frame w' => cases h; rfl
  | _ => cases h

variable {b : Block} {l : List UpObs}

theorem react_carries {i : Instant × UpInput} (h : frameOf i = none) :
    Carries (put b l) (react i.2) := by
  obtain ⟨now, input⟩ := i
  cases input with
  | frame w => cases h
  | message m => exact .bind (handleMessage_carries m) fun _ => .pure _
  | pump => exact .bind pumpOutbound_carries fun _ => .pure _
  | wrote n => exact .bind (.modify fun _ => rfl) fun _ => .pure _
  | heard => exact .bind (.modify fun _ => rfl) fun _ => .pure _
  | probe => exact probeTimer_carries
  | drained => exact .get (fun _ => rfl) fun _ => .pure _
  | hangup => exact .pure _

theorem conclude_carries (stop : Stop) (s : Upstream) :
    conclude stop (put b l s) = put b l (conclude stop s) := by
  have failed : ∀ s : Upstream, ({ (put b l s).failAllRoutes with stop := some stop } : Upstream) =
      put b l { s.failAllRoutes with stop := some stop } := by
    intro s
    unfold put failAllRoutes withCore
    dsimp only
    rw [List.append_assoc, List.append_assoc, List.append_assoc]
  unfold conclude
  cases stop with
  | quiet => exact failed s
  | failed e =>
    have hq := (queueFrame_carries (.goAway s.streams.highestLocalId e.code (ascii e.debug))).run
      (g := put b l) s
    dsimp only
    rw [show (put b l s).streams = s.streams from rfl, hq]
    cases queueFrame (.goAway s.streams.highestLocalId e.code (ascii e.debug)) s with
    | ok a t => exact failed t
    | error e t => exact failed t

theorem step_live {s : Upstream} (live : s.stop = none) (i : Instant × UpInput) :
    step i s = concluded conclude (react i.2 { s with now := i.1 }) := by
  unfold step
  rw [if_neg (by rw [live]; nofun)]
  cases react i.2 { s with now := i.1 } with
  | ok next t => cases next <;> rfl
  | error e t => rfl

/-- A connection that has stopped only turns away what is in its inbox. -/
theorem step_ended {s : Upstream} (stopped : s.stop.isSome) (i : Instant × UpInput) :
    step i s = match i.2 with
      | .message m => s.leave m
      | _ => s := if_pos stopped

theorem step_stays {s : Upstream} (stopped : ¬s.stop = none) (i : Instant × UpInput) :
    ¬(step i s).stop = none := by
  rw [step_ended (Option.isSome_iff_ne_none.mpr stopped)]
  cases i.2 with
  | message m => cases m <;> exact stopped
  | _ => exact stopped

/-- A step reads the clock anew. -/
theorem step_now {s : Upstream} (live : s.stop = none) (i : Instant × UpInput) (now : Instant) :
    step i { s with now } = step i s := by
  rw [step_live live, step_live (s := { s with now }) live]

theorem step_put {i : Instant × UpInput} (h : frameOf i = none) {s : Upstream}
    (live : s.stop = none) : step i (put b l s) = put b l (step i s) := by
  rw [step_live live, step_live (s := put b l s) live, ← concluded_onState conclude_carries,
    ← (react_carries h).run]
  rfl

theorem step_bare {i : Instant × UpInput} (h : frameOf i = none) {s : Upstream}
    (live : s.stop = none) : step i s = put s.block s.log (step i s.bare) := by
  conv => lhs; rw [← put_bare s, step_put (s := { s.bare with now := s.now }) h live,
    step_now (s := s.bare) live]

theorem Alike.leave {s t : Upstream} (h : Alike s t) (m : ToUpstream) :
    Alike (s.leave m) (t.leave m) := by
  cases m with
  | request id clientId head endStream events =>
    refine ⟨h.bare, ?_⟩
    show Upstream.deeds (s.log ++ _) = Upstream.deeds (t.log ++ _)
    rw [deeds_append, deeds_append, h.deeds]
  | _ => exact h

/-- Inputs other than frames do the same to states that are alike. -/
theorem Alike.step {s t : Upstream} (h : Alike s t) {i : Instant × UpInput}
    (other : frameOf i = none) : Alike (step i s) (step i t) := by
  cases hs : s.stop with
  | some stop =>
    have stopped : s.stop.isSome := by rw [hs]; rfl
    rw [step_ended stopped, step_ended (s := t) (h.stop ▸ stopped)]
    cases i.2 with
    | message m => exact h.leave m
    | _ => exact h
  | none =>
    rw [step_bare other hs, step_bare (s := t) other (h.stop ▸ hs), h.bare]
    exact alike_put _ _ h.deeds _

/-- While it runs, inputs other than frames keep what is kept of a block. -/
theorem step_keeps {i : Instant × UpInput} (h : frameOf i = none) {s : Upstream}
    (live : s.stop = none) : (step i s).block = s.block := by
  rw [step_bare h live]
  rfl

/-! ## The frames of a block -/

/-- What is done with a whole header block. -/
def complete (id : StreamId) (block : Bytes) (endStream : Bool) : UpM Unit := do
  let (hpackDec, result) := (← get).hpackDec.decode block
  modify fun s => { s with hpackDec }
  match result with
  | .ok headers => recvResponse id headers endStream
  | .error (.headerListTooLarge ..) => failStream id 502
  | .error e => throw e.toConnectionError

theorem complete_carries (id : StreamId) (block : Bytes) (endStream : Bool) :
    Carries (put b l) (complete id block endStream) := by
  unfold complete
  refine .get (fun _ => rfl) fun s => ?_
  dsimp only
  refine .bind (.modify fun _ => rfl) fun _ => ?_
  cases (s.hpackDec.decode block).2 with
  | ok headers => exact recvResponse_carries ..
  | error e =>
    cases e with
    | headerListTooLarge size limit => exact failStream_carries ..
    | compression detail => exact .throw _

/-- The end of a block closes it. -/
def closing (x : UpM Unit) : UpM Next := do
  x
  modify fun s => { s with openHeaderBlock := none }
  pure .continue_

/-- A fragment that is not the last is put with those before it. -/
theorem readHeaderBlock_piece {s : Upstream} (id : StreamId) {fragment : Bytes}
    (short : (s.headerBlock ++ fragment).length ≤ maxHeaderBlockBytes) :
    readHeaderBlock id fragment false s =
      .ok () { s with headerBlock := s.headerBlock ++ fragment } := by
  show (if (s.headerBlock ++ fragment).length > maxHeaderBlockBytes then _ else _ : UpM Unit) s = _
  rw [if_neg (Nat.not_lt.mpr short)]
  rfl

theorem readHeaderBlock_last {s : Upstream} (id : StreamId) {fragment : Bytes}
    (short : (s.headerBlock ++ fragment).length ≤ maxHeaderBlockBytes) :
    readHeaderBlock id fragment true s =
      complete id (s.headerBlock ++ fragment) s.openHeaderEndStream { s with headerBlock := [] } := by
  show (if (s.headerBlock ++ fragment).length > maxHeaderBlockBytes then _ else _ : UpM Unit) s = _
  rw [if_neg (Nat.not_lt.mpr short)]
  show (match (s.hpackDec.decode (s.headerBlock ++ fragment)).2 with
    | .ok headers => do recvResponse id headers (← get).openHeaderEndStream
    | .error (.headerListTooLarge ..) => failStream id 502
    | .error e => throw e.toConnectionError : UpM Unit) _ =
    (match (s.hpackDec.decode (s.headerBlock ++ fragment)).2 with
    | .ok headers => recvResponse id headers s.openHeaderEndStream
    | .error (.headerListTooLarge ..) => failStream id 502
    | .error e => throw e.toConnectionError : UpM Unit) _
  cases (s.hpackDec.decode (s.headerBlock ++ fragment)).2 with
  | ok headers => rfl
  | error e =>
    cases e with
    | headerListTooLarge size limit => rfl
    | compression detail => rfl

theorem handleFrame_next {s : Upstream} {f : Frame} {id : StreamId} {endStream last : Bool}
    {piece : Bytes} (next : s.block.Next id endStream piece last f) :
    handleFrame f s =
      (do
        readHeaderBlock id piece last
        modify fun s => { s with openHeaderBlock := if last then none else some id } : UpM Unit)
        { s with openHeaderEndStream := endStream } := by
  have ordered : s.headerBlockError f = none := by
    unfold headerBlockError
    cases next with
    | headers closed => rw [show s.openHeaderBlock = none from closed]; rfl
    | continuation open_ same =>
      rw [show s.openHeaderBlock = some id from open_]
      exact if_pos (by simp [Frame.kind, Frame.streamId])
  unfold handleFrame
  cases next with
  | headers closed =>
    show EStateM.bind EStateM.get _ s = _
    unfold EStateM.bind EStateM.get
    dsimp only
    rw [ordered]
    rfl
  | continuation open_ same =>
    show EStateM.bind EStateM.get _ s = _
    unfold EStateM.bind EStateM.get
    dsimp only
    rw [ordered, ← same]
    rfl

/-- What a frame in order does, as a turn of the loop. -/
def turnOf (f : Frame) : UpM Next := do
  handleFrame f
  pure .continue_

theorem turnOf_next {s : Upstream} {f : Frame} {id : StreamId} {endStream last : Bool}
    {piece : Bytes} (next : s.block.Next id endStream piece last f) :
    turnOf f s =
      (do
        readHeaderBlock id piece last
        modify fun s => { s with openHeaderBlock := if last then none else some id }
        pure .continue_ : UpM Next) { s with openHeaderEndStream := endStream } := by
  unfold turnOf
  simp only [bind, EStateM.bind, handleFrame_next next]
  cases readHeaderBlock id piece last { s with openHeaderEndStream := endStream } <;> rfl

theorem recvWire_handles {s : Upstream} {w : WireFrame} {f : Frame}
    (fits : w.header.length ≤ s.localSettings.maxFrameSize) (decoded : w.decode = .ok (.frame f)) :
    recvWire w s = handleFrame f { s with log := s.log ++ [.heard w] } := by
  show (if w.header.length > s.localSettings.maxFrameSize then _ else _ : UpM Unit) _ = _
  rw [if_neg (Nat.not_lt.mpr fits), decoded]
  rfl

/-- A frame off the wire that fits is handled. -/
theorem step_handles {s : Upstream} (live : s.stop = none) (now : Instant) {w : WireFrame} {f : Frame}
    (fits : w.header.length ≤ s.localSettings.maxFrameSize) (decoded : w.decode = .ok (.frame f)) :
    step (now, .frame w) s = concluded conclude (turnOf f { s with now, log := s.log ++ [.heard w] }) := by
  rw [step_live live]
  show concluded conclude (EStateM.bind (recvWire w) _ { s with now }) = _
  unfold EStateM.bind
  rw [recvWire_handles (s := { s with now }) fits decoded]
  rfl

/-- A piece before the last changes what is kept of its block, and nothing else. -/
theorem step_piece {s : Upstream} (live : s.stop = none) (now : Instant) {w : WireFrame} {f : Frame}
    {id : StreamId} {endStream : Bool} {piece : Bytes}
    (fits : w.header.length ≤ s.localSettings.maxFrameSize) (decoded : w.decode = .ok (.frame f))
    (next : s.block.Next id endStream piece false f)
    (short : (s.headerBlock ++ piece).length ≤ maxHeaderBlockBytes) :
    step (now, .frame w) s = put ⟨some id, endStream, s.headerBlock ++ piece⟩
      (s.log ++ [.heard w]) { s with now, log := [] } := by
  rw [step_handles live now fits decoded,
    turnOf_next (s := { s with now, log := s.log ++ [.heard w] }) next]
  show concluded conclude (EStateM.bind (readHeaderBlock id piece false) _
    { s with now, log := s.log ++ [.heard w], openHeaderEndStream := endStream }) = _
  unfold EStateM.bind
  rw [readHeaderBlock_piece (s := { s with
    now, log := s.log ++ [.heard w], openHeaderEndStream := endStream }) id short]
  unfold put
  dsimp only
  rw [List.append_nil]
  rfl

/-- The last piece has the whole block dealt with. -/
theorem turnOf_last {s : Upstream} {f : Frame} {id : StreamId} {endStream : Bool}
    {piece : Bytes} (next : s.block.Next id endStream piece true f)
    (short : (s.headerBlock ++ piece).length ≤ maxHeaderBlockBytes) :
    turnOf f s = closing (complete id (s.headerBlock ++ piece) endStream)
      (put ⟨s.openHeaderBlock, endStream, []⟩ s.log { s with log := [] }) := by
  rw [turnOf_next next]
  show EStateM.bind (readHeaderBlock id piece true) _ { s with openHeaderEndStream := endStream } = _
  unfold EStateM.bind
  rw [readHeaderBlock_last (s := { s with openHeaderEndStream := endStream }) id short]
  unfold closing put
  dsimp only
  rw [List.append_nil]
  rfl

/-- The same but for the frames heard; and where it goes on, the same of the block as well. -/
structure Agree (s t : Upstream) : Prop where
  alike : Alike s t
  rest : s.stop = none → s.block = t.block

/-- Once the whole block is there, only what was heard tells how it came. -/
theorem closing_agree (id : StreamId) (block : Bytes) (endStream : Bool) (o o' : Option StreamId)
    {l l' : List UpObs} (h : deeds l = deeds l') (s : Upstream) :
    Agree (concluded conclude (closing (complete id block endStream) (put ⟨o, endStream, []⟩ l s)))
      (concluded conclude (closing (complete id block endStream) (put ⟨o', endStream, []⟩ l' s))) := by
  unfold closing
  show Agree (concluded conclude (EStateM.bind (complete id block endStream) _ _))
    (concluded conclude (EStateM.bind (complete id block endStream) _ _))
  unfold EStateM.bind
  rw [(complete_carries id block endStream).run s, (complete_carries id block endStream).run s]
  cases complete id block endStream s with
  | ok u t =>
    show Agree (put ⟨none, endStream, []⟩ l t) (put ⟨none, endStream, []⟩ l' t)
    exact ⟨alike_put _ _ h t, fun _ => rfl⟩
  | error e t =>
    show Agree (conclude (.failed e) (put _ l t)) (conclude (.failed e) (put _ l' t))
    rw [conclude_carries, conclude_carries]
    exact ⟨alike_put _ _ h _, nofun⟩

/-! ## A block in pieces -/

/-- A frame is no longer than this end allows. -/
def fits (s : Upstream) (i : Instant × UpInput) : Bool :=
  match i.2 with
  | .frame w => w.header.length ≤ s.localSettings.maxFrameSize
  | _ => true

/-- What a frame does once it is off the wire. -/
def hear (now : Instant) (f : Frame) (s : Upstream) : Upstream :=
  if s.stop.isSome then s else concluded conclude (turnOf f { s with now })

/-! ## Between blocks -/

/-- Nothing is left of a block once it is complete. -/
def Rested (s : Upstream) : Prop := s.openHeaderBlock = none → s.headerBlock = []

theorem Rested.same {s t : Upstream} (h : s.Rested) (same : t.block = s.block) : t.Rested := by
  have stream : t.openHeaderBlock = s.openHeaderBlock := congrArg Block.stream same
  have buffer : t.headerBlock = s.headerBlock := congrArg Block.buffer same
  unfold Rested
  rw [stream, buffer]
  exact h

/-- What does the same whatever is kept of a block leaves it alone. -/
theorem keeps_of_carries {α : Type} {x : UpM α} (h : ∀ b l, Carries (put b l) x) (s : Upstream) :
    Ends (x s) (fun _ t => t.block = s.block) fun _ t => t.block = s.block := by
  have same := (h s.block s.log).run { s.bare with now := s.now }
  rw [put_bare] at same
  rw [same]
  cases x { s.bare with now := s.now } with
  | ok a t => rfl
  | error e t => rfl

theorem Rested.carries {α : Type} {s : Upstream} (h : s.Rested) {x : UpM α}
    (hx : ∀ b l, Carries (put b l) x) : Ends (x s) (fun _ => Rested) fun _ _ => True :=
  (keeps_of_carries hx s).mono (fun _ _ same => h.same same) fun _ _ _ => trivial

/-- A fragment leaves its block open, or nothing of it. -/
theorem readFragment_rested (s : Upstream) (id : StreamId) (fragment : Bytes) (endHeaders : Bool) :
    Ends ((do
      readHeaderBlock id fragment endHeaders
      modify fun s => { s with openHeaderBlock := if endHeaders then none else some id } :
        UpM Unit) s) (fun _ => Rested) fun _ _ => True := by
  cases endHeaders with
  | false =>
    rw [ends_bind]
    refine Ends.mono (E := fun _ _ => True) (Q := fun _ _ => True) ?_ (fun _ t _ => ?_) fun _ _ h => h
    · cases readHeaderBlock id fragment false s <;> trivial
    · intro closed
      cases closed
  | true =>
    rw [ends_bind]
    by_cases short : (s.headerBlock ++ fragment).length ≤ maxHeaderBlockBytes
    · rw [readHeaderBlock_last id short]
      refine (keeps_of_carries (fun _ _ => complete_carries ..) _).mono (fun _ t same => ?_)
        fun _ _ _ => trivial
      exact fun _ => congrArg Block.buffer same
    · have failed : Ends (readHeaderBlock id fragment true s) (fun _ _ => False) fun _ _ => True := by
        unfold readHeaderBlock
        rw [ends_bind, ends_get, ends_ite]
        exact ⟨fun _ => trivial, fun no => absurd (Nat.not_lt.mp no) short⟩
      exact failed.mono (fun _ _ h => h.elim) fun _ _ h => h

theorem handleFrame_rested {s : Upstream} (h : s.Rested) (f : Frame) :
    Ends (handleFrame f s) (fun _ => Rested) fun _ _ => True := by
  unfold handleFrame
  rw [ends_bind, ends_get]
  cases s.headerBlockError f with
  | some e => trivial
  | none =>
    cases f with
    | settings ack params => exact h.carries fun _ _ => .ite (.pure _) (recvSettings_carries _)
    | ping data ack =>
      exact h.carries fun _ _ => .ite (queueFrame_carries _) (.ite (.modify fun _ => rfl) (.pure _))
    | goAway last code debug => exact h.carries fun _ _ => beginPeerDrain_carries last
    | windowUpdate id increment => exact h.carries fun _ _ => recvWindowUpdate_carries ..
    | headers id block endStream endHeaders => exact readFragment_rested _ id block endHeaders
    | continuation id block endHeaders => exact readFragment_rested s id block endHeaders
    | data id data endStream => exact h.carries fun _ _ => recvData_carries ..
    | rstStream id code => exact h.carries fun _ _ => recvRstStream_carries ..

theorem recvWire_rested {s : Upstream} (h : s.Rested) (w : WireFrame) :
    Ends (recvWire w s) (fun _ => Rested) fun _ _ => True := by
  have heard : (s.withCore (s.toUpstreamCore.observe (.heard w))).Rested := h
  unfold recvWire onCore
  rw [ends_bind, ends_modify, ends_bind, ends_get, ends_ite]
  refine ⟨fun _ => trivial, fun _ => ?_⟩
  cases w.decode with
  | error e => trivial
  | ok d =>
    cases d with
    | ignored kind id =>
      generalize s.withCore (s.toUpstreamCore.observe (.heard w)) = t at heard
      show Ends (rejectIfMidHeaderBlock kind id t) _ _
      unfold rejectIfMidHeaderBlock
      rw [ends_bind, ends_get]
      cases t.openHeaderBlock with
      | none => exact heard
      | some open_ => trivial
    | frame f => exact handleFrame_rested heard f

theorem step_rested {s : Upstream} (h : s.Rested) (running : s.stop = none)
    (i : Instant × UpInput) (goesOn : (step i s).stop = none) : (step i s).Rested := by
  cases hi : frameOf i with
  | none => exact h.same (step_keeps hi running)
  | some w =>
    rw [frame_of_some hi] at goesOn ⊢
    have kept := recvWire_rested (s := { s with now := i.1 }) h w
    rw [step_live running] at goesOn ⊢
    have turn : react (.frame w) { s with now := i.1 } =
        EStateM.bind (recvWire w) (fun _ => pure .continue_) { s with now := i.1 } := rfl
    dsimp only at goesOn ⊢
    rw [turn] at goesOn ⊢
    unfold EStateM.bind at goesOn ⊢
    cases hr : recvWire w { s with now := i.1 } with
    | ok u t =>
      rw [hr] at kept
      exact kept
    | error e t =>
      rw [hr] at goesOn
      cases goesOn

/-- The buffer is empty whenever no block is open, in every run. -/
theorem reachable_rested {s : Upstream} (h : machine.Reachable s) (running : s.stop = none) :
    s.Rested := by
  refine h.invariant (I := fun s => s.stop = none → s.Rested) ?_ ?_ running
  · rintro s ⟨tuning, idle, timeout, now, -, -, rfl⟩ - -
    rfl
  · rintro s i hs - goesOn
    by_cases hstop : s.stop = none
    · exact step_rested (hs hstop) hstop i goesOn
    · exact absurd goesOn (step_stays hstop i)

/-- The last piece of a block has the effect that the whole of it has. -/
theorem step_last {s t : Upstream} (live : s.stop = none) (now : Instant) {w : WireFrame} {f : Frame}
    {id : StreamId} {endStream : Bool} {piece : Bytes}
    (fits : w.header.length ≤ s.localSettings.maxFrameSize) (decoded : w.decode = .ok (.frame f))
    (next : s.block.Next id endStream piece true f)
    (short : (s.headerBlock ++ piece).length ≤ maxHeaderBlockBytes) (alike : Alike s t)
    (fresh : t.block = .closed t.openHeaderEndStream) {l : List UpObs} (same : deeds l = deeds t.log) :
    Agree (step (now, .frame w) s) (concluded conclude
      (turnOf (.headers id (s.headerBlock ++ piece) endStream true) { t with now, log := l })) := by
  have buffer : t.headerBlock ++ (s.headerBlock ++ piece) = s.headerBlock ++ piece := by
    rw [show t.headerBlock = [] from congrArg Block.buffer fresh, List.nil_append]
  have room : (t.headerBlock ++ (s.headerBlock ++ piece)).length ≤ maxHeaderBlockBytes := by
    rw [buffer]
    exact short
  rw [step_handles live now fits decoded,
    turnOf_last (s := { s with now, log := s.log ++ [.heard w] }) next short,
    turnOf_last (s := { t with now, log := l }) (.headers (congrArg Block.stream fresh)) room]
  show Agree (concluded conclude (closing (complete id (s.headerBlock ++ piece) endStream)
      (put _ (s.log ++ [.heard w]) { s.bare with now })))
    (concluded conclude (closing (complete id (t.headerBlock ++ (s.headerBlock ++ piece)) endStream)
      (put _ l { t.bare with now })))
  rw [buffer, alike.bare]
  refine closing_agree id _ endStream _ _ ?_ _
  rw [deeds_append, same, alike.deeds]
  exact List.append_nil _

theorem reads : Reads machine (fun now w => (now, .frame w)) frameOf (fits · ·) (·.stop = none)
    block Alike Agree (fun _ _ _ => True) hear where
  wires {i w} heard := ⟨i.1, frame_of_some heard⟩
  beside h other := h.step other
  keeps live other := step_keeps other live
  paces _ _ _ := trivial
  piece {n s t now w f id endStream piece} live fit decoded next short alike _ := by
    have taken := step_piece live now (of_decide_eq_true fit) decoded next short
    show block (step (now, .frame w) s) = _ ∧ Alike (step (now, .frame w) s) t ∧ True
    rw [taken]
    refine ⟨rfl, ⟨alike.bare, ?_⟩, trivial⟩
    show deeds (s.log ++ [.heard w] ++ []) = deeds t.log
    rw [List.append_nil, deeds_append, ← alike.deeds]
    exact List.append_nil _
  last {s t now w f id endStream piece} live fit decoded next short alike _ fresh := by
    have running : t.stop = none := alike.stop ▸ live
    have whole := fun l =>
      step_last (l := l) live now (of_decide_eq_true fit) decoded next short alike fresh
    refine ⟨?_, fun w' decodes fit' => ?_⟩
    · unfold hear
      rw [if_neg (by rw [running]; nofun)]
      exact whole _ rfl
    · show Agree (step (now, .frame w) s) (step (now, .frame w') t)
      rw [step_handles running now (of_decide_eq_true fit') decodes]
      refine whole _ ?_
      rw [deeds_append]
      exact List.append_nil _
  deaf stopped := step_ended (Option.isSome_iff_ne_none.mpr stopped) _
  still stopped := if_pos (Option.isSome_iff_ne_none.mpr stopped)
  stays {s i} stopped := step_stays stopped i
  alike_live h := by rw [h.stop]
  agree_stopped stopped h := ⟨h, fun live => absurd live stopped⟩

/-- Whatever pieces a header block comes in, and whatever but frames comes between them, it has
    the effect of the one frame that holds all of it, be that longer than a frame may be or not. -/
theorem response_reassembled {s : Upstream} (h : machine.Reachable s) (running : s.stop = none)
    (closed : s.openHeaderBlock = none) {id : StreamId} {endStream : Bool} {pieces : List Bytes}
    {js : List (Instant × UpInput)} {now : Instant} {last : WireFrame}
    (arrive : Arrive (framesOf frameOf js ++ [last]) (cut id endStream pieces))
    (short : pieces.flatten.length ≤ maxHeaderBlockBytes)
    (fit : machine.Meets (fits · ·) s (js ++ [(now, .frame last)])) :
    Agree (machine.run s (js ++ [(now, .frame last)]))
        (hear now (.headers id pieces.flatten endStream true) (machine.run s (besides frameOf js))) ∧
      ∀ whole : WireFrame, whole.decode = .ok (.frame (.headers id pieces.flatten endStream true)) →
        (machine.run s (besides frameOf js)).fits (now, .frame whole) →
          Agree (machine.run s (js ++ [(now, .frame last)]))
            (machine.run s (besides frameOf js ++ [(now, .frame whole)])) := by
  have empty := reachable_rested h running closed
  have fresh : s.block = .closed s.openHeaderEndStream := by
    unfold block Block.closed
    rw [closed, empty]
  exact reads.reassembled (.refl s) fresh trivial arrive short fit

/-- A request is out, and the response to it begins in three pieces, one of them empty. -/
def answerPiecewise : List (Instant × UpInput) :=
  [(2, .frame (.ofParts .headers 0 (.new 1) [] (show 0 < 2 ^ 24 by decide))), (3, .pump),
    (4, .frame (.ofParts .continuation 0 (.new 1) [0x88] (show 1 < 16777216 by decide)))]

def asked : Upstream :=
  machine.run (.start .default 0 0 0)
    [(1, .message (.request ⟨3⟩ (.new 1) ⟨ascii "GET", ascii "http", none, ascii "/", []⟩ true ⟨0⟩))]

theorem asked_reachable : machine.Reachable asked := by
  refine Machine.Reach.run (.init ?_) _ ⟨trivial, trivial⟩
  exact ⟨.default, 0, 0, 0, by decide, by decide, rfl⟩

/-- The last piece of the response's head: `content-length: 0`. -/
def answerLast : WireFrame :=
  .ofParts .continuation Flags.endHeaders (.new 1) [0x5c, 0x01, 0x30] (by decide)

theorem response_reassembled_piecewise :
    Agree (machine.run asked (answerPiecewise ++ [(5, .frame answerLast)]))
      (hear 5 (.headers (.new 1) [0x88, 0x5c, 0x01, 0x30] false true)
        (machine.run asked (besides frameOf answerPiecewise))) :=
  (response_reassembled asked_reachable (by decide +kernel) (by decide +kernel)
    (show Arrive _ (cut (.new 1) false [[], [0x88], [0x5c, 0x01, 0x30]]) by decide +kernel)
    (by decide) (by decide +kernel)).1

/-! ## Nothing between the pieces -/

/-- In an open block only its next piece is in order. -/
theorem continuation_of_inOrder {s : Upstream} {open_ : StreamId} (mid : s.openHeaderBlock = some open_)
    {f : Frame} (ordered : s.headerBlockError f = none) : f.kind = .continuation ∧ f.streamId = open_ := by
  unfold headerBlockError at ordered
  rw [mid] at ordered
  dsimp only at ordered
  split at ordered
  · rename_i h
    simpa using h
  · cases ordered

/-- Any frame but the next piece of an open block ends the connection, and not quietly. -/
theorem step_interrupted {s : Upstream} (running : s.stop = none) {open_ : StreamId}
    (mid : s.openHeaderBlock = some open_) (now : Instant) {w : WireFrame}
    (other : ∀ piece last, w.decode ≠ .ok (.frame (.continuation open_ piece last))) :
    ∃ e, (step (now, .frame w) s).stop = some (.failed e) := by
  have refused : Ends (recvWire w { s with now }) (fun _ _ => False) fun _ _ => True := by
    unfold recvWire onCore
    rw [ends_bind, ends_modify, ends_bind, ends_get, ends_ite]
    refine ⟨fun _ => trivial, fun _ => ?_⟩
    have mid : (({ s with now } : Upstream).withCore
        (s.toUpstreamCore.observe (.heard w))).openHeaderBlock = some open_ := mid
    generalize ({ s with now } : Upstream).withCore (s.toUpstreamCore.observe (.heard w)) = t at mid
    cases hdec : w.decode with
    | error e => trivial
    | ok d =>
      cases d with
      | ignored kind id =>
        show Ends (rejectIfMidHeaderBlock kind id t) _ _
        unfold rejectIfMidHeaderBlock
        rw [ends_bind, ends_get, mid]
        trivial
      | frame f =>
        show Ends (handleFrame f t) _ _
        unfold handleFrame
        rw [ends_bind, ends_get]
        cases ordered : t.headerBlockError f with
        | none =>
          obtain ⟨kind, rfl⟩ := continuation_of_inOrder mid ordered
          obtain ⟨piece, last, hf⟩ := Frame.eq_continuation kind
          exact absurd (hf ▸ hdec) (other piece last)
        | some e => trivial
  rw [step_live running]
  show ∃ e, (concluded conclude (EStateM.bind (recvWire w) (fun _ => pure .continue_) { s with now })).stop = _
  unfold EStateM.bind
  cases hr : recvWire w { s with now } with
  | ok u t => rw [hr] at refused; exact refused.elim
  | error e t => exact ⟨e, rfl⟩

/-- The buffer is empty whenever no block is open; and while one is, any frame but its next piece
    ends the connection with an error, frames of kinds that are ignored among them. -/
structure Unbroken (s : Upstream) : Prop where
  rested : s.openHeaderBlock = none → s.headerBlock = []
  interrupted : ∀ open_, s.openHeaderBlock = some open_ → ∀ now (w : WireFrame),
    (∀ piece last, w.decode ≠ .ok (.frame (.continuation open_ piece last))) →
      ∃ e, (step (now, .frame w) s).stop = some (.failed e)

theorem reachable_unbroken {s : Upstream} (h : machine.Reachable s) (running : s.stop = none) :
    s.Unbroken :=
  ⟨reachable_rested h running, fun _ mid now _ other => step_interrupted running mid now other⟩

end Upstream

/-- At both engines a header block is open from its first piece to its last and no further, and
    nothing comes between. -/
theorem blocks_unbroken (σ μ : Type) [Service σ μ] :
    (∀ s : Conn σ μ, (Conn.machine σ μ).Reachable s → s.stop = none → s.Unbroken) ∧
      ∀ s : Upstream, Upstream.machine.Reachable s → s.stop = none → s.Unbroken :=
  ⟨fun _ => Conn.reachable_unbroken, fun _ => Upstream.reachable_unbroken⟩

end H2Proxy
