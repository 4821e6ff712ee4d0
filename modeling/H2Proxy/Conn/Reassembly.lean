import H2Proxy.Conn.Block
import H2Proxy.Conn.Steps

/-
  A client connection reads a header block in pieces as it reads it in one.

  `Alike` compares two states in everything but what is kept of a block and the frames
  heard. Inputs other than frames do the same to states that are alike (`Alike.step`), a piece
  before the last changes only what is kept (`step_piece`), and the last has the effect of the
  whole (`step_last`): so a run over the pieces agrees with one that hears the block at once
  (`reassembles`). Between blocks nothing is kept, and in one nothing else is heard (`Unbroken`).
-/

namespace H2Proxy

namespace Guard

/-- The guard lets so many more pieces of a block pass. -/
def Bears (g : Guard) (n : Nat) : Prop :=
  g.limits.observeOnly = true ∨ g.continuations + n ≤ g.limits.maxContinuations

instance (g : Guard) (n : Nat) : Decidable (g.Bears n) := inferInstanceAs (Decidable (_ ∨ _))

theorem Bears.onContinuation {g : Guard} {n : Nat} (h : g.Bears (n + 1)) :
    g.onContinuation.2 = .ok ∧ g.onContinuation.1.Bears n := by
  unfold Bears at h
  unfold Guard.onContinuation Bears verdict
  dsimp only
  rcases h with off | few
  · rw [off, if_pos rfl, ite_self]
    exact ⟨rfl, .inl rfl⟩
  · rw [if_neg (by omega)]
    exact ⟨rfl, .inr (by omega)⟩

end Guard

namespace Conn

variable {σ μ : Type}

/-- The log without the frames heard. -/
def deeds (log : List (ConnObs μ)) : List (ConnObs μ) :=
  log.filter fun
    | .heard _ => false
    | _ => true

theorem deeds_append (l l' : List (ConnObs μ)) : deeds (l ++ l') = deeds l ++ deeds l' :=
  List.filter_append ..

/-- Everything but what is kept of a block, the guard, the log and the clock's last reading. -/
def bare (s : Conn σ μ) : Conn σ μ :=
  put (.closed false) (.new .default 0) [] { s with log := [], now := 0 }

theorem put_bare (s : Conn σ μ) :
    put s.block s.guard s.log { s.bare with now := s.now } = s := by
  show ({ s with log := s.log ++ ([] : List (ConnObs μ)) } : Conn σ μ) = s
  rw [List.append_nil]

/-- The same but for what is kept of a block, and for the frames heard. -/
structure Alike (s t : Conn σ μ) : Prop where
  bare : s.bare = t.bare
  deeds : deeds s.log = deeds t.log

theorem Alike.refl (s : Conn σ μ) : Alike s s := ⟨rfl, rfl⟩

theorem Alike.stop {s t : Conn σ μ} (h : Alike s t) : s.stop = t.stop := by
  have same := congrArg (fun s : Conn σ μ => s.stop) h.bare
  exact same

theorem alike_put (b b' : Block) (g g' : Guard) {l l' : List (ConnObs μ)}
    (h : deeds l = deeds l') (s : Conn σ μ) : Alike (put b g l s) (put b' g' l' s) := by
  refine ⟨rfl, ?_⟩
  show deeds (l ++ s.log) = deeds (l' ++ s.log)
  rw [deeds_append, deeds_append, h]

/-- The frame that is heard, if one is. -/
def frameOf (i : Instant × ConnInput) : Option WireFrame :=
  match i.2 with
  | .frame w => some w
  | _ => none

theorem frame_of_some {i : Instant × ConnInput} {w : WireFrame} (h : frameOf i = some w) :
    i = (i.1, .frame w) := by
  obtain ⟨now, input⟩ := i
  cases input with
  | frame w' => cases h; rfl
  | _ => cases h

variable [Service σ μ] {b : Block} {g : Guard} {l : List (ConnObs μ)}

theorem react_carries {i : Instant × ConnInput} (h : frameOf i = none) :
    Carries (put b g l) (react i.2 : ConnM σ μ Next) := by
  obtain ⟨now, input⟩ := i
  cases input with
  | frame w => cases h
  | arrival event => exact .bind (onCore_carries fun _ => rfl) fun _ => .pure _
  | event =>
    refine .get (fun _ => rfl) fun s => ?_
    cases s.events with
    | nil => exact .pure _
    | cons event events =>
      exact .bind (onCore_carries fun _ => rfl) fun _ =>
        .bind (handleServiceEvent_carries event) fun _ => .pure _
  | pump budget =>
    exact .bind (syncAdmission_carries budget) fun _ => .bind pumpOutbound_carries fun _ => .pure _
  | wrote n => exact .bind (.modify fun _ => rfl) fun _ => .pure _
  | shutdown =>
    exact .get (fun _ => rfl) fun s =>
      .ite (.bind beginDrain_carries fun _ => .pure _) (.bind (.pure _) fun _ => .pure _)
  | advance timerFired => exact advanceDrain_carries timerFired
  | hangup => exact .pure _

theorem conclude_carries (stop : Stop) (s : Conn σ μ) :
    conclude stop (put b g l s) = put b g l (conclude stop s) := by
  have dropped : ∀ s : Conn σ μ,
      ({ put b g l s with
        toConnCore := (put b g l s).toConnCore.call .drop
          (Service.drop (put b g l s).now (put b g l s).service)
        stop := some stop } : Conn σ μ) =
      put b g l { s with
        toConnCore := s.toConnCore.call .drop (Service.drop s.now s.service)
        stop := some stop } := by
    intro s
    unfold put ConnCore.call
    dsimp only
    rw [List.append_assoc]
  unfold conclude
  cases stop with
  | quiet => exact dropped s
  | failed e =>
    have hq := (queueFrame_carries (.goAway s.streams.highestPeerId e.code (ascii e.debug))).run
      (g := put b g l) s
    dsimp only
    rw [show (put b g l s).streams = s.streams from rfl, hq]
    cases (queueFrame (.goAway s.streams.highestPeerId e.code (ascii e.debug)) : ConnM σ μ Unit) s with
    | ok a t => exact dropped t
    | error e t => exact dropped t

theorem step_live {s : Conn σ μ} (live : s.stop = none) (i : Instant × ConnInput) :
    step i s = concluded conclude (react i.2 { s with now := i.1 }) := by
  unfold step
  rw [if_neg (by rw [live]; nofun)]
  cases react i.2 { s with now := i.1 } with
  | ok next t => cases next <;> rfl
  | error e t => rfl

/-- A step reads the clock anew. -/
theorem step_now {s : Conn σ μ} (live : s.stop = none) (i : Instant × ConnInput) (now : Instant) :
    step i { s with now } = step i s := by
  rw [step_live live, step_live (s := { s with now }) live]

/-- What is kept of a block does not matter to anything but a frame. -/
theorem step_put {i : Instant × ConnInput} (h : frameOf i = none) (s : Conn σ μ) :
    step i (put b g l s) = put b g l (step i s) := by
  cases hs : s.stop with
  | some stop =>
    have stopped : s.stop.isSome := by rw [hs]; rfl
    rw [step_stopped stopped, step_stopped (s := put b g l s) stopped]
  | none =>
    rw [step_live hs, step_live (s := put b g l s) hs, ← concluded_onState conclude_carries,
      ← (react_carries h).run]
    rfl

theorem step_bare {i : Instant × ConnInput} (h : frameOf i = none) {s : Conn σ μ}
    (live : s.stop = none) : step i s = put s.block s.guard s.log (step i s.bare) := by
  conv => lhs; rw [← put_bare s, step_put h, step_now (s := s.bare) live]

/-- Inputs other than frames do the same to states that are alike. -/
theorem Alike.step {s t : Conn σ μ} (h : Alike s t) {i : Instant × ConnInput}
    (other : frameOf i = none) : Alike (step i s) (step i t) := by
  cases hs : s.stop with
  | some stop =>
    have stopped : s.stop.isSome := by rw [hs]; rfl
    rw [step_stopped stopped, step_stopped (h.stop ▸ stopped)]
    exact h
  | none =>
    rw [step_bare other hs, step_bare (s := t) other (h.stop ▸ hs), h.bare]
    exact alike_put _ _ _ _ h.deeds _

/-- Inputs other than frames keep what is kept of a block, and the guard. -/
theorem step_keeps {i : Instant × ConnInput} (h : frameOf i = none) (s : Conn σ μ) :
    (step i s).block = s.block ∧ (step i s).guard = s.guard := by
  cases hs : s.stop with
  | some stop =>
    rw [step_stopped (by rw [hs]; rfl)]
    exact ⟨rfl, rfl⟩
  | none =>
    rw [step_bare h hs]
    exact ⟨rfl, rfl⟩

/-! ## The frames of a block -/

/-- What is done with a whole header block. -/
def complete (id : StreamId) (block : Bytes) (endStream : Bool) : ConnM σ μ Unit := do
  let (hpackDec, result) := (← get).hpackDec.decode block
  modify fun s => { s with hpackDec }
  match result with
  | .ok headers => recvRequest id headers endStream
  | .error (.headerListTooLarge ..) => rejectStream id 431
  | .error e => throw e.toConnectionError

theorem complete_carries (id : StreamId) (block : Bytes) (endStream : Bool) :
    Carries (put b g l) (complete id block endStream : ConnM σ μ Unit) := by
  unfold complete
  refine .get (fun _ => rfl) fun s => ?_
  dsimp only
  refine .bind (.modify fun _ => rfl) fun _ => ?_
  cases (s.hpackDec.decode block).2 with
  | ok headers => exact recvRequest_carries ..
  | error e =>
    cases e with
    | headerListTooLarge size limit => exact rejectStream_carries ..
    | compression detail => exact .throw _

/-- The end of a block closes it. -/
def closing (x : ConnM σ μ Unit) : ConnM σ μ Next := do
  x
  modify fun s => { s with openHeaderBlock := none }
  pure .continue_

theorem readHeaderBlock_last {s : Conn σ μ} (id : StreamId) {fragment : Bytes}
    (short : s.headerBlock.length + fragment.length ≤ maxHeaderBlockBytes) :
    readHeaderBlock id fragment true s =
      complete id (s.headerBlock ++ fragment) s.openHeaderEndStream
        { s with guard := s.guard.onHeaderBlockEnd, headerBlock := [] } := by
  have gathered : gatherBlock fragment true s = .ok (some (s.headerBlock ++ fragment))
      { s with guard := s.guard.onHeaderBlockEnd, headerBlock := [] } := by
    show (if s.headerBlock.length + fragment.length > maxHeaderBlockBytes then _ else _ :
      ConnM σ μ (Option Bytes)) s = _
    rw [if_neg (Nat.not_lt.mpr short)]
    rfl
  unfold readHeaderBlock
  show EStateM.bind _ _ s = _
  unfold EStateM.bind
  rw [gathered]
  show (match (s.hpackDec.decode (s.headerBlock ++ fragment)).2 with
    | .ok headers => do recvRequest id headers (← get).openHeaderEndStream
    | .error (.headerListTooLarge ..) => rejectStream id 431
    | .error e => throw e.toConnectionError : ConnM σ μ Unit) _ =
    (match (s.hpackDec.decode (s.headerBlock ++ fragment)).2 with
    | .ok headers => recvRequest id headers s.openHeaderEndStream
    | .error (.headerListTooLarge ..) => rejectStream id 431
    | .error e => throw e.toConnectionError : ConnM σ μ Unit) _
  cases (s.hpackDec.decode (s.headerBlock ++ fragment)).2 with
  | ok headers => rfl
  | error e =>
    cases e with
    | headerListTooLarge size limit => rfl
    | compression detail => rfl

theorem handleFrame_next {s : Conn σ μ} {f : Frame} {id : StreamId} {endStream last : Bool}
    {piece : Bytes} (next : s.block.Next id endStream piece last f) :
    handleFrame f s =
      (do
        readHeaderBlock id piece last
        modify fun s => { s with openHeaderBlock := if last then none else some id }
        pure .continue_ : ConnM σ μ Next) { s with openHeaderEndStream := endStream } := by
  have ordered : s.headerBlockError f.kind f.streamId = none := by
    unfold headerBlockError
    cases next with
    | headers closed => rw [show s.openHeaderBlock = none from closed]; rfl
    | continuation open_ same =>
      rw [show s.openHeaderBlock = some id from open_]
      exact if_pos (by simp [Frame.kind, Frame.streamId])
  unfold handleFrame
  cases next with
  | headers closed =>
    show EStateM.bind EStateM.get _ s = _
    unfold EStateM.bind EStateM.get
    dsimp only
    rw [ordered]
    rfl
  | continuation open_ same =>
    show EStateM.bind EStateM.get _ s = _
    unfold EStateM.bind EStateM.get
    dsimp only
    rw [ordered, ← same]
    rfl

/-- A fragment that is not the last is put with those before it. -/
theorem readHeaderBlock_piece {s : Conn σ μ} (id : StreamId) {fragment : Bytes}
    (short : s.headerBlock.length + fragment.length ≤ maxHeaderBlockBytes)
    (passes : s.guard.onContinuation.2 = .ok) :
    readHeaderBlock id fragment false s =
      .ok () { s with headerBlock := s.headerBlock ++ fragment, guard := s.guard.onContinuation.1 } := by
  have gathered : gatherBlock fragment false s = .ok none
      { s with headerBlock := s.headerBlock ++ fragment, guard := s.guard.onContinuation.1 } := by
    show (if s.headerBlock.length + fragment.length > maxHeaderBlockBytes then _ else _ :
      ConnM σ μ (Option Bytes)) s = _
    rw [if_neg (Nat.not_lt.mpr short)]
    show EStateM.bind (guarded Guard.onContinuation) _ { s with headerBlock := _ } = _
    unfold EStateM.bind
    rw [guarded_eq (s := { s with headerBlock := s.headerBlock ++ fragment }) passes]
    rfl
  unfold readHeaderBlock
  show EStateM.bind _ _ s = _
  unfold EStateM.bind
  rw [gathered]
  rfl

/-- A frame off the wire that fits is handled. -/
theorem step_handles {s : Conn σ μ} (live : s.stop = none) (now : Instant) {w : WireFrame} {f : Frame}
    (fits : w.header.length ≤ s.localSettings.maxFrameSize) (decoded : w.decode = .ok (.frame f)) :
    step (now, .frame w) s = concluded conclude (handleFrame f { s with now, log := s.log ++ [.heard w] }) := by
  rw [step_live live]
  show concluded conclude ((if w.header.length > s.localSettings.maxFrameSize then _ else _ :
    ConnM σ μ Next) _) = _
  rw [if_neg (Nat.not_lt.mpr fits), decoded]
  rfl

/-- A piece before the last changes what is kept of its block, and nothing else. -/
theorem step_piece {s : Conn σ μ} (live : s.stop = none) (now : Instant) {w : WireFrame} {f : Frame}
    {id : StreamId} {endStream : Bool} {piece : Bytes}
    (fits : w.header.length ≤ s.localSettings.maxFrameSize) (decoded : w.decode = .ok (.frame f))
    (next : s.block.Next id endStream piece false f)
    (short : s.headerBlock.length + piece.length ≤ maxHeaderBlockBytes)
    (passes : s.guard.onContinuation.2 = .ok) :
    step (now, .frame w) s = put ⟨some id, endStream, s.headerBlock ++ piece⟩ s.guard.onContinuation.1
      (s.log ++ [.heard w]) { s with now, log := [] } := by
  rw [step_handles live now fits decoded,
    handleFrame_next (s := { s with now, log := s.log ++ [.heard w] }) next]
  show concluded conclude (EStateM.bind (readHeaderBlock id piece false) _
    { s with now, log := s.log ++ [.heard w], openHeaderEndStream := endStream }) = _
  unfold EStateM.bind
  rw [readHeaderBlock_piece (s := { s with
    now, log := s.log ++ [.heard w], openHeaderEndStream := endStream }) id short passes]
  unfold put
  dsimp only
  rw [List.append_nil]
  rfl

/-- The last piece has the whole block dealt with. -/
theorem handleFrame_last {s : Conn σ μ} {f : Frame} {id : StreamId} {endStream : Bool}
    {piece : Bytes} (next : s.block.Next id endStream piece true f)
    (short : s.headerBlock.length + piece.length ≤ maxHeaderBlockBytes) :
    handleFrame f s = closing (complete id (s.headerBlock ++ piece) endStream)
      (put ⟨s.openHeaderBlock, endStream, []⟩ s.guard.onHeaderBlockEnd s.log { s with log := [] }) := by
  rw [handleFrame_next next]
  show EStateM.bind (readHeaderBlock id piece true) _ { s with openHeaderEndStream := endStream } = _
  unfold EStateM.bind
  rw [readHeaderBlock_last (s := { s with openHeaderEndStream := endStream }) id short]
  unfold closing put
  dsimp only
  rw [List.append_nil]
  rfl

/-- The same but for the frames heard; and where it goes on, the same of the block and the
    guard as well. -/
structure Agree (s t : Conn σ μ) : Prop where
  alike : Alike s t
  rest : s.stop = none → s.block = t.block ∧ s.guard = t.guard

/-- Once the whole block is there, only what was heard tells how it came. -/
theorem closing_agree (id : StreamId) (block : Bytes) (endStream : Bool) (o o' : Option StreamId)
    (g : Guard) {l l' : List (ConnObs μ)} (h : deeds l = deeds l') (s : Conn σ μ) :
    Agree (concluded conclude (closing (complete id block endStream) (put ⟨o, endStream, []⟩ g l s)))
      (concluded conclude (closing (complete id block endStream) (put ⟨o', endStream, []⟩ g l' s))) := by
  unfold closing
  show Agree (concluded conclude (EStateM.bind (complete id block endStream) _ _))
    (concluded conclude (EStateM.bind (complete id block endStream) _ _))
  unfold EStateM.bind
  rw [(complete_carries id block endStream).run s, (complete_carries id block endStream).run s]
  cases complete id block endStream s with
  | ok u t =>
    show Agree (put ⟨none, endStream, []⟩ g l t) (put ⟨none, endStream, []⟩ g l' t)
    exact ⟨alike_put _ _ _ _ h t, fun _ => ⟨rfl, rfl⟩⟩
  | error e t =>
    show Agree (conclude (.failed e) (put _ g l t)) (conclude (.failed e) (put _ g l' t))
    rw [conclude_carries, conclude_carries]
    exact ⟨alike_put _ _ _ _ h _, nofun⟩

/-! ## A block in pieces -/

/-- A frame is no longer than this end allows. -/
def fits (s : Conn σ μ) (i : Instant × ConnInput) : Bool :=
  match i.2 with
  | .frame w => w.header.length ≤ s.localSettings.maxFrameSize
  | _ => true

/-- What a frame does once it is off the wire. -/
def hear (now : Instant) (f : Frame) (s : Conn σ μ) : Conn σ μ :=
  if s.stop.isSome then s else concluded conclude (handleFrame f { s with now })

/-! ## Between blocks -/

/-- What is kept of a block is left alone, and so is the count of its pieces. -/
structure Unread (s t : Conn σ μ) : Prop where
  block : t.block = s.block
  pieces : t.guard.continuations = s.guard.continuations

instance : Std.Refl (Unread (σ := σ) (μ := μ)) := ⟨fun _ => ⟨rfl, rfl⟩⟩

instance : IsTrans (Conn σ μ) Unread :=
  ⟨fun _ _ _ h h' => ⟨h'.block.trans h.block, h'.pieces.trans h.pieces⟩⟩

omit [Service σ μ] in
/-- What does the same whatever is kept of a block leaves it alone. -/
theorem unread_of_carries {α : Type} {x : ConnM σ μ α}
    (h : ∀ b g l, Carries (put b g l) x) (s : Conn σ μ) : Follows Unread s (x s) := by
  have same := (h s.block s.guard s.log).run { s.bare with now := s.now }
  rw [put_bare] at same
  rw [same]
  cases x { s.bare with now := s.now } with
  | ok a t => exact ⟨rfl, rfl⟩
  | error e t => exact ⟨rfl, rfl⟩

omit [Service σ μ] in
theorem guarded_unread (s : Conn σ μ) {f : Guard → Guard × Verdict}
    (h : (f s.guard).1.continuations = s.guard.continuations) : Follows Unread s (guarded f s) := by
  unfold guarded
  refine .get (.bind (.modify ⟨rfl, h⟩) fun _ t _ => ?_)
  cases (f s.guard).2 with
  | ok => exact .pure _
  | trip signal => exact .throw _

theorem recvData_unread (s : Conn σ μ) (id : StreamId) (data : Bytes) (endStream : Bool) :
    Follows Unread s (recvData id data endStream s) := by
  have counted : (s.guard.onData data.length endStream).1.continuations = s.guard.continuations := by
    unfold Guard.onData
    split <;> rfl
  refine .bind (guarded_unread s counted) fun _ t _ => unread_of_carries (fun b g l => ?_) t
  refine .get (fun _ => rfl) fun s => ?_
  cases s.connRecvWindow.record data.length with
  | error code => exact .throw _
  | ok connRecvWindow =>
    refine .bind (onCore_carries fun _ => rfl) fun _ => .get (fun _ => rfl) fun s => ?_
    cases s.streams.lookup id with
    | idle => exact .throw _
    | closed => exact .bind (releaseConnWindow_carries _) fun _ => writeRstStream_carries ..
    | live stream =>
      refine .bind (onCore_carries fun _ => rfl) fun _ => ?_
      cases stream.recvWindow.record data.length with
      | error code => exact writeRstStream_carries ..
      | ok recvWindow =>
        refine .get (fun _ => rfl) fun s => ?_
        cases if endStream then requestBodyError s id else none with
        | some code => exact writeRstStream_carries ..
        | none =>
          refine .bind (applyStreamEvent_carries ..) fun _ => .ite ?_ drainReclaimed_carries
          exact .get (fun _ => rfl) fun s => .bind (call_carries ..) fun _ => drainReclaimed_carries

theorem recvRstStream_unread (s : Conn σ μ) (id : StreamId) (code : ErrorCode) :
    Follows Unread s (recvRstStream id code s) := by
  refine .get ?_
  cases s.streams.lookup id with
  | idle => exact .throw _
  | closed => exact .pure _
  | live stream =>
    have counted : (s.guard.onReset stream.responseStarted s.now).1.continuations =
        s.guard.continuations := by
      unfold Guard.onReset
      dsimp only
      repeat' split
      all_goals rfl
    exact .get (.bind (guarded_unread s counted) fun _ t _ =>
      unread_of_carries (fun _ _ _ => .bind (abandon_carries id code) fun _ => drainReclaimed_carries) t)

/-- Nothing is left of a block once it is complete. -/
def Settled (s : Conn σ μ) : Prop :=
  s.openHeaderBlock = none → s.headerBlock = [] ∧ s.guard.continuations = 0

omit [Service σ μ] in
theorem Settled.unread {s t : Conn σ μ} (h : s.Settled) (same : Unread s t) : t.Settled := by
  have stream : t.openHeaderBlock = s.openHeaderBlock := congrArg Block.stream same.block
  have buffer : t.headerBlock = s.headerBlock := congrArg Block.buffer same.block
  unfold Settled
  rw [stream, buffer, same.pieces]
  exact h

omit [Service σ μ] in
theorem Settled.follows {α : Type} {s : Conn σ μ} (h : s.Settled)
    {r : EStateM.Result ConnectionError (Conn σ μ) α} (hr : Follows Unread s r) :
    Ends r (fun _ => Settled) fun _ _ => True :=
  Ends.mono hr (fun _ _ ht => h.unread ht) fun _ _ _ => trivial

/-- A fragment leaves its block open, or nothing of it. -/
theorem readFragment_settled (s : Conn σ μ) (id : StreamId) (fragment : Bytes) (endHeaders : Bool) :
    Ends ((do
      readHeaderBlock id fragment endHeaders
      modify fun s => { s with openHeaderBlock := if endHeaders then none else some id }
      pure .continue_ : ConnM σ μ Next) s) (fun _ => Settled) fun _ _ => True := by
  cases endHeaders with
  | false =>
    rw [ends_bind]
    refine Ends.mono (E := fun _ _ => True) (Q := fun _ _ => True) ?_ (fun _ t _ => ?_) fun _ _ h => h
    · cases readHeaderBlock id fragment false s <;> trivial
    · intro closed
      cases closed
  | true =>
    rw [ends_bind]
    by_cases short : s.headerBlock.length + fragment.length ≤ maxHeaderBlockBytes
    · rw [readHeaderBlock_last id short]
      refine Ends.mono (unread_of_carries (fun _ _ _ => complete_carries ..) _) (fun _ t same => ?_)
        fun _ _ _ => trivial
      intro _
      exact ⟨congrArg Block.buffer same.block, same.pieces⟩
    · have failed : Ends (readHeaderBlock id fragment true s) (fun _ _ => False) fun _ _ => True := by
        unfold readHeaderBlock gatherBlock
        rw [ends_bind, ends_bind, ends_get, ends_ite]
        exact ⟨fun _ => trivial, fun no => absurd (Nat.not_lt.mp no) short⟩
      exact failed.mono (fun _ _ h => h.elim) fun _ _ h => h

theorem handleFrame_settled {s : Conn σ μ} (h : s.Settled) (f : Frame) :
    Ends (handleFrame f s) (fun _ => Settled) fun _ _ => True := by
  have control : ∀ s : Conn σ μ, Follows Unread s (guarded (·.onControlFrame s.now) s) := fun s =>
    guarded_unread s rfl
  unfold handleFrame
  rw [ends_bind, ends_get]
  cases s.headerBlockError f.kind f.streamId with
  | some e => trivial
  | none =>
    cases f with
    | settings ack params =>
      cases ack with
      | false =>
        refine h.follows ?_
        exact .bind (control s) fun _ t _ =>
          .bind (unread_of_carries (fun _ _ _ => recvSettings_carries _) t) fun _ _ _ => .pure _
      | true =>
        refine h.follows ?_
        exact .bind (control s) fun _ t _ =>
          .bind (unread_of_carries (fun _ _ _ => recvSettingsAck_carries) t) fun _ _ _ => .pure _
    | ping data ack =>
      refine h.follows ?_
      refine .bind (control s) fun _ t _ => .ite (fun _ => .pure _) fun _ => ?_
      exact .bind (unread_of_carries (fun _ _ _ => queueFrame_carries _) t) fun _ _ _ => .pure _
    | goAway => exact h
    | windowUpdate id increment =>
      refine h.follows ?_
      exact .bind (unread_of_carries (fun _ _ _ => recvWindowUpdate_carries ..) s) fun _ _ _ => .pure _
    | headers id block endStream endHeaders => exact readFragment_settled _ id block endHeaders
    | continuation id block endHeaders => exact readFragment_settled s id block endHeaders
    | data id data endStream =>
      refine h.follows ?_
      exact .bind (recvData_unread s id data endStream) fun _ _ _ => .pure _
    | rstStream id code =>
      refine h.follows ?_
      exact .bind (recvRstStream_unread s id code) fun _ _ _ => .pure _

theorem recvWire_settled {s : Conn σ μ} (h : s.Settled) (w : WireFrame) :
    Ends (recvWire w s) (fun _ => Settled) fun _ _ => True := by
  have heard : (s.withCore (s.toConnCore.observe (.heard w))).Settled := h
  unfold recvWire
  rw [ends_bind, ends_onCore, ends_bind, ends_get, ends_ite]
  refine ⟨fun _ => trivial, fun _ => ?_⟩
  cases w.decode with
  | error e => trivial
  | ok d =>
    cases d with
    | ignored kind id =>
      dsimp only
      generalize s.withCore (s.toConnCore.observe (.heard w)) = t at heard
      cases t.openHeaderBlock with
      | none => exact heard
      | some open_ =>
        dsimp only
        cases t.headerBlockError kind id with
        | none => exact heard
        | some e => trivial
    | frame f => exact handleFrame_settled heard f

theorem step_settled {s : Conn σ μ} (h : s.Settled) (running : s.stop = none)
    (i : Instant × ConnInput) (goesOn : (step i s).stop = none) : (step i s).Settled := by
  cases hi : frameOf i with
  | none =>
    obtain ⟨hb, hg⟩ := step_keeps hi s
    exact h.unread ⟨hb, by rw [hg]⟩
  | some w =>
    rw [frame_of_some hi] at goesOn ⊢
    have kept := recvWire_settled (s := { s with now := i.1 }) h w
    rw [show recvWire w { s with now := i.1 } = _ from step_goes_on running goesOn] at kept
    exact kept

/-- The buffer is empty whenever no block is open, in every run. -/
theorem reachable_settled {s : Conn σ μ} (h : (machine σ μ).Reachable s) (running : s.stop = none) :
    s.Settled := by
  refine h.invariant (I := fun s => s.stop = none → s.Settled) ?_ ?_ running
  · rintro s ⟨service, localSettings, window, limits, policy, admission, now, -, -, -, rfl⟩ - -
    exact ⟨rfl, rfl⟩
  · rintro s i hs - goesOn
    cases hstop : s.stop with
    | some stop =>
      have stopped : (step i s).stop = some stop := by
        rw [step_stopped (by rw [hstop]; rfl), hstop]
      rw [show (machine σ μ).step i s = step i s from rfl, stopped] at goesOn
      cases goesOn
    | none => exact step_settled (hs hstop) hstop i goesOn

/-- The last piece of a block has the effect that the whole of it has. -/
theorem step_last {s t : Conn σ μ} (live : s.stop = none) (now : Instant) {w : WireFrame} {f : Frame}
    {id : StreamId} {endStream : Bool} {piece : Bytes}
    (fits : w.header.length ≤ s.localSettings.maxFrameSize) (decoded : w.decode = .ok (.frame f))
    (next : s.block.Next id endStream piece true f)
    (short : (s.headerBlock ++ piece).length ≤ maxHeaderBlockBytes) (alike : Alike s t)
    (guards : s.guard.onHeaderBlockEnd = t.guard.onHeaderBlockEnd)
    (fresh : t.block = .closed t.openHeaderEndStream) {l : List (ConnObs μ)}
    (same : deeds l = deeds t.log) :
    Agree (step (now, .frame w) s) (concluded conclude
      (handleFrame (.headers id (s.headerBlock ++ piece) endStream true) { t with now, log := l })) := by
  have buffer : t.headerBlock ++ (s.headerBlock ++ piece) = s.headerBlock ++ piece := by
    rw [show t.headerBlock = [] from congrArg Block.buffer fresh, List.nil_append]
  have room : s.headerBlock.length + piece.length ≤ maxHeaderBlockBytes := List.length_append ▸ short
  have room' : t.headerBlock.length + (s.headerBlock ++ piece).length ≤ maxHeaderBlockBytes := by
    rw [← List.length_append, buffer]
    exact short
  rw [step_handles live now fits decoded,
    handleFrame_last (s := { s with now, log := s.log ++ [.heard w] }) next room,
    handleFrame_last (s := { t with now, log := l }) (.headers (congrArg Block.stream fresh)) room']
  show Agree (concluded conclude (closing (complete id (s.headerBlock ++ piece) endStream)
      (put _ s.guard.onHeaderBlockEnd (s.log ++ [.heard w]) { s.bare with now })))
    (concluded conclude (closing (complete id (t.headerBlock ++ (s.headerBlock ++ piece)) endStream)
      (put _ t.guard.onHeaderBlockEnd l { t.bare with now })))
  rw [buffer, guards, alike.bare]
  refine closing_agree id _ endStream _ _ _ ?_ _
  rw [deeds_append, same, alike.deeds]
  exact List.append_nil _

/-- The guard lets so many pieces more pass, and is at a block's end what the other's is. -/
def Pace (n : Nat) (s t : Conn σ μ) : Prop :=
  s.guard.onHeaderBlockEnd = t.guard.onHeaderBlockEnd ∧ s.guard.Bears n

theorem reads : Reads (machine σ μ) (fun now w => (now, .frame w)) frameOf (fits · ·)
    (·.stop = none) block Alike Agree Pace hear where
  wires {i w} heard := ⟨i.1, frame_of_some heard⟩
  beside h other := h.step other
  keeps {s i} _ other := (step_keeps other s).1
  paces {n s t i} _ pace other := by
    show (step i s).guard.onHeaderBlockEnd = (step i t).guard.onHeaderBlockEnd ∧ (step i s).guard.Bears n
    rw [(step_keeps other s).2, (step_keeps other t).2]
    exact pace
  piece {n s t now w f id endStream piece} live fit decoded next short alike pace := by
    obtain ⟨passes, bears⟩ := Guard.Bears.onContinuation pace.2
    have taken := step_piece live now (of_decide_eq_true fit) decoded next (List.length_append ▸ short)
      passes
    show block (step (now, .frame w) s) = _ ∧ Alike (step (now, .frame w) s) t ∧
      Pace n (step (now, .frame w) s) t
    rw [taken]
    refine ⟨rfl, ⟨alike.bare, ?_⟩, pace.1, bears⟩
    show deeds (s.log ++ [.heard w] ++ []) = deeds t.log
    rw [List.append_nil, deeds_append, ← alike.deeds]
    exact List.append_nil _
  last {s t now w f id endStream piece} live fit decoded next short alike pace fresh := by
    have running : t.stop = none := alike.stop ▸ live
    have whole := fun l =>
      step_last (l := l) live now (of_decide_eq_true fit) decoded next short alike pace.1 fresh
    refine ⟨?_, fun w' decodes fit' => ?_⟩
    · unfold hear
      rw [if_neg (by rw [running]; nofun)]
      exact whole _ rfl
    · show Agree (step (now, .frame w) s) (step (now, .frame w') t)
      rw [step_handles running now (of_decide_eq_true fit') decodes]
      refine whole _ ?_
      rw [deeds_append]
      exact List.append_nil _
  deaf stopped := step_stopped (Option.isSome_iff_ne_none.mpr stopped) _
  still stopped := if_pos (Option.isSome_iff_ne_none.mpr stopped)
  stays {s i} stopped := by
    show ¬(step i s).stop = none
    rw [step_stopped (Option.isSome_iff_ne_none.mpr stopped)]
    exact stopped
  alike_live h := by rw [h.stop]
  agree_stopped stopped h := ⟨h, fun live => absurd live stopped⟩

/-- Whatever pieces a header block comes in, and whatever but frames comes between them, it has
    the effect of the one frame that holds all of it, be that longer than a frame may be or not. -/
theorem reassembles {s : Conn σ μ} (h : (machine σ μ).Reachable s) (running : s.stop = none)
    (closed : s.openHeaderBlock = none) {id : StreamId} {endStream : Bool} {pieces : List Bytes}
    {js : List (Instant × ConnInput)} {now : Instant} {last : WireFrame}
    (arrive : Arrive (framesOf frameOf js ++ [last]) (cut id endStream pieces))
    (short : pieces.flatten.length ≤ maxHeaderBlockBytes)
    (few : s.guard.limits.observeOnly = true ∨ pieces.length ≤ s.guard.limits.maxContinuations + 1)
    (fit : (machine σ μ).Meets (fits · ·) s (js ++ [(now, .frame last)])) :
    Agree ((machine σ μ).run s (js ++ [(now, .frame last)]))
        (hear now (.headers id pieces.flatten endStream true) ((machine σ μ).run s (besides frameOf js))) ∧
      ∀ whole : WireFrame, whole.decode = .ok (.frame (.headers id pieces.flatten endStream true)) →
        ((machine σ μ).run s (besides frameOf js)).fits (now, .frame whole) →
          Agree ((machine σ μ).run s (js ++ [(now, .frame last)]))
            ((machine σ μ).run s (besides frameOf js ++ [(now, .frame whole)])) := by
  obtain ⟨empty, counted⟩ := reachable_settled h running closed
  have bears : s.guard.Bears (pieces.length - 1) := by
    rcases few with off | few
    · exact .inl off
    · exact .inr (by rw [counted]; omega)
  have fresh : s.block = .closed s.openHeaderEndStream := by
    unfold block Block.closed
    rw [closed, empty]
  exact reads.reassembled (.refl s) fresh ⟨rfl, bears⟩ arrive short fit

/-- `POST /` on stream 1 in three pieces, one of them empty, and a pass of the scheduler between. -/
def postPiecewise : List (Instant × ConnInput) :=
  [(1, .frame (.ofParts .headers 0 (.new 1) [0x83] (by decide))), (2, .pump 0),
    (3, .frame (.ofParts .continuation 0 (.new 1) [] (by decide)))]

/-- The last piece of `POST /`. -/
def postLast : WireFrame :=
  .ofParts .continuation Flags.endHeaders (.new 1) [0x86, 0x84] (by decide)

theorem reassembles_postPiecewise :
    Agree ((machine Echo Empty).run (withService (.new 4)) (postPiecewise ++ [(4, .frame postLast)]))
      (hear 4 (.headers (.new 1) [0x83, 0x86, 0x84] false true)
        ((machine Echo Empty).run (withService (.new 4)) (besides frameOf postPiecewise))) :=
  (reassembles (.init (fresh_withService _)) rfl rfl
    (show Arrive _ (cut (.new 1) false [[0x83], [], [0x86, 0x84]]) by decide)
    (by decide) (.inr (by decide)) (by decide)).1

/-! ## Nothing between the pieces -/

omit [Service σ μ] in
/-- In an open block only its next piece is in order. -/
theorem continuation_of_inOrder {s : Conn σ μ} {open_ : StreamId} (mid : s.openHeaderBlock = some open_)
    {kind : FrameType} {id : StreamId} (ordered : s.headerBlockError kind id = none) :
    kind = .continuation ∧ id = open_ := by
  unfold headerBlockError at ordered
  rw [mid] at ordered
  dsimp only at ordered
  split at ordered
  · rename_i h
    simpa using h
  · cases ordered

/-- Any frame but the next piece of an open block ends the connection, and not quietly. -/
theorem step_interrupted {s : Conn σ μ} (running : s.stop = none) {open_ : StreamId}
    (mid : s.openHeaderBlock = some open_) (now : Instant) {w : WireFrame}
    (other : ∀ piece last, w.decode ≠ .ok (.frame (.continuation open_ piece last))) :
    ∃ e, (step (now, .frame w) s).stop = some (.failed e) := by
  have refused : Ends (recvWire w { s with now }) (fun _ _ => False) fun _ _ => True := by
    unfold recvWire
    rw [ends_bind, ends_onCore, ends_bind, ends_get, ends_ite]
    refine ⟨fun _ => trivial, fun _ => ?_⟩
    have mid : (({ s with now } : Conn σ μ).withCore
        (s.toConnCore.observe (.heard w))).openHeaderBlock = some open_ := mid
    generalize ({ s with now } : Conn σ μ).withCore (s.toConnCore.observe (.heard w)) = t at mid
    cases hdec : w.decode with
    | error e => trivial
    | ok d =>
      cases d with
      | ignored kind id =>
        dsimp only
        rw [mid]
        dsimp only
        cases ordered : t.headerBlockError kind id with
        | none => exact absurd (continuation_of_inOrder mid ordered).1 (WireFrame.decode_ignored hdec)
        | some e => trivial
      | frame f =>
        show Ends (handleFrame f t) _ _
        unfold handleFrame
        rw [ends_bind, ends_get]
        cases ordered : t.headerBlockError f.kind f.streamId with
        | none =>
          obtain ⟨kind, rfl⟩ := continuation_of_inOrder mid ordered
          obtain ⟨piece, last, hf⟩ := Frame.eq_continuation kind
          exact absurd (hf ▸ hdec) (other piece last)
        | some e => trivial
  rw [step_live running]
  show ∃ e, (concluded conclude (recvWire w { s with now })).stop = _
  cases hr : recvWire w { s with now } with
  | ok next t => rw [hr] at refused; exact refused.elim
  | error e t => exact ⟨e, rfl⟩

/-- The buffer is empty whenever no block is open; and while one is, any frame but its next piece
    ends the connection with an error, frames of kinds that are ignored among them. -/
structure Unbroken (s : Conn σ μ) : Prop where
  settled : s.openHeaderBlock = none → s.headerBlock = []
  interrupted : ∀ open_, s.openHeaderBlock = some open_ → ∀ now (w : WireFrame),
    (∀ piece last, w.decode ≠ .ok (.frame (.continuation open_ piece last))) →
      ∃ e, (step (now, .frame w) s).stop = some (.failed e)

theorem reachable_unbroken {s : Conn σ μ} (h : (machine σ μ).Reachable s) (running : s.stop = none) :
    s.Unbroken :=
  ⟨fun closed => (reachable_settled h running closed).1,
    fun _ mid now _ other => step_interrupted running mid now other⟩

end Conn

end H2Proxy
