import H2Proxy.Dealings
import H2Proxy.Up.Calm
import H2Proxy.Up.Reassembly

/-
  The dealings of an upstream connection with its backend. As on a client connection, between any
  two steps the windows hold what the backend has left them and all is answered
  (`step_dealing`): all DATA is covered (`request_data_covered`), every question is answered in turn
  (`backend_asks_answered`), and every frame is one the backend takes (`request_frames_fit`).
-/

namespace H2Proxy

namespace Upstream

theorem aside_of_plain (o : UpObs) (plain : o.plain) : UpObs.tap.Aside o := by
  cases o with
  | heard w => cases plain
  | queued f => exact .plain rfl rfl plain
  | _ => exact .silent rfl rfl

def outlet (s : Upstream) : Outlet UpObs :=
  ⟨s.log, s.streams, s.streams.highestLocalId, s.streams.highestPeerId, s.connSendWindow,
    s.peerSettings, s.hpackEnc⟩

/-- Nothing is heard or sent that the backend reckons with, and no send window is touched. -/
abbrev Saves : Upstream → Upstream → Prop := H2Proxy.Saves UpObs.tap outlet

variable {s t : Upstream} {α : Type} {due answer : Option Frame}

theorem Calm.saves (h : Calm s t) : Saves s t :=
  ⟨h.log.mono aside_of_plain, h.connSendWindow, h.peerSettings, h.initialSendWindow, h.top, h.other,
    h.encoder, h.windows⟩

/-- The send windows hold what the backend has left them, it has its answers, its frames fit,
    and the encoder keeps to its bound. -/
abbrev Deals (due answer : Option Frame) (s : Upstream) : Prop :=
  s.outlet.Deals UpObs.tap due answer

/-- What is due is dealt with, however a program ends. -/
abbrev Pays (due answer : Option Frame) (r : EStateM.Result ConnectionError Upstream α) : Prop :=
  H2Proxy.Pays UpObs.tap outlet due answer r

theorem Deals.calm {r : EStateM.Result ConnectionError Upstream α} (h : s.Deals due answer)
    (calm : Follows Calm s r) : Pays due answer r :=
  h.follows (calm.mono fun _ => Calm.saves)

/-! ## What only notes and schedules -/

/-- A frame that is queued is noted; one that cannot be encoded is not. -/
theorem queueFrame_outlet (s : Upstream) (f : Frame) :
    Ends (queueFrame f s)
      (fun _ t => t.outlet =
        { s.outlet with log := s.log ++ [.queued f [] s.peerSettings.maxFrameSize] })
      fun _ t => t.outlet = s.outlet := by
  unfold queueFrame queueFields
  cases f.write with
  | error e => rfl
  | ok octets => rfl

theorem queueFrame_saves (s : Upstream) {frame : Frame} (free : ∀ id, frame.spends id = 0)
    (silent : frame.answers = false) (brief : frame.brief) :
    Follows Saves s (queueFrame frame s) := by
  refine (queueFrame_outlet s frame).mono (fun _ t noted => ?_) fun _ t noted => ?_
  · show s.outlet.Steady UpObs.tap t.outlet
    rw [noted]
    refine .note s.outlet ⟨rfl, fun f sent => ?_⟩
    cases sent
    exact ⟨free, silent, brief⟩
  · show s.outlet.Steady UpObs.tap t.outlet
    rw [noted]
    exact .refl s.outlet

/-- The answer that is due is queued. -/
theorem queueFrame_replies {f : Frame} (h : s.Deals due (some f)) (answers : f.answers)
    (brief : f.brief) : Pays due none (queueFrame f s) := by
  refine (queueFrame_outlet s f).mono (fun _ t noted => ?_) fun _ t noted => ?_
  · rw [noted]
    exact h.reply rfl rfl answers brief
  · rw [noted]
    exact h.fair

theorem probeTimer_saves (s : Upstream) : Follows Saves s (probeTimer s) := by
  refine .get ?_
  rcases s.probe.due s.now with ⟨probe, action⟩
  refine .bind (.modify (Outlet.Steady.refl s.outlet)) fun _ t _ => ?_
  cases action with
  | nothing => exact .pure _
  | send nonce => exact .bind (queueFrame_saves t (fun _ => rfl) rfl rfl) fun _ u _ => .pure _
  | expired =>
    refine .bind (.modify (Outlet.Steady.refl t.outlet)) fun _ u _ => ?_
    exact .bind (.modify (Outlet.Steady.refl u.outlet)) fun _ v _ => .pure _

/-! ## Credit and settings -/

/-- The end of `recvSettings`: the windows are moved, in a table that may have another limit. -/
theorem shiftWindows_pays {params : List (UInt16 × UInt32)}
    (h : s.Deals (some (.settings false params)) (some (.settings true []))) {peer : Settings}
    (settled : peer = (s.peerSettings.apply params).1) (live : t.streams.live = s.streams.live)
    (initial : t.streams.initialSendWindow = s.streams.initialSendWindow)
    (same : t.outlet = { s.outlet with
      table := t.streams, peer, encoder := s.hpackEnc.setMaxTableSize peer.headerTableSize }) :
    Pays none none ((do
      let delta : Int := peer.initialWindowSize - s.peerSettings.initialWindowSize
      if delta ≠ 0 then
        let (streams, shifted) := (← get).streams.applyInitialWindowDelta delta
        onCore ({ · with streams })
        match shifted with
        | .error code => fail code "INITIAL_WINDOW_SIZE change overflows"
        | .ok () => queueFrame (.settings true [])
      else queueFrame (.settings true []) : UpM Unit) t) := by
  have due : ({ s.outlet with table := t.streams } : Outlet UpObs).Affords UpObs.tap
      (some (.settings false params)) := h.affords.quiet (.table live initial)
  have log : t.log = s.log := congrArg Outlet.log same
  have encodes : t.outlet.encoder.Within t.outlet.peer.headerTableSize := by
    rw [same, settled]
    exact h.resized params
  unfold Pays H2Proxy.Pays
  simp only [ends_ite, ends_bind, ends_get, ends_onCore]
  constructor
  · intro moved
    cases hshift : (t.streams.applyInitialWindowDelta
        (peer.initialWindowSize - s.peerSettings.initialWindowSize)).2 with
    | error code =>
      show UpObs.tap.Fair t.log
      rw [log]
      exact h.fair
    | ok u =>
      refine queueFrame_replies ?_ rfl rfl
      refine h.act ?_ log encodes
      show Outlet.Affords UpObs.tap none { t.outlet with table := _ }
      rw [same]
      exact due.settle settled rfl hshift
  · intro still
    refine queueFrame_replies ?_ rfl rfl
    refine h.act ?_ log encodes
    rw [same]
    exact due.settle_same settled (not_not.mp still)

theorem recvSettings_pays {params : List (UInt16 × UInt32)}
    (h : s.Deals (some (.settings false params)) (some (.settings true []))) :
    Pays none none (recvSettings params s) := by
  unfold recvSettings Pays H2Proxy.Pays
  rw [ends_bind, ends_get, ends_bind, ends_get]
  dsimp only
  rw [ends_bind, ends_modify]
  cases (s.peerSettings.apply params).2 with
  | error e => exact h.fair
  | ok u =>
    dsimp only
    rw [ends_bind, ends_modify]
    cases (s.peerSettings.apply params).1.maxConcurrentStreams with
    | none => exact shiftWindows_pays h rfl rfl rfl rfl
    | some max =>
      dsimp only
      rw [ends_bind, ends_onCore]
      exact shiftWindows_pays h rfl rfl rfl rfl

/-- Credit that came for a stream is nobody's once the stream is reset. -/
theorem writeRstStream_pays {id : StreamId} {n : Nat} (code : ErrorCode)
    (h : s.Deals (some (.windowUpdate id n)) none) (conn : id ≠ .connection)
    (seen : id ≤ s.streams.highestLocalId) : Pays none none (writeRstStream id code s) := by
  unfold writeRstStream Pays H2Proxy.Pays
  rw [ends_bind, ends_onCore]
  have due : (s.withCore (s.toUpstreamCore.retire id)).Deals (some (.windowUpdate id n)) none :=
    h.quiet (Calm.retire s id).saves
  have retired : (s.withCore (s.toUpstreamCore.retire id)).Deals none none := by
    refine due.act (due.affords.forfeit conn ?_ (Nat.le_trans seen (Calm.retire s id).top)) rfl
      due.encodes
    show (s.streams.retire id).get? id = none
    rw [StreamTable.get?_retire, if_pos rfl]
  exact retired.calm (.bind (unready_calm _ id) fun _ u _ => queueFrame_calm u rfl)

theorem recvWindowUpdate_pays {id : StreamId} {increment : Nat}
    (h : s.Deals (some (.windowUpdate id increment)) none) :
    Pays none none (recvWindowUpdate id increment s) := by
  unfold recvWindowUpdate
  refine ends_ite.mpr ⟨fun zero => ends_ite.mpr ⟨fun _ => h.fair, fun _ => ?_⟩,
    fun _ => ends_ite.mpr ⟨fun conn => ?_, fun conn => ?_⟩⟩
  · subst zero
    exact Deals.calm (h.act h.affords.naught rfl h.encodes) (writeRstStream_calm s id _)
  · cases StreamId.eq_connection conn
    rw [ends_bind, ends_get]
    cases hw : s.connSendWindow.increase increment with
    | error code => exact h.fair
    | ok connSendWindow => exact h.act (h.affords.fund (Window.increase_ok hw).1) rfl h.encodes
  · rw [ends_bind, ends_get]
    cases hlookup : s.streams.lookup id with
    | idle => exact h.fair
    | closed =>
      obtain ⟨gone, seen⟩ := StreamTable.lookup_closed hlookup
      have below := of_decide_eq_true seen
      rw [StreamId.le_max_iff, show s.streams.highestPeerId = .connection from h.affords.other] at below
      refine h.act (h.affords.forfeit (fun same => conn (by rw [same]; rfl)) gone ?_) rfl h.encodes
      exact below.elim (fun zero => Nat.le_trans zero (Nat.zero_le _)) fun le => le
    | live stream =>
      have live := StreamTable.lookup_live.mp hlookup
      obtain ⟨⟨notConn, seen⟩, -⟩ := h.affords.stream id stream live
      dsimp only
      cases hw : stream.sendWindow.increase increment with
      | error code => exact writeRstStream_pays _ h notConn seen
      | ok sendWindow =>
        rw [ends_bind, ends_onCore]
        refine Deals.calm ?_ (enqueueReady_calm _ id)
        exact h.act (h.affords.fundStream live (Window.increase_ok hw).1) rfl h.encodes

/-! ## Frames -/

theorem handleFrame_pays {f : Frame} (h : s.Deals (some f) f.answer?) :
    Pays none none (handleFrame f s) := by
  unfold handleFrame Pays H2Proxy.Pays
  rw [ends_bind, ends_get]
  cases s.headerBlockError f with
  | some e => exact h.fair
  | none =>
    cases f with
    | settings ack params =>
      cases ack with
      | false => exact recvSettings_pays h
      | true => exact h.heed rfl fun _ => rfl
    | ping data ack =>
      cases ack with
      | false =>
        have heeded : s.Deals none (some (.ping data true)) := h.heed rfl fun _ => rfl
        exact queueFrame_replies heeded rfl rfl
      | true =>
        have heeded : s.Deals none none := h.heed rfl fun _ => rfl
        exact ends_ite.mpr ⟨nofun, fun _ => ends_ite.mpr ⟨fun _ => heeded, fun _ => heeded⟩⟩
    | goAway lastStreamId =>
      have heeded : s.Deals none none := h.heed rfl fun _ => rfl
      exact heeded.calm (beginPeerDrain_calm s lastStreamId)
    | windowUpdate id increment => exact recvWindowUpdate_pays h
    | headers id block endStream endHeaders =>
      have heeded : s.Deals none none := h.heed rfl fun _ => rfl
      have noted : ({ s with openHeaderEndStream := endStream } : Upstream).Deals none none := heeded
      dsimp only
      rw [ends_bind, ends_modify]
      exact Pays.bind (noted.calm (readHeaderBlock_calm _ id block endHeaders)) fun _ t ht => ht
    | continuation id block endHeaders =>
      have heeded : s.Deals none none := h.heed rfl fun _ => rfl
      exact Pays.bind (heeded.calm (readHeaderBlock_calm s id block endHeaders)) fun _ t ht => ht
    | data id data endStream =>
      have heeded : s.Deals none none := h.heed rfl fun _ => rfl
      exact heeded.calm (recvData_calm s id data endStream)
    | rstStream id code =>
      have heeded : s.Deals none none := h.heed rfl fun _ => rfl
      exact heeded.calm (recvRstStream_calm s id code)

theorem recvWire_pays (h : s.Deals none none) (w : WireFrame) : Pays none none (recvWire w s) := by
  have heard : UpObs.tap.Fair (s.withCore (s.toUpstreamCore.observe (.heard w))).log := h.heard rfl
  unfold recvWire Pays H2Proxy.Pays
  rw [ends_bind, ends_onCore, ends_bind, ends_get, ends_ite]
  refine ⟨fun _ => heard, fun _ => ?_⟩
  cases hdec : w.decode with
  | error e => exact heard
  | ok d =>
    cases d with
    | ignored kind id =>
      have unknown : w.frame? = none := by
        unfold WireFrame.frame?
        rw [hdec]
      have kept : (s.withCore (s.toUpstreamCore.observe (.heard w))).Deals none none :=
        h.quiet (.note s.outlet (.silent unknown rfl))
      dsimp only
      generalize s.withCore (s.toUpstreamCore.observe (.heard w)) = t at kept
      unfold rejectIfMidHeaderBlock
      rw [ends_bind, ends_get]
      cases t.openHeaderBlock with
      | none => exact kept
      | some open_ => exact kept.fair
    | frame f =>
      refine handleFrame_pays ?_
      exact h.hear (WireFrame.frame?_of_decode hdec) rfl

/-! ## The scheduler -/

theorem withCore_connSendWindow (s : Upstream) (c : UpstreamCore) :
    (s.withCore c).connSendWindow = s.connSendWindow := rfl

/-- A chunk that both windows hold and one frame takes is taken from both and sent. -/
theorem transmit_pays {id : StreamId} {stream st : Stream} {turn : Stream.Turn}
    (h : s.Deals none none) (live : s.streams.get? id = some st)
    (same : st.sendWindow = stream.sendWindow)
    (own : turn.chunk.length ≤ stream.sendWindow.sendable)
    (conn : turn.chunk.length ≤ s.connSendWindow.sendable)
    (short : turn.chunk.length ≤ s.peerSettings.maxFrameSize) :
    Ends (spend id stream turn.chunk.length s) (fun _ t => Pays none none (transmit id turn t))
      fun _ _ => False := by
  have applied : ∀ t : Upstream, t.Deals none none →
      Pays none none (applyStreamEvent id (.sendData turn.endStream) t) :=
    fun t ht => ht.calm (applyStreamEvent_calm t id _)
  have failed : ∀ t u : Upstream, t.log = s.log → u.outlet = t.outlet →
      UpObs.tap.Fair u.outlet.log := by
    intro t u log noted
    rw [noted]
    show Tap.Fair _ t.log
    rw [log]
    exact h.fair
  unfold Window.sendable at own conn
  unfold spend
  refine ends_ite.mpr ⟨fun some_ => ?_, fun none_ => ?_⟩
  · rw [Window.consume_of_le (w := stream.sendWindow) (by omega)]
    dsimp only
    rw [ends_bind, ends_onCore, ends_bind, ends_get, withCore_connSendWindow,
      Window.consume_of_le (w := s.connSendWindow) (by omega)]
    dsimp only
    rw [ends_modify]
    unfold transmit Pays H2Proxy.Pays
    rw [ends_ite]
    refine ⟨fun _ => ?_, fun idle => absurd (by simp [some_]) idle⟩
    rw [ends_bind]
    refine (queueFrame_outlet _ _).mono (fun _ t noted => applied t ?_) fun _ t => failed _ t rfl
    have spentOwn : (⟨stream.sendWindow.available - turn.chunk.length⟩ : Window).available =
        st.sendWindow.available - turn.chunk.length := by rw [same]
    have spent : (⟨s.connSendWindow.available - turn.chunk.length⟩ : Window).available =
        s.outlet.window.available - turn.chunk.length := rfl
    unfold Deals
    rw [noted]
    refine h.pay live
      (a := .queued (.data id turn.chunk turn.endStream) [] s.peerSettings.maxFrameSize) rfl rfl
      spentOwn spent ?_ short
    dsimp only
    omega
  · rw [ends_pure]
    unfold transmit Pays H2Proxy.Pays
    rw [ends_ite]
    refine ⟨fun _ => ?_, fun _ => h⟩
    rw [ends_bind]
    have empty : turn.chunk.length = 0 := by omega
    refine (queueFrame_outlet _ _).mono (fun _ t noted => applied t ?_) fun _ t => failed _ t rfl
    unfold Deals
    rw [noted]
    exact h.quiet (.note s.outlet (.emptyData rfl rfl (List.length_eq_zero_iff.mp empty)))

theorem budget_le (s : Upstream) (stream : Stream) :
    s.budget stream ≤ stream.sendWindow.sendable ∧ s.budget stream ≤ s.connSendWindow.sendable ∧
      s.budget stream ≤ s.peerSettings.maxFrameSize := by
  unfold budget
  omega

theorem visitReadyStream_pays (h : s.Deals none none) (id : StreamId) :
    Pays none none (visitReadyStream id s) := by
  unfold visitReadyStream Pays H2Proxy.Pays
  rw [ends_bind, ends_get]
  cases hlive : s.streams.get? id with
  | none => exact h
  | some stream =>
    dsimp only
    rw [ends_ite]
    refine ⟨fun _ => ?_, fun _ => ?_⟩
    · exact h.quiet (Outlet.Steady.modify s.outlet id fun _ _ => rfl)
    generalize hturn : stream.turn (s.budget stream) = turn
    have rest : turn.rest.sendWindow = stream.sendWindow := by rw [← hturn]; rfl
    have fits : turn.chunk.length ≤ s.budget stream := by
      rw [← hturn]
      exact stream.turn_chunk_length _
    obtain ⟨own, conn, short⟩ := s.budget_le stream
    have taken : (s.withCore (s.toUpstreamCore.modifyStream id fun _ => turn.rest)).Deals none none := by
      refine h.quiet (Outlet.Steady.modify s.outlet id fun st hst => ?_)
      cases hlive.symm.trans hst
      exact rest
    have here : (s.toUpstreamCore.modifyStream id fun _ => turn.rest).streams.get? id =
        some turn.rest := by
      show (s.streams.modify id _).get? id = _
      rw [StreamTable.get?_modify, if_pos rfl, hlive]
      rfl
    rw [ends_bind, ends_onCore, ends_ite]
    refine ⟨fun _ => taken, fun _ => ?_⟩
    rw [ends_bind]
    refine (transmit_pays taken here rest (Nat.le_trans fits own) (Nat.le_trans fits conn)
      (Nat.le_trans fits short)).mono (fun _ t sends => ?_) fun _ _ no => no.elim
    refine Pays.bind sends fun _ u hu => Pays.bind (Deals.calm hu (reportAccepted_calm u id _))
      fun _ v hv => ?_
    cases turn.trailers with
    | none => exact hv
    | some fields => exact Pays.bind (Deals.calm hv (transmitTrailers_calm v id fields)) fun _ w hw => hw

theorem visitLap_pays (h : s.Deals none none) (ids : List StreamId) :
    Pays none none (visitLap ids s) := by
  induction ids generalizing s with
  | nil => exact h
  | cons id lap ih =>
    exact Pays.bind (visitReadyStream_pays h id) fun _ t ht => Pays.bind (ih ht) fun _ u hu => hu

theorem pumpLap_pays (h : s.Deals none none) : Pays none none (pumpLap s) := by
  have visited : Pays none none (visitLap s.ready { s with ready := [] }) :=
    visitLap_pays (s := { s with ready := [] }) h s.ready
  unfold pumpLap Pays H2Proxy.Pays
  rw [ends_bind, ends_get, ends_bind, ends_modify]
  exact visited.bind fun _ t ht => Pays.bind (Deals.calm ht (requeue_calm t _)) fun _ u hu => hu

theorem pumpLaps_pays (h : s.Deals none none) (fuel : Nat) : Pays none none (pumpLaps fuel s) := by
  induction fuel generalizing s with
  | zero => exact h
  | succ fuel ih =>
    unfold pumpLaps Pays H2Proxy.Pays
    rw [ends_bind, ends_get, ends_ite]
    refine ⟨fun _ => h, fun _ => Pays.bind (pumpLap_pays h) fun wrote t ht => ?_⟩
    exact ends_ite.mpr ⟨fun _ => ih ht, fun _ => ht⟩

theorem pumpOutbound_pays (h : s.Deals none none) : Pays none none (pumpOutbound s) := by
  unfold pumpOutbound Pays H2Proxy.Pays
  rw [ends_bind, ends_get]
  exact pumpLaps_pays h _

/-! ## Steps and runs -/

theorem react_pays (h : s.Deals none none) (input : UpInput) : Pays none none (react input s) := by
  cases input with
  | frame w => exact Pays.bind (recvWire_pays h w) fun _ t ht => ht
  | message m => exact Pays.bind (h.calm (handleMessage_calm s m)) fun _ t ht => ht
  | pump => exact Pays.bind (pumpOutbound_pays h) fun _ t ht => ht
  | wrote n => exact h
  | heard => exact h
  | probe => exact h.follows (probeTimer_saves s)
  | drained => exact h
  | hangup => exact h

/-- The end of a connection asks and answers nothing. -/
theorem conclude_aside (stop : Stop) (s : Upstream) :
    Adds UpObs.tap.Aside s.log (conclude stop s).log := by
  have told : ∀ t : Upstream, Adds UpObs.tap.Aside t.log t.failAllRoutes.log := by
    intro t
    refine ⟨_, List.append_assoc .., fun o ho => ?_⟩
    obtain ho | ho := List.mem_append.mp ho
    · obtain ⟨p, -, rfl⟩ := List.mem_map.mp ho
      exact .silent rfl rfl
    · obtain ⟨r, -, rfl⟩ := List.mem_map.mp ho
      exact .silent rfl rfl
  cases stop with
  | quiet => exact told s
  | failed e =>
    have queued : Follows Saves s
        (queueFrame (.goAway s.streams.highestLocalId e.code (ascii e.debug)) s) :=
      queueFrame_saves s (fun _ => rfl) rfl rfl
    unfold conclude
    dsimp only
    generalize queueFrame (.goAway s.streams.highestLocalId e.code (ascii e.debug)) s = r at queued
    cases r with
    | error e' t =>
      have saved : Saves s t := queued
      exact saved.log.trans (told t)
    | ok u t =>
      have saved : Saves s t := queued
      exact saved.log.trans (told t)

/-- Between two steps a running connection deals, and what was ever sent was fair. -/
def Dealing (s : Upstream) : Prop := s.outlet.Dealing UpObs.tap (s.stop = none)

theorem step_dealing (h : s.Dealing) (i : Instant × UpInput) : (step i s).Dealing := by
  cases hs : s.stop with
  | some stop =>
    have stopped : ¬s.stop = none := by rw [hs]; nofun
    refine ⟨?_, fun running => absurd running (step_stays stopped i)⟩
    rw [step_ended (by rw [hs]; rfl)]
    cases i.2 with
    | message m =>
      cases m with
      | request => exact h.fair.aside (.one (.silent rfl rfl))
      | _ => exact h.fair
    | _ => exact h.fair
  | none =>
    rw [step_live hs]
    have deals : ({ s with now := i.1 } : Upstream).Deals none none := h.running hs
    exact (react_pays deals i.2).concluded (fun s : Upstream => s.stop = none) (fun _ _ => nofun)
      conclude_aside

theorem Fresh.dealing (h : Fresh s) : s.Dealing := by
  obtain ⟨tuning, idle, timeout, now, -, -, rfl⟩ := h
  have aside : Adds UpObs.tap.Aside [] (start tuning idle timeout now).log := by
    refine ⟨_, rfl, fun o ho => ⟨?_, fun f sent => ?_⟩⟩
    all_goals obtain rfl | rfl : o = _ ∨ o = _ := by simpa [start] using ho
    · rfl
    · rfl
    · cases sent
      exact ⟨fun _ => rfl, rfl, Settings.toFrame_brief _⟩
    · cases sent
      exact ⟨fun _ => rfl, rfl, rfl⟩
  have deals : (.start tuning idle timeout now : Upstream).Deals none none :=
    .start aside (fun _ => rfl) rfl ⟨.new _, rfl, show (4096 : Nat) < 2 ^ 32 by decide⟩
  exact ⟨deals.fair, fun _ => deals⟩

/-- In every run an upstream connection is fair to its backend, and deals while it runs. -/
theorem reach_dealing (h : machine.Reachable s) : s.Dealing :=
  h.invariant (I := Dealing) (fun _ fresh => Fresh.dealing fresh) fun _ i hs _ => step_dealing hs i

/-- In every run of an upstream connection no DATA exceeds what the backend has granted its
    stream and the connection when it is sent: WINDOW_UPDATEs and the `INITIAL_WINDOW_SIZE` then in
    force, less the DATA sent before. While it runs, its send windows are what is left. -/
theorem request_data_covered (h : machine.Reachable s) :
    UpObs.tap.Covered s.log ∧ (s.stop = none →
      s.connSendWindow.available = UpObs.tap.credit s.log .connection ∧
      ∀ id st, s.streams.get? id = some st →
        st.sendWindow.available = UpObs.tap.credit s.log id) := by
  have dealing := reach_dealing h
  exact ⟨dealing.fair.covered, fun running => (dealing.running running).affords.credit⟩

/-- A request with a body of three octets, which is sent. -/
def uploaded : List (Instant × UpInput) :=
  [(0, .message (.request ⟨1⟩ (.new 1) ⟨ascii "POST", ascii "http", none, ascii "/", []⟩ false ⟨0⟩)),
    (1, .message (.body ⟨1⟩ [1, 2, 3] true)), (2, .pump)]

theorem request_data_covered_uploaded :
    UpObs.tap.credit (machine.run (.start .default 0 0 0) uploaded).log .connection = 65532 := by
  have fresh : Fresh (.start .default 0 0 0) := ⟨.default, 0, 0, 0, by decide, by decide, rfl⟩
  have reached : machine.Reachable (machine.run (.start .default 0 0 0) uploaded) :=
    Machine.Reach.run (.init fresh) _ (by simp [uploaded, Machine.Meets])
  rw [← ((request_data_covered reached).2 (by decide +kernel)).1]
  decide +kernel

/-- In every run of an upstream connection the acknowledgements sent, of SETTINGS and of PINGs each
    with its octets, are at every moment the first of those the backend asked for, in order; and
    while the connection runs they are all of them. -/
theorem backend_asks_answered (h : machine.Reachable s) :
    UpObs.tap.Punctual s.log ∧
      (s.stop = none → UpObs.tap.answered s.log = UpObs.tap.owed s.log) := by
  have dealing := reach_dealing h
  exact ⟨dealing.fair.punctual, dealing.answered⟩

/-- The backend pings, and sends SETTINGS that change nothing. -/
def backendAsks : List (Instant × UpInput) :=
  [(0, .frame (.ofParts .ping 0 .connection [8, 7, 6, 5, 4, 3, 2, 1] (by decide))),
    (1, .frame (.ofParts .settings 0 .connection [] (show 0 < 4 ^ 12 by decide))), (2, .pump)]

theorem backend_asks_answered_both :
    UpObs.tap.answered (machine.run (.start .default 0 0 0) backendAsks).log =
      [.ping ⟨[8, 7, 6, 5, 4, 3, 2, 1], rfl⟩ true, .settings true []] := by
  have fresh : Fresh (.start .default 0 0 0) := ⟨.default, 0, 0, 0, by decide, by decide, rfl⟩
  have reached : machine.Reachable (machine.run (.start .default 0 0 0) backendAsks) :=
    Machine.Reach.run (.init fresh) _ (by simp [backendAsks, Machine.Meets])
  rw [(backend_asks_answered reached).2 (by decide +kernel)]
  decide +kernel

/-- In every run of an upstream connection no frame it queued but HEADERS and GOAWAY is longer than
    the `MAX_FRAME_SIZE` that the backend's SETTINGS heard by then ask for, however they change. -/
theorem request_frames_fit (h : machine.Reachable s) : UpObs.tap.Fitting s.log :=
  (reach_dealing h).fair.fitting

theorem request_frames_fit_uploaded :
    UpObs.tap.Fitting (machine.run (.start .default 0 0 0) uploaded).log := by
  have fresh : Fresh (.start .default 0 0 0) := ⟨.default, 0, 0, 0, by decide, by decide, rfl⟩
  exact request_frames_fit (Machine.Reach.run (.init fresh) _ (by simp [uploaded, Machine.Meets]))

end Upstream

end H2Proxy
