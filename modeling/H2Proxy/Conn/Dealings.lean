import H2Proxy.Conn.Calm
import H2Proxy.Conn.Reassembly
import H2Proxy.Conn.Windows
import H2Proxy.Dealings

/-
  The dealings of a client connection with its client.

  Every function but a few only notes and schedules (`Saves`). WINDOW_UPDATE and SETTINGS move the
  windows as they move the client's account; the handlers of SETTINGS and PING queue the answer
  that is due as their last act; a visit of the scheduler takes from both windows what it sends,
  and cuts it to the size in force. So between any two steps the windows hold what the client has
  left them and all is answered (`step_dealing`): all DATA is covered (`data_covered`), nothing is
  answered out of turn or left unanswered (`asks_answered`), and no frame is longer than the client
  takes (`frames_fit`).
-/

namespace H2Proxy

namespace Conn

variable {σ μ : Type}

theorem aside_of_plain (o : ConnObs μ) (plain : o.plain) : (ConnObs.tap μ).Aside o := by
  cases o with
  | heard w => cases plain
  | queued f => exact .plain rfl rfl plain
  | _ => exact .silent rfl rfl

def outlet (s : Conn σ μ) : Outlet (ConnObs μ) :=
  ⟨s.log, s.streams, s.streams.highestPeerId, s.streams.highestLocalId, s.connSendWindow,
    s.peerSettings, s.hpackEnc⟩

/-- Nothing is heard or sent that the client reckons with, and no send window is touched. -/
abbrev Saves : Conn σ μ → Conn σ μ → Prop := H2Proxy.Saves (ConnObs.tap μ) outlet

variable {s t : Conn σ μ} {α : Type} {due answer : Option Frame}

theorem Calm.saves (h : Calm s t) : Saves s t :=
  ⟨h.core.log.mono aside_of_plain, h.connSendWindow, h.peerSettings,
    h.core.initialSendWindow, h.core.top, h.core.own, h.encoder,
    h.core.windows⟩

/-- The send windows hold what the client has left them, it has its answers, its frames fit, and
    the encoder keeps to its bound. -/
abbrev Deals (due answer : Option Frame) (s : Conn σ μ) : Prop :=
  s.outlet.Deals (ConnObs.tap μ) due answer

/-- What is due is dealt with, however a program ends. -/
abbrev Pays (due answer : Option Frame) (r : EStateM.Result ConnectionError (Conn σ μ) α) : Prop :=
  H2Proxy.Pays (ConnObs.tap μ) outlet due answer r

theorem Deals.calm {r : EStateM.Result ConnectionError (Conn σ μ) α} (h : s.Deals due answer)
    (calm : Follows Calm s r) : Pays due answer r :=
  h.follows (calm.mono fun _ => Calm.saves)

/-! ## What only notes and schedules -/

/-- A frame that is queued is noted; one that cannot be encoded is not. -/
theorem queueFrame_outlet (s : Conn σ μ) (f : Frame) :
    Ends (queueFrame f s)
      (fun _ t => t.outlet = { s.outlet with log := s.log ++ [.queued f [] s.limit] })
      fun _ t => t.outlet = s.outlet := by
  unfold queueFrame queueFields
  cases f.write with
  | error e => rfl
  | ok octets => rfl

theorem queueFrame_saves (s : Conn σ μ) {frame : Frame} (free : ∀ id, frame.spends id = 0)
    (silent : frame.answers = false) (brief : frame.brief) :
    Follows Saves s (queueFrame frame s) := by
  refine (queueFrame_outlet s frame).mono (fun _ t noted => ?_) fun _ t noted => ?_
  · show s.outlet.Steady (ConnObs.tap μ) t.outlet
    rw [noted]
    refine .note s.outlet ⟨rfl, fun f sent => ?_⟩
    cases sent
    exact ⟨free, silent, brief⟩
  · show s.outlet.Steady (ConnObs.tap μ) t.outlet
    rw [noted]
    exact .refl s.outlet

/-- The answer that is due is queued. -/
theorem queueFrame_replies {f : Frame} (h : s.Deals due (some f)) (answers : f.answers)
    (brief : f.brief) : Pays due none (queueFrame f s) := by
  refine (queueFrame_outlet s f).mono (fun _ t noted => ?_) fun _ t noted => ?_
  · rw [noted]
    exact h.reply rfl rfl answers brief
  · rw [noted]
    exact h.fair

theorem recvSettingsAck_saves (s : Conn σ μ) : Follows Saves s (recvSettingsAck s) := by
  refine .bind (.modify (Outlet.Steady.refl s.outlet)) fun _ t _ => .get ?_
  refine .ite (fun _ => ?_) fun _ => .pure _
  refine .bind (.modify (Outlet.Steady.refl t.outlet)) fun _ u _ => ?_
  exact .modify (Outlet.Steady.table rfl rfl)

theorem syncAdmission_saves (s : Conn σ μ) (budget : Nat) :
    Follows Saves s (syncAdmission budget s) := by
  refine .get (.ite (fun _ => .pure _) fun _ => ?_)
  refine .bind (.modify (Outlet.Steady.refl s.outlet)) fun _ t _ => .ite (fun _ => ?_) fun _ =>
    queueFrame_saves t (fun _ => rfl) rfl rfl
  refine .bind (.modify (Outlet.Steady.refl t.outlet)) fun _ u _ => ?_
  exact .bind (.modify (Outlet.Steady.table rfl rfl)) fun _ v _ =>
    queueFrame_saves v (fun _ => rfl) rfl rfl

theorem requeue_saves (s : Conn σ μ) (ids : List StreamId) : Follows Saves s (requeue ids s) := by
  induction ids generalizing s with
  | nil => exact .pure _
  | cons id ids ih =>
    exact .bind (.modify (Outlet.Steady.modify s.outlet id fun _ _ => rfl)) fun _ t _ => ih t

/-! ## Credit and settings -/

theorem recvSettings_pays {params : List (UInt16 × UInt32)}
    (h : s.Deals (some (.settings false params)) (some (.settings true []))) :
    Pays none none (recvSettings params s) := by
  unfold recvSettings Pays H2Proxy.Pays
  simp only [ends_bind, ends_get, ends_modify]
  cases (s.peerSettings.apply params).2 with
  | error e => exact h.fair
  | ok u =>
    simp only [ends_bind, ends_modify, ends_ite, ends_get, ends_onCore]
    constructor
    · intro moved
      cases hshift : (s.streams.applyInitialWindowDelta
          ((s.peerSettings.apply params).1.initialWindowSize - s.peerSettings.initialWindowSize)).2 with
      | error code => exact h.fair
      | ok u =>
        refine queueFrame_replies ?_ rfl rfl
        exact h.act (h.affords.settle rfl rfl hshift) rfl (h.resized params)
    · intro same
      refine queueFrame_replies ?_ rfl rfl
      exact h.act (h.affords.settle_same rfl (not_not.mp same)) rfl (h.resized params)

variable [Service σ μ]

/-- Credit that came for a stream is nobody's once the stream is reset. -/
theorem writeRstStream_pays {id : StreamId} {n : Nat} (code : ErrorCode)
    (h : s.Deals (some (.windowUpdate id n)) none) (conn : id ≠ .connection)
    (seen : id ≤ s.streams.highestPeerId) : Pays none none (writeRstStream id code s) := by
  have retired : (s.withCore { s.toConnCore with streams := s.streams.retire id }).Deals none none := by
    have same : (s.streams.retire id).initialSendWindow = s.streams.initialSendWindow := by
      unfold StreamTable.retire
      split <;> rfl
    have due : Outlet.Affords (ConnObs.tap μ) (some (.windowUpdate id n))
        { s.outlet with table := s.streams.retire id } :=
      h.affords.quiet (.retire s.outlet id rfl same)
    have gone : (s.streams.retire id).get? id = none := by
      rw [StreamTable.get?_retire, if_pos rfl]
    have rest := due.forfeit conn gone seen
    refine h.act ?_ rfl h.encodes
    unfold outlet
    rw [withCore_toConnCore]
    dsimp only
    rw [StreamTable.retire_top, StreamTable.retire_highestLocalId]
    exact rest
  have abandoned : Pays none none (abandon id code s) := by
    unfold abandon Pays H2Proxy.Pays
    rw [ends_bind, ends_get, ends_bind, ends_onCore]
    exact retired.calm (.bind (unready_calm _ id) fun _ u _ => .onCore (.call _ _ _))
  exact abandoned.bind fun _ t ht =>
    Deals.calm ht (.bind (drainReclaimed_calm t) fun _ u _ => queueFrame_calm u rfl)

theorem recvWindowUpdate_pays {id : StreamId} {increment : Nat}
    (h : s.Deals (some (.windowUpdate id increment)) none) :
    Pays none none (recvWindowUpdate id increment s) := by
  unfold recvWindowUpdate
  refine ends_ite.mpr ⟨fun zero => ends_ite.mpr ⟨fun _ => h.fair, fun _ => ?_⟩,
    fun _ => ends_ite.mpr ⟨fun conn => ?_, fun conn => ?_⟩⟩
  · subst zero
    exact Deals.calm (h.act h.affords.naught rfl h.encodes) (writeRstStream_calm s id _)
  · cases StreamId.eq_connection conn
    rw [ends_bind, ends_get]
    cases hw : s.connSendWindow.increase increment with
    | error code => exact h.fair
    | ok connSendWindow => exact h.act (h.affords.fund (Window.increase_ok hw).1) rfl h.encodes
  · rw [ends_bind, ends_get]
    cases hlookup : s.streams.lookup id with
    | idle => exact h.fair
    | closed =>
      obtain ⟨gone, seen⟩ := StreamTable.lookup_closed hlookup
      have below := of_decide_eq_true seen
      rw [StreamId.le_max_iff, show s.streams.highestLocalId = .connection from h.affords.other] at below
      refine h.act (h.affords.forfeit (fun same => conn (by rw [same]; rfl)) gone ?_) rfl h.encodes
      exact below.elim (fun le => le) fun zero => Nat.le_trans zero (Nat.zero_le _)
    | live stream =>
      have live := StreamTable.lookup_live.mp hlookup
      obtain ⟨⟨notConn, seen⟩, -⟩ := h.affords.stream id stream live
      dsimp only
      cases hw : stream.sendWindow.increase increment with
      | error code => exact writeRstStream_pays _ h notConn seen
      | ok sendWindow =>
        rw [ends_bind, ends_onCore]
        refine Deals.calm ?_ (enqueueReady_calm _ id)
        exact h.act (h.affords.fundStream live (Window.increase_ok hw).1) rfl h.encodes

/-! ## Frames -/

theorem handleFrame_pays {f : Frame} (h : s.Deals (some f) f.answer?) :
    Pays none none (handleFrame f s) := by
  have last : ∀ t : Conn σ μ, t.Deals none none →
      Pays none none ((pure Next.continue_ : ConnM σ μ Next) t) := fun t ht => ht
  have setBlock : ∀ (t : Conn σ μ) open_, t.Deals none none → Pays none none ((do
      modify fun s => { s with openHeaderBlock := open_ }
      pure .continue_ : ConnM σ μ Next) t) := fun t open_ ht => ht
  unfold handleFrame Pays H2Proxy.Pays
  rw [ends_bind, ends_get]
  cases s.headerBlockError f.kind f.streamId with
  | some e => exact h.fair
  | none =>
    cases f with
    | settings ack params =>
      cases ack with
      | false =>
        exact Pays.bind (h.calm (calm_guarded s _)) fun _ t ht =>
          Pays.bind (recvSettings_pays ht) fun _ u hu => last u hu
      | true =>
        have heeded : s.Deals none none := h.heed rfl fun _ => rfl
        exact Pays.bind (heeded.calm (calm_guarded s _)) fun _ t ht =>
          Pays.bind (ht.follows (recvSettingsAck_saves t)) fun _ u hu => last u hu
    | ping data ack =>
      cases ack with
      | false =>
        have heeded : s.Deals none (some (.ping data true)) := h.heed rfl fun _ => rfl
        exact Pays.bind (heeded.calm (calm_guarded s _)) fun _ t ht =>
          Pays.bind (queueFrame_replies ht rfl rfl) fun _ u hu => last u hu
      | true =>
        have heeded : s.Deals none none := h.heed rfl fun _ => rfl
        exact Pays.bind (heeded.calm (calm_guarded s _)) fun _ t ht => last t ht
    | goAway => exact h.heed rfl fun _ => rfl
    | windowUpdate id increment =>
      exact Pays.bind (recvWindowUpdate_pays h) fun _ t ht => last t ht
    | headers id block endStream endHeaders =>
      have heeded : s.Deals none none := h.heed rfl fun _ => rfl
      have noted : ({ s with openHeaderEndStream := endStream } : Conn σ μ).Deals none none := heeded
      dsimp only
      rw [ends_bind, ends_modify]
      exact Pays.bind (noted.calm (readHeaderBlock_calm _ id block endHeaders)) fun _ t ht =>
        setBlock t _ ht
    | continuation id block endHeaders =>
      have heeded : s.Deals none none := h.heed rfl fun _ => rfl
      exact Pays.bind (heeded.calm (readHeaderBlock_calm s id block endHeaders)) fun _ t ht =>
        setBlock t _ ht
    | data id data endStream =>
      have heeded : s.Deals none none := h.heed rfl fun _ => rfl
      exact Pays.bind (heeded.calm (recvData_calm s id data endStream)) fun _ t ht => last t ht
    | rstStream id code =>
      have heeded : s.Deals none none := h.heed rfl fun _ => rfl
      exact Pays.bind (heeded.calm (recvRstStream_calm s id code)) fun _ t ht => last t ht

theorem recvWire_pays (h : s.Deals none none) (w : WireFrame) : Pays none none (recvWire w s) := by
  have heard : (ConnObs.tap μ).Fair (s.withCore (s.toConnCore.observe (.heard w))).log := h.heard rfl
  unfold recvWire Pays H2Proxy.Pays
  rw [ends_bind, ends_onCore, ends_bind, ends_get, ends_ite]
  refine ⟨fun _ => heard, fun _ => ?_⟩
  cases hdec : w.decode with
  | error e => exact heard
  | ok d =>
    cases d with
    | ignored kind id =>
      have unknown : w.frame? = none := by
        unfold WireFrame.frame?
        rw [hdec]
      have kept : (s.withCore (s.toConnCore.observe (.heard w))).Deals none none :=
        h.quiet (.note s.outlet (.silent unknown rfl))
      dsimp only
      generalize s.withCore (s.toConnCore.observe (.heard w)) = t at kept
      cases t.openHeaderBlock with
      | none => exact kept
      | some open_ =>
        dsimp only
        cases t.headerBlockError kind id with
        | none => exact kept
        | some e => exact kept.fair
    | frame f =>
      refine handleFrame_pays ?_
      exact h.hear (WireFrame.frame?_of_decode hdec) rfl

/-! ## The scheduler -/

/-- A chunk that both windows hold and one frame takes is taken from both and sent. -/
theorem transmit_pays {id : StreamId} {stream st : Stream} {turn : Stream.Turn}
    (h : s.Deals none none) (live : s.streams.get? id = some st)
    (same : st.sendWindow = stream.sendWindow)
    (own : turn.chunk.length ≤ stream.sendWindow.sendable)
    (conn : turn.chunk.length ≤ s.connSendWindow.sendable)
    (short : turn.chunk.length ≤ s.peerSettings.maxFrameSize) :
    Ends (spend id stream turn.chunk.length s) (fun _ t => Pays none none (transmit id turn t))
      fun _ _ => False := by
  have applied : ∀ t : Conn σ μ, t.Deals none none →
      Pays none none (applyStreamEvent id (.sendData turn.endStream) "response data" t) :=
    fun t ht => ht.calm (applyStreamEvent_calm t id _ _)
  have failed : ∀ t u : Conn σ μ, t.log = s.log → u.outlet = t.outlet →
      (ConnObs.tap μ).Fair u.outlet.log := by
    intro t u log noted
    rw [noted]
    show Tap.Fair _ t.log
    rw [log]
    exact h.fair
  unfold Window.sendable at own conn
  unfold spend
  refine ends_ite.mpr ⟨fun some_ => ?_, fun none_ => ?_⟩
  · rw [ends_bind, ends_get, Window.consume_of_le (w := stream.sendWindow) (by omega),
      Window.consume_of_le (w := s.connSendWindow) (by omega)]
    dsimp only
    rw [ends_bind, ends_onCore, ends_modify]
    unfold transmit Pays H2Proxy.Pays
    rw [ends_ite]
    refine ⟨fun _ => ?_, fun idle => absurd (by simp [some_]) idle⟩
    rw [ends_bind]
    refine (queueFrame_outlet _ _).mono (fun _ t noted => applied t ?_) fun _ t => failed _ t rfl
    have spentOwn : (⟨stream.sendWindow.available - turn.chunk.length⟩ : Window).available =
        st.sendWindow.available - turn.chunk.length := by rw [same]
    have spent : (⟨s.connSendWindow.available - turn.chunk.length⟩ : Window).available =
        s.outlet.window.available - turn.chunk.length := rfl
    unfold Deals
    rw [noted]
    refine h.pay live (a := .queued (.data id turn.chunk turn.endStream) [] s.limit) rfl rfl
      spentOwn spent ?_ short
    dsimp only
    omega
  · rw [ends_pure]
    unfold transmit Pays H2Proxy.Pays
    rw [ends_ite]
    refine ⟨fun _ => ?_, fun _ => h⟩
    rw [ends_bind]
    have empty : turn.chunk.length = 0 := by omega
    refine (queueFrame_outlet _ _).mono (fun _ t noted => applied t ?_) fun _ t => failed _ t rfl
    unfold Deals
    rw [noted]
    exact h.quiet (.note s.outlet (.emptyData rfl rfl (List.length_eq_zero_iff.mp empty)))

omit [Service σ μ] in
theorem budget_le (s : Conn σ μ) (stream : Stream) :
    s.budget stream ≤ stream.sendWindow.sendable ∧ s.budget stream ≤ s.connSendWindow.sendable ∧
      s.budget stream ≤ s.peerSettings.maxFrameSize := by
  unfold budget
  omega

theorem visitReadyStream_pays (h : s.Deals none none) (id : StreamId) :
    Pays none none (visitReadyStream id s) := by
  unfold visitReadyStream Pays H2Proxy.Pays
  rw [ends_bind, ends_get]
  cases hlive : s.streams.get? id with
  | none => exact h
  | some stream =>
    dsimp only
    rw [ends_ite]
    refine ⟨fun _ => ?_, fun _ => ?_⟩
    · exact h.quiet (Outlet.Steady.modify s.outlet id fun _ _ => rfl)
    generalize hturn : stream.turn (s.budget stream) = turn
    have rest : turn.rest.sendWindow = stream.sendWindow := by rw [← hturn]; rfl
    have fits : turn.chunk.length ≤ s.budget stream := by
      rw [← hturn]
      exact stream.turn_chunk_length _
    obtain ⟨own, conn, short⟩ := s.budget_le stream
    have taken : (s.withCore (s.toConnCore.modifyStream id fun _ => turn.rest)).Deals none none := by
      refine h.quiet (Outlet.Steady.modify s.outlet id fun st hst => ?_)
      cases hlive.symm.trans hst
      exact rest
    have here : (s.toConnCore.modifyStream id fun _ => turn.rest).streams.get? id = some turn.rest := by
      show (s.streams.modify id _).get? id = _
      rw [StreamTable.get?_modify, if_pos rfl, hlive]
      rfl
    rw [ends_bind, ends_onCore, ends_ite]
    refine ⟨fun _ => taken, fun _ => ?_⟩
    rw [ends_bind]
    refine (transmit_pays taken here rest (Nat.le_trans fits own) (Nat.le_trans fits conn)
      (Nat.le_trans fits short)).mono (fun _ t sends => ?_) fun _ _ no => no.elim
    refine Pays.bind sends fun _ u hu => Pays.bind (Deals.calm hu (reportReleased_calm u id _))
      fun _ v hv => ?_
    cases turn.trailers with
    | none => exact hv
    | some fields => exact Pays.bind (Deals.calm hv (sendTrailers_calm v id fields)) fun _ w hw => hw

theorem visitLap_pays (h : s.Deals none none) (ids : List StreamId) :
    Pays none none (visitLap ids s) := by
  induction ids generalizing s with
  | nil => exact h
  | cons id lap ih =>
    exact Pays.bind (visitReadyStream_pays h id) fun _ t ht => Pays.bind (ih ht) fun _ u hu => hu

theorem pumpLap_pays (h : s.Deals none none) : Pays none none (pumpLap s) := by
  have visited : Pays none none (visitLap s.ready { s with ready := [] }) :=
    visitLap_pays (s := { s with ready := [] }) h s.ready
  unfold pumpLap Pays H2Proxy.Pays
  rw [ends_bind, ends_get, ends_bind, ends_modify]
  exact visited.bind fun _ t ht => Pays.bind (ht.follows (requeue_saves t _)) fun _ u hu => hu

theorem pumpLaps_pays (h : s.Deals none none) (fuel : Nat) : Pays none none (pumpLaps fuel s) := by
  induction fuel generalizing s with
  | zero => exact h
  | succ fuel ih =>
    unfold pumpLaps Pays H2Proxy.Pays
    rw [ends_bind, ends_get, ends_ite]
    refine ⟨fun _ => h, fun _ => Pays.bind (pumpLap_pays h) fun wrote t ht => ?_⟩
    exact ends_ite.mpr ⟨fun _ => ih ht, fun _ => ht⟩

theorem pumpOutbound_pays (h : s.Deals none none) : Pays none none (pumpOutbound s) := by
  unfold pumpOutbound Pays H2Proxy.Pays
  rw [ends_bind, ends_get]
  exact Pays.bind (pumpLaps_pays h _) fun _ t ht => Deals.calm ht (flushPendingResets_calm t _)

/-! ## Steps and runs -/

theorem react_pays (h : s.Deals none none) (input : ConnInput) :
    Pays none none (react input s) := by
  cases input with
  | frame w => exact recvWire_pays h w
  | arrival event => exact h
  | event =>
    unfold react Pays H2Proxy.Pays
    rw [ends_bind, ends_get]
    cases s.events with
    | nil => exact h
    | cons event events =>
      have taken : (s.withCore { s.toConnCore with events }).Deals none none := h
      dsimp only
      rw [ends_bind, ends_onCore]
      exact Pays.bind (taken.calm (handleServiceEvent_calm _ event)) fun _ u hu => hu
  | pump budget =>
    exact Pays.bind (h.follows (syncAdmission_saves s budget)) fun _ t ht =>
      Pays.bind (pumpOutbound_pays ht) fun _ u hu => hu
  | wrote n => exact h
  | shutdown =>
    unfold react Pays H2Proxy.Pays
    rw [ends_bind, ends_get, ends_ite]
    exact ⟨fun _ => Pays.bind (h.calm (beginDrain_calm s)) fun _ t ht => ht, fun _ => h⟩
  | advance timerFired => exact h.calm (advanceDrain_calm s timerFired)
  | hangup => exact h

/-- The end of a connection asks and answers nothing. -/
theorem conclude_aside (stop : Stop) (s : Conn σ μ) :
    Adds (ConnObs.tap μ).Aside s.log (conclude stop s).log := by
  have dropped : ∀ t : Conn σ μ, Adds (ConnObs.tap μ).Aside t.log
      (t.toConnCore.call .drop (Service.drop t.now t.service)).log := fun t =>
    (ConnCore.Calm.call t.toConnCore .drop (Service.drop t.now t.service)).log.mono aside_of_plain
  cases stop with
  | quiet => exact dropped s
  | failed e =>
    have queued : Follows Saves s
        (queueFrame (.goAway s.streams.highestPeerId e.code (ascii e.debug)) s) :=
      queueFrame_saves s (fun _ => rfl) rfl rfl
    unfold conclude
    dsimp only
    generalize queueFrame (.goAway s.streams.highestPeerId e.code (ascii e.debug)) s = r at queued
    cases r with
    | error e' t =>
      have saved : Saves s t := queued
      exact saved.log.trans (dropped t)
    | ok u t =>
      have saved : Saves s t := queued
      exact saved.log.trans (dropped t)

/-- Between two steps a running connection deals, and what was ever sent was fair. -/
def Dealing (s : Conn σ μ) : Prop := s.outlet.Dealing (ConnObs.tap μ) (s.stop = none)

theorem step_dealing (h : s.Dealing) (i : Instant × ConnInput) : (step i s).Dealing := by
  cases hs : s.stop with
  | some stop =>
    rw [step_stopped (by rw [hs]; rfl)]
    exact h
  | none =>
    rw [step_live hs]
    have deals : ({ s with now := i.1 } : Conn σ μ).Deals none none := h.running hs
    exact (react_pays deals i.2).concluded (fun s : Conn σ μ => s.stop = none) (fun _ _ => nofun)
      conclude_aside

omit [Service σ μ] in
theorem Fresh.dealing (h : Fresh s) : s.Dealing := by
  obtain ⟨service, localSettings, window, limits, policy, admission, now, -, -, -, rfl⟩ := h
  have aside : Adds (ConnObs.tap μ).Aside []
      (start service localSettings window limits policy admission now : Conn σ μ).log := by
    refine ⟨_, rfl, fun o ho => ⟨?_, fun f sent => ?_⟩⟩
    all_goals obtain rfl | rfl : o = _ ∨ o = _ := by simpa [start] using ho
    · rfl
    · rfl
    · cases sent
      exact ⟨fun _ => rfl, rfl, Settings.toFrame_brief _⟩
    · cases sent
      exact ⟨fun _ => rfl, rfl, rfl⟩
  have deals : (start service localSettings window limits policy admission now :
      Conn σ μ).Deals none none :=
    .start aside (fun _ => rfl) rfl ⟨.new _, rfl, show (4096 : Nat) < 2 ^ 32 by decide⟩
  exact ⟨deals.fair, fun _ => deals⟩

/-- In every run a client connection is fair to its client, and deals while it runs. -/
theorem reach_dealing (h : (machine σ μ).Reachable s) : s.Dealing :=
  h.invariant (I := Dealing) (fun _ fresh => Fresh.dealing fresh) fun _ i hs _ => step_dealing hs i

/-- In every run of a client connection no DATA exceeds what the client has granted its
    stream and the connection when it is sent: WINDOW_UPDATEs and the `INITIAL_WINDOW_SIZE` then in
    force, less the DATA sent before. While it runs, its send windows are what is left. -/
theorem data_covered (h : (machine σ μ).Reachable s) :
    (ConnObs.tap μ).Covered s.log ∧ (s.stop = none →
      s.connSendWindow.available = (ConnObs.tap μ).credit s.log .connection ∧
      ∀ id st, s.streams.get? id = some st →
        st.sendWindow.available = (ConnObs.tap μ).credit s.log id) := by
  have dealing := reach_dealing h
  exact ⟨dealing.fair.covered, fun running => (dealing.running running).affords.credit⟩

/-- `POST /`, of whose body three octets have come in and were sent back. -/
def echoed : List (Instant × ConnInput) :=
  [(0, .frame postRoot), (1, .frame dataFirst), (2, .event), (3, .event), (4, .event), (5, .pump 0)]

theorem data_covered_echoed :
    (ConnObs.tap Empty).credit ((machine Echo Empty).run (withService (.new 4)) echoed).log
      .connection = 65532 := by
  have reached : (machine Echo Empty).Reachable
      ((machine Echo Empty).run (withService (.new 4)) echoed) :=
    Machine.Reach.run (.init (fresh_withService _)) _ (by simp [echoed, Machine.Meets])
  rw [← ((data_covered reached).2 (by decide +kernel)).1]
  decide +kernel

/-- In every run of a client connection the acknowledgements sent, of SETTINGS and of PINGs each
    with its octets, are at every moment the first of those asked for, in order; and
    while the connection runs they are all of them. -/
theorem asks_answered (h : (machine σ μ).Reachable s) :
    (ConnObs.tap μ).Punctual s.log ∧ (s.stop = none →
      (ConnObs.tap μ).answered s.log = (ConnObs.tap μ).owed s.log) := by
  have dealing := reach_dealing h
  exact ⟨dealing.fair.punctual, dealing.answered⟩

/-- A PING, and SETTINGS that change nothing. -/
def asks : List (Instant × ConnInput) :=
  [(0, .frame (.ofParts .ping 0 .connection [1, 2, 3, 4, 5, 6, 7, 8] (by decide))),
    (1, .frame (.ofParts .settings 0 .connection [] (show 0 < 16777216 by decide))), (2, .pump 0)]

theorem asks_answered_both :
    (ConnObs.tap Empty).answered ((machine Echo Empty).run (withService (.new 4)) asks).log =
      [.ping ⟨[1, 2, 3, 4, 5, 6, 7, 8], rfl⟩ true, .settings true []] :=
  ((asks_answered (Machine.Reach.run (.init (fresh_withService _)) asks
    (by simp [asks, Machine.Meets]))).2 (by decide +kernel)).trans (by decide +kernel)

/-- In every run of a client connection no frame it queued but HEADERS and GOAWAY is longer than the
    `MAX_FRAME_SIZE` that the client's SETTINGS heard by then ask for, however they change. -/
theorem frames_fit (h : (machine σ μ).Reachable s) : (ConnObs.tap μ).Fitting s.log :=
  (reach_dealing h).fair.fitting

theorem frames_fit_echoed :
    (ConnObs.tap Empty).Fitting ((machine Echo Empty).run (withService (.new 4)) echoed).log :=
  frames_fit (Machine.Reach.run (.init (fresh_withService _)) _ (by simp [echoed, Machine.Meets]))

end Conn

end H2Proxy
