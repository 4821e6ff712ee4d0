import H2Proxy.Conn.Refine

/-
  Frames, the scheduler and the drain make moves; so does a whole step (`step_moves`), and
  what a run reaches is reached by moves (`reach_moves`).
-/

namespace H2Proxy

namespace Conn

variable {σ μ : Type} [Service σ μ] {P : Permit σ μ}

/-! ## A frame off the wire -/

/-- Setting what the core does not hold is no move. -/
theorem stay {s t : Conn σ μ} (hs : Sound s) (core : t.toConnCore = s.toConnCore)
    (kept : Kept s t) : Makes P s t :=
  Does.stay ⟨core, kept⟩ hs

theorem handleFrame_makes {s : Conn σ μ} (hs : Sound s) {w : WireFrame} {f : Frame}
    (heard : s.headerBlockError f.kind f.streamId = none → P.Heard s.toConnCore w)
    (frame : w.decode = .ok (.frame f))
    (notData : ∀ id data endStream, f ≠ .data id data endStream)
    (permit : s.headerBlockError f.kind f.streamId = none → ∀ id fragment endHeaders,
      fragment? f = some (id, fragment, endHeaders) →
      ∀ r, s.completion fragment endHeaders = some r →
        P.block s.toConnCore id (s.blockEndStream f) r) :
    Ends (handleFrame f s) (fun _ => Makes P s) (Breaks P s) := by
  unfold handleFrame
  simp only [ends_bind, ends_get]
  cases hblock : s.headerBlockError f.kind f.streamId with
  | some e => exact hs.breaks (headerBlockError_short hblock)
  | none =>
    replace heard := heard hblock
    have last : ∀ t : Conn σ μ, Sound t → Ends ((pure Next.continue_ : ConnM σ μ Next) t)
        (fun _ => Makes P t) (Breaks P t) := fun t ht => .refl ht
    have setBlock : ∀ (t : Conn σ μ) open_, Sound t → Ends ((do
        modify fun s => { s with openHeaderBlock := open_ }
        pure Next.continue_ : ConnM σ μ Next) t) (fun _ => Makes P t) (Breaks P t) :=
      fun t open_ ht => stay ht rfl ⟨⟨rfl, rfl, .refl ..⟩, rfl, rfl, rfl⟩
    cases f with
    | data id data endStream => exact absurd rfl (notData id data endStream)
    | settings ack params =>
      cases ack with
      | false =>
        exact makes_bind (guarded_makes hs (Guard.onControlFrame_drawn _)) fun _ t ht =>
          makes_bind (recvSettings_makes ht params) fun _ u hu => last u hu
      | true =>
        exact makes_bind (guarded_makes hs (Guard.onControlFrame_drawn _)) fun _ t ht =>
          makes_bind (recvSettingsAck_makes ht) fun _ u hu => last u hu
    | ping data ack =>
      refine makes_bind (guarded_makes hs (Guard.onControlFrame_drawn _)) fun _ t ht => ?_
      cases ack with
      | true => exact last t ht
      | false =>
        exact makes_bind (queueFrame_makes ht (show 8 ≤ 16384 by decide) (.inr rfl))
          fun _ u hu => last u hu
    | goAway => exact .refl hs
    | windowUpdate id increment =>
      exact makes_bind (recvWindowUpdate_makes hs heard frame) fun _ t ht => last t ht
    | rstStream id code =>
      exact makes_bind (recvRstStream_makes hs heard frame) fun _ t ht => last t ht
    | headers id block endStream endHeaders =>
      dsimp only
      rw [ends_bind, ends_modify]
      have m : Makes P s { s with openHeaderEndStream := endStream } :=
        stay hs rfl ⟨⟨rfl, rfl, .refl ..⟩, rfl, rfl, rfl⟩
      refine m.next (makes_bind (readHeaderBlock_makes m.sound ?_) fun _ t ht => setBlock t _ ht)
      exact fun r hr => permit hblock id block endHeaders rfl r hr
    | continuation id block endHeaders =>
      refine makes_bind (readHeaderBlock_makes hs ?_) fun _ t ht => setBlock t _ ht
      exact fun r hr => permit hblock id block endHeaders rfl r hr

theorem data?_of_decode {w : WireFrame} {d : Decoded} (h : w.decode = .ok d)
    (notData : ∀ id data endStream, d ≠ .frame (.data id data endStream)) : w.data? = none := by
  unfold WireFrame.data?
  rw [h]
  cases d with
  | ignored kind id => rfl
  | frame f =>
    cases f with
    | data id data endStream => exact absurd rfl (notData id data endStream)
    | _ => rfl

omit [Service σ μ] in
theorem handles_eq {s : Conn σ μ} {w : WireFrame} {f : Frame} (frame : w.decode = .ok (.frame f))
    (short : w.header.length ≤ s.localSettings.maxFrameSize)
    (inOrder : s.headerBlockError f.kind f.streamId = none) :
    s.handles w = s.passesGuard f := by
  unfold handles
  rw [frame]
  simp [short, inOrder]

theorem recvWire_makes {r : Conn σ μ} (hr : Sound r) {w : WireFrame}
    (frame : r.handles w → P.frame r.toConnCore w)
    (permit : ∀ id endStream result, r.completes w = some (id, endStream, result) →
      P.block (r.toConnCore.observe (.heard w)) id endStream result) :
    Ends (recvWire w r) (fun _ => Makes P r) (Breaks P r) := by
  unfold recvWire
  rw [ends_bind, ends_onCore, ends_bind, ends_get, ends_ite]
  generalize hs : r.withCore (r.toConnCore.observe (.heard w)) = s
  have ds : r.Does (r.toConnCore.observe (.heard w)) s := hs ▸ .withCore _ _
  have cut : ∀ e : ConnectionError, e.Short → Breaks P r e s :=
    fun e he => ds.breaks hr he .refl (.heard w)
  constructor
  · intro _
    refine cut _ ((FrameError.oversized_within (by have := w.length_lt; omega) ?_).short (by decide))
    exact (ds.kept.sound hr).maxFrameSize
  intro hlen
  cases hdec : w.decode with
  | error e => exact cut _ ((WireFrame.decode_within hdec).short (by decide))
  | ok d =>
    have other : w.data? = none → Makes P r s := fun h => ds.move hr (.note (.heard h))
    cases d with
    | ignored kind id =>
      have m := other (data?_of_decode hdec nofun)
      dsimp only
      cases s.openHeaderBlock with
      | none => exact m
      | some open_ =>
        dsimp only
        cases hblock : s.headerBlockError kind id with
        | some e => exact cut _ (headerBlockError_short hblock)
        | none => exact m
    | frame f =>
      have short : w.header.length ≤ r.localSettings.maxFrameSize := by
        subst hs
        have : ¬ w.header.length > r.localSettings.maxFrameSize := hlen
        omega
      have inOrder : s.headerBlockError f.kind f.streamId = none →
          r.headerBlockError f.kind f.streamId = none := by
        subst hs
        exact fun h => h
      dsimp only
      by_cases hdata : ∃ id data endStream, f = .data id data endStream
      · obtain ⟨id, data, endStream, rfl⟩ := hdata
        have isData : w.data? = some (id, data, endStream) := by
          unfold WireFrame.data?
          rw [hdec]
        unfold handleFrame
        rw [ends_bind, ends_get]
        cases hblock : s.headerBlockError .data id with
        | some e =>
          simp only [Frame.kind, Frame.streamId, hblock]
          exact cut e (headerBlockError_short hblock)
        | none =>
          simp only [Frame.kind, Frame.streamId, hblock]
          rw [ends_bind]
          have passes : (s.guard.onData data.length endStream).2 = .ok → r.handles w := by
            intro passed
            subst hs
            rw [handles_eq hdec short (inOrder hblock)]
            exact decide_eq_true passed
          exact (recvData_makes hr (fun passed => frame (passes passed)) isData ds).mono
            (fun _ _ h => h) fun _ _ h => h
      · have notData : ∀ id data endStream, f ≠ .data id data endStream :=
          fun id data endStream h => hdata ⟨id, data, endStream, h⟩
        have m := other (data?_of_decode hdec fun id data endStream h =>
          notData id data endStream (Decoded.frame.inj h))
        have passes : s.headerBlockError f.kind f.streamId = none → r.handles w := by
          intro hblock
          rw [handles_eq hdec short (inOrder hblock)]
          cases f with
          | data id data endStream => exact absurd rfl (notData id data endStream)
          | _ => rfl
        have heard : s.headerBlockError f.kind f.streamId = none → P.Heard s.toConnCore w :=
          fun hblock => ⟨r.toConnCore, ds.core, frame (passes hblock)⟩
        refine m.next (handleFrame_makes m.sound heard hdec notData ?_)
        intro hblock id fragment endHeaders hf result hres
        rw [ds.core]
        refine permit id (s.blockEndStream f) result ?_
        subst hs
        have hblock : r.headerBlockError f.kind f.streamId = none := hblock
        have hres : r.completion fragment endHeaders = some result := hres
        unfold completes
        simp [hdec, hblock, short, hf, hres]
        cases f <;> rfl

/-! ## The scheduler -/

theorem transmit_ends {r s : Conn σ μ} (hr : Sound r) {id : StreamId} {turn : Stream.Turn}
    {sendWindow : Window} (hlen : turn.chunk.length ≤ r.limit)
    (hs : r.Does (r.toConnCore.modifyStream id fun _ => { turn.rest with sendWindow }) s) :
    Ends (transmit id turn s)
      (fun _ => r.Does (r.toConnCore.transmit r.now id turn sendWindow r.limit))
      fun e t => r.Does (r.toConnCore.transmit r.now id turn sendWindow r.limit) t ∧ e.Short := by
  unfold transmit ConnCore.transmit
  simp only [ends_ite, ends_bind, ends_pure]
  constructor
  · intro h
    rw [if_pos h]
    refine (queueFrame_ends s (f := .data id turn.chunk turn.endStream)
      (hlen.trans hr.frameSize.2)).ok ?_
    rintro - t ht
    have done : ∀ u, t.Does (t.toConnCore.settle t.now id (.sendData turn.endStream) t.limit) u →
        r.Does (ConnCore.settle r.now id (.sendData turn.endStream) r.limit
          ((r.toConnCore.modifyStream id fun _ => { turn.rest with sendWindow }).observe
            (.queued (.data id turn.chunk turn.endStream) [] r.limit))) u := by
      intro u hu
      refine ⟨?_, hs.kept.trans (ht.kept.trans hu.kept)⟩
      rw [hu.core, ht.core, hs.core, ht.kept.now, hs.kept.now, ht.kept.limit, hs.kept.limit]
    refine (applyStreamEvent_ends t id _ (by decide)).mono ?_ ?_
    · rintro - u hu
      exact done u hu
    · rintro e u ⟨hu, -, he⟩
      exact ⟨done u hu, he⟩
  · intro h
    rw [if_neg h]
    exact hs

theorem reportReleased_ends (s : Conn σ μ) (id : StreamId) (n : Nat) :
    Ends (reportReleased id n s) (fun _ => s.Does (s.toConnCore.reportReleased s.now id n))
      fun _ _ => False := by
  unfold reportReleased ConnCore.reportReleased
  simp only [ends_ite, ends_bind, ends_get, ends_onCore, ends_pure]
  refine ⟨fun h => ?_, fun h => ?_⟩
  · rw [if_pos h]
    exact .withCore s _
  · rw [if_neg h]
    exact ⟨rfl, .refl s⟩

theorem visitReadyStream_makes {s : Conn σ μ} (hs : Sound s) {id : StreamId}
    (permit : ∀ turn ∈ s.turnOf id, P.turn s.toConnCore id turn) :
    Ends (visitReadyStream id s) (fun _ => Makes P s) (Breaks P s) := by
  unfold visitReadyStream
  rw [ends_bind, ends_get]
  cases hlive : s.streams.get? id with
  | none => exact .refl hs
  | some stream =>
    dsimp only
    have permit : P.turn s.toConnCore id (stream.turn (s.budget stream)) :=
      permit _ (Option.mem_map.mpr ⟨stream, hlive, rfl⟩)
    have hb : s.budget stream = min (min (min sendBudget stream.sendWindow.sendable)
      s.connSendWindow.sendable) s.peerSettings.maxFrameSize := rfl
    generalize s.budget stream = budget at permit hb ⊢
    rw [ends_ite]
    constructor
    · intro _
      simp only [ends_bind, ends_onCore, ends_pure]
      refine (Does.withCore s _).move hs (.alike (StreamTable.alike_modify _ id fun _ _ => ?_))
      exact ⟨rfl, rfl, rfl, rfl, rfl, rfl, rfl, rfl, rfl⟩
    intro _
    have hchunk := stream.turn_chunk_length budget
    rw [ends_bind, ends_onCore, ends_ite]
    have dt := Does.withCore s (s.toConnCore.modifyStream id fun _ => (stream.turn budget).rest)
    have hwin : (s.withCore (s.toConnCore.modifyStream id fun _ =>
      (stream.turn budget).rest)).connSendWindow = s.connSendWindow := rfl
    generalize s.withCore (s.toConnCore.modifyStream id fun _ => (stream.turn budget).rest) = t
      at dt hwin
    constructor
    · intro h
      simp only [Bool.and_eq_true, decide_eq_true_eq, Bool.not_eq_true',
        Option.isNone_iff_eq_none] at h
      obtain ⟨⟨hnone, hend⟩, htrailers⟩ := h
      refine dt.move hs (.alike (StreamTable.alike_modify _ id fun st hst => ?_))
      cases hlive.symm.trans hst
      obtain ⟨hkend, hktrailers⟩ := stream.turn_keeps budget hend htrailers
      refine ⟨rfl, rfl, ?_, hkend, hktrailers, rfl, rfl, rfl, rfl⟩
      rw [stream.turn_octets budget, hnone, List.nil_append]
    intro _
    rw [ends_bind]
    refine (spend_ends (show (stream.turn budget).rest.sendWindow = stream.sendWindow from rfl) dt (by omega) (by rw [hwin]; omega)).ok ?_
    rintro - u ⟨sendWindow, du⟩
    have fits := hs.fits
    have hbud : budget ≤ s.limit := by
      show budget ≤ s.peerSettings.maxFrameSize
      omega
    rw [ends_bind]
    refine (transmit_ends hs (hchunk.trans hbud) du).mono ?_ ?_
    · rintro - v dv
      rw [ends_bind]
      refine (reportReleased_ends v id _).ok ?_
      rintro - x hx
      have dx : s.Does ((s.toConnCore.transmit s.now id (stream.turn budget) sendWindow
          s.limit).reportReleased s.now id (stream.turn budget).chunk.length) x := by
        refine ⟨?_, dv.kept.trans hx.kept⟩
        rw [hx.core, dv.core, dv.kept.now]
      have turned : ∀ enc, Move P s.toConnCore
          (s.toConnCore.takeTurn s.now id (stream.turn budget) sendWindow enc s.limit) :=
        fun enc => .on (.turned s.now sendWindow enc permit hlive fits hbud)
      unfold ConnCore.takeTurn at turned
      cases htr : (stream.turn budget).trailers with
      | none =>
        simp only [ends_bind, ends_get, ends_pure]
        rw [htr] at turned
        exact dx.move hs (turned x.hpackEnc)
      | some fields =>
        simp only [ends_bind, ends_get, ends_pure]
        rw [htr] at turned
        have hmove : Move P s.toConnCore
            (x.toConnCore.sendTrailers x.now id fields x.hpackEnc x.limit) := by
          rw [dx.core, dx.kept.now, dx.kept.limit]
          exact turned x.hpackEnc
        refine (sendTrailers_ends x id fields).mono ?_ ?_
        · rintro - y ⟨streams, halike, hy⟩
          exact ⟨hy.core ▸ .tail (.single hmove) (.alike halike),
            (dx.kept.trans hy.kept).sound hs, (dx.kept.trans hy.kept).toPaced⟩
        · rintro e y ⟨hy | hy, he⟩
          · refine Does.breaks ⟨?_, dx.kept.trans hy.kept⟩ hs he .refl
              (.unencodable s.now sendWindow x.hpackEnc fields permit hlive fits hbud)
            rw [hy.core, dx.core, dx.kept.limit]
          · exact Does.breaks ⟨hy.core, dx.kept.trans hy.kept⟩ hs he (.single hmove) (.none _)
    · rintro e v ⟨dv, he⟩
      exact dv.breaks hs he .refl (.transmitted s.now sendWindow permit hlive fits hbud)

theorem visitLap_makes (lap : List StreamId) {s : Conn σ μ} (hs : Sound s)
    (permit : ∀ v ∈ lapVisits lap s, ∀ turn ∈ v.1.turnOf v.2, P.turn v.1.toConnCore v.2 turn) :
    Ends (visitLap lap s) (fun _ => Makes P s) (Breaks P s) := by
  induction lap generalizing s with
  | nil => exact .refl hs
  | cons id lap ih =>
    have first := visitReadyStream_makes (P := P) hs (permit (s, id) List.mem_cons_self)
    have later : ∀ visit t, visitReadyStream id s = .ok visit t →
        ∀ v ∈ lapVisits lap t, ∀ turn ∈ v.1.turnOf v.2, P.turn v.1.toConnCore v.2 turn := by
      intro visit t visited v hv
      refine permit v (List.mem_cons_of_mem _ ?_)
      rw [visited]
      exact hv
    unfold visitLap
    rw [ends_bind]
    generalize visitReadyStream id s = res at first later
    cases res with
    | error e t => exact first
    | ok visit t =>
      have mt : Makes P s t := first
      have later := later visit t rfl
      exact mt.next (makes_bind (ih mt.sound later) fun _ u hu => .refl hu)

theorem requeue_makes (ids : List StreamId) {s : Conn σ μ} (hs : Sound s) :
    Ends (requeue ids s) (fun _ => Makes P s) (Breaks P s) := by
  induction ids generalizing s with
  | nil => exact .refl hs
  | cons id ids ih =>
    refine makes_bind (x := onCore _) ?_ fun _ t ht => ih ht
    refine (Does.withCore s _).move hs (.alike (StreamTable.alike_modify _ id fun _ _ => ?_))
    exact ⟨rfl, rfl, rfl, rfl, rfl, rfl, rfl, rfl, rfl⟩

theorem pumpLap_makes {s : Conn σ μ} (hs : Sound s)
    (permit : ∀ v ∈ lapVisits s.ready { s with ready := [] }, ∀ turn ∈ v.1.turnOf v.2,
      P.turn v.1.toConnCore v.2 turn) :
    Ends (pumpLap s) (fun _ => Makes P s) (Breaks P s) := by
  unfold pumpLap
  rw [ends_bind, ends_get, ends_bind, ends_modify]
  have m : Makes P s { s with ready := [] } := stay hs rfl ⟨⟨rfl, rfl, .refl ..⟩, rfl, rfl, rfl⟩
  refine m.next (makes_bind (visitLap_makes s.ready m.sound permit) fun lap u hu =>
    makes_bind (requeue_makes _ hu) fun _ v hv => ?_)
  rw [ends_bind, ends_modify]
  exact stay hv rfl ⟨⟨rfl, rfl, .refl ..⟩, rfl, rfl, rfl⟩

theorem pumpLaps_makes (fuel : Nat) {s : Conn σ μ} (hs : Sound s)
    (permit : ∀ v ∈ lapsVisits fuel s, ∀ turn ∈ v.1.turnOf v.2, P.turn v.1.toConnCore v.2 turn) :
    Ends (pumpLaps fuel s) (fun _ => Makes P s) (Breaks P s) := by
  induction fuel generalizing s with
  | zero => exact .refl hs
  | succ fuel ih =>
    unfold pumpLaps
    unfold lapsVisits at permit
    rw [ends_bind, ends_get, ends_ite]
    refine ⟨fun _ => .refl hs, fun busy => ?_⟩
    rw [if_neg busy] at permit
    have lap := pumpLap_makes (P := P) hs fun v hv => permit v (List.mem_append_left _ hv)
    have later := fun v hv => permit v (List.mem_append_right _ hv)
    rw [ends_bind]
    generalize pumpLap s = res at lap later
    cases res with
    | error e t => exact lap
    | ok wrote t =>
      have mt : Makes P s t := lap
      cases wrote with
      | false => exact mt
      | true => exact mt.next (ih mt.sound later)

/-- The resets owed are sent from the newest to the oldest, and nothing adds to them. -/
theorem flushPendingResets_makes (es : List StreamError) {s : Conn σ μ} (hs : Sound s)
    (owed : s.pendingReset = es.reverse) :
    Ends (flushPendingResets es s) (fun _ => Makes P s) (Breaks P s) := by
  induction es generalizing s with
  | nil => exact .refl hs
  | cons e es ih =>
    unfold flushPendingResets
    rw [List.reverse_cons] at owed
    simp only [ends_bind, ends_onCore]
    refine (writeRstStream_ends _ e.stream e.code).ok ?_
    rintro - t ht
    have dt := ht.of_withCore
    rw [withCore_toConnCore, withCore_now, withCore_limit, owed, List.dropLast_concat] at dt
    have mt : Makes P s t := dt.move hs (.on (.flushed s.now owed hs.fits))
    refine mt.next (ih mt.sound ?_)
    rw [dt.core]
    unfold ConnCore.writeRst ConnCore.reclaim
    dsimp only [ConnCore.observe]
    split <;> rfl

theorem pumpOutbound_makes {s : Conn σ μ} (hs : Sound s)
    (permit : ∀ v ∈ lapsVisits (pumpFuel s) s, ∀ turn ∈ v.1.turnOf v.2,
      P.turn v.1.toConnCore v.2 turn) :
    Ends (pumpOutbound s) (fun _ => Makes P s) (Breaks P s) := by
  unfold pumpOutbound
  rw [ends_bind, ends_get]
  refine makes_bind (pumpLaps_makes _ hs permit) fun _ t ht => ?_
  rw [ends_bind, ends_get]
  exact flushPendingResets_makes _ ht (List.reverse_reverse _).symm

/-! ## Admission and drain -/

theorem syncAdmission_makes {s : Conn σ μ} (hs : Sound s) (budget : Nat) :
    Ends (syncAdmission budget s) (fun _ => Makes P s) (Breaks P s) := by
  unfold syncAdmission
  rw [ends_bind, ends_get, ends_ite]
  refine ⟨fun _ => .refl hs, fun _ => ?_⟩
  rw [ends_bind, ends_modify]
  generalize ht : ({ s with
    advertisedStreams := budget
    localSettings := { s.localSettings with maxConcurrentStreams := some budget }
    outstandingSettings := satAdd32 s.outstandingSettings 1 } : Conn σ μ) = t
  have mt : Makes P s t := by
    subst ht
    exact ⟨.refl, ⟨hs.frameSize, hs.decoder, hs.capacity, hs.maxFrameSize⟩, rfl, rfl, .refl ..⟩
  have last : ∀ u : Conn σ μ, Sound u → Ends (queueFrame (.settings false
      [(SettingId.maxConcurrentStreams, UInt32.ofNat budget)]) u) (fun _ => Makes P u)
      (Breaks P u) :=
    fun u hu => queueFrame_makes hu (show 6 ≤ 16384 by decide) (.inl rfl)
  refine mt.next ?_
  rw [ends_ite]
  refine ⟨fun _ => ?_, fun _ => last t mt.sound⟩
  rw [ends_bind, ends_modify, ends_bind, ends_onCore]
  have mu : Makes P t (Conn.withCore { t with enforcedStreams := budget }
      { t.toConnCore with streams := { t.streams with maxConcurrent := budget } }) := by
    refine Does.move ⟨rfl, ⟨rfl, rfl, .refl ..⟩, rfl, rfl, rfl⟩ mt.sound (.alike ?_)
    exact ⟨rfl, rfl, rfl, rfl, fun _ => Stream.Alike.rel_refl _⟩
  exact mu.next (last _ mu.sound)

theorem beginDrain_makes {s : Conn σ μ} (hs : Sound s) (quiet : s.draining = none) :
    Ends (beginDrain s) (fun _ => Makes P s) (Breaks P s) := by
  unfold beginDrain
  rw [ends_bind, ends_get, ends_bind, ends_onCore]
  refine (queueFrame_ends _ (f := .goAway (.new maxLocalStreamId) .noError [])
    (small_le (show 8 ≤ 16384 by decide))).ok ?_
  rintro - t ht
  exact ht.of_withCore.move hs (.draining quiet rfl hs.fits)

theorem advanceDrain_makes {s : Conn σ μ} (hs : Sound s) (timerFired : Bool) :
    Ends (advanceDrain timerFired s) (fun _ => Makes P s) (Breaks P s) := by
  unfold advanceDrain
  rw [ends_bind, ends_get]
  cases hd : s.draining with
  | none => exact .refl hs
  | some drain =>
    have last : ∀ t : Conn σ μ, Sound t → Ends ((do
        let s ← get
        if s.drainCommitted && (s.streams.liveCount = 0 || s.now ≥ drain.deadlineAt) then
          pure .close
        else pure .continue_ : ConnM σ μ Next) t) (fun _ => Makes P t) (Breaks P t) := by
      intro t ht
      rw [ends_bind, ends_get, ends_ite]
      exact ⟨fun _ => .refl ht, fun _ => .refl ht⟩
    dsimp only
    rw [ends_ite]
    refine ⟨fun due => ?_, fun _ => last s hs⟩
    rw [Bool.and_eq_true, Option.isNone_iff_eq_none] at due
    rw [ends_bind]
    refine (queueFrame_ends s (f := .goAway s.streams.highestPeerId .noError [])
      (small_le (show 8 ≤ 16384 by decide))).ok ?_
    rintro - t ht
    rw [ends_bind, ends_onCore]
    have mt : Makes P s (t.withCore { t.toConnCore with
        draining := some { drain with committed := some t.streams.highestPeerId } }) := by
      refine Does.move ⟨?_, ht.kept.trans (.withCore t _)⟩ hs (.committed hd due.1 hs.fits)
      rw [withCore_toConnCore, ht.core]
      rfl
    exact mt.next (last _ mt.sound)

/-! ## Steps -/

/-- The event the responder hands on when the oldest of the channel is received, and the core
    it meets. -/
def handsOn (s : Conn σ μ) (now : Instant) : Option (ConnCore σ μ × ServiceEvent) :=
  match s.events with
  | [] => none
  | e :: events =>
    let (r, e') := Service.intercept now e s.service
    e'.map (({ s.toConnCore with events }.call (.intercept e) r), ·)

/-- What `P` asks of the environment at one step from `s`. -/
def Permits (P : Permit σ μ) (s : Conn σ μ) (i : Instant × ConnInput) : Prop :=
  match i.2 with
  | .frame w => (s.handles w → P.frame s.toConnCore w) ∧
    ∀ x ∈ s.completes w, P.block (s.toConnCore.observe (.heard w)) x.1 x.2.1 x.2.2
  | .event => ∀ x ∈ s.handsOn i.1, P.event x.1 x.2
  | .pump budget => ∀ v ∈ visits { s with now := i.1 } budget, ∀ turn ∈ v.1.turnOf v.2,
    P.turn v.1.toConnCore v.2 turn
  | _ => True

instance Permits.decidable [∀ c w, Decidable (P.frame c w)]
    [∀ c id endStream r, Decidable (P.block c id endStream r)] [∀ c e, Decidable (P.event c e)]
    [∀ c id turn, Decidable (P.turn c id turn)] (s : Conn σ μ) :
    (i : Instant × ConnInput) → Decidable (Permits P s i)
  | (_, .frame w) => inferInstanceAs (Decidable ((s.handles w → P.frame s.toConnCore w) ∧
    ∀ x ∈ s.completes w, P.block _ x.1 x.2.1 x.2.2))
  | (now, .event) => inferInstanceAs (Decidable (∀ x ∈ s.handsOn now, P.event x.1 x.2))
  | (now, .pump budget) => inferInstanceAs (Decidable (∀ v ∈ visits { s with now } budget,
    ∀ turn ∈ v.1.turnOf v.2, P.turn v.1.toConnCore v.2 turn))
  | (_, .arrival _) | (_, .wrote _) | (_, .shutdown) | (_, .advance _) | (_, .hangup) =>
    .isTrue trivial

theorem permits_all (s : Conn σ μ) (i : Instant × ConnInput) : Permits {} s i := by
  unfold Permits
  split
  · exact ⟨fun _ => trivial, fun _ _ => trivial⟩
  · exact fun _ _ => trivial
  · exact fun _ _ _ _ => trivial
  · trivial

theorem Permits.and {Q : Permit σ μ} {s : Conn σ μ} {i : Instant × ConnInput}
    (hP : Permits P s i) (hQ : Permits Q s i) : Permits (P.and Q) s i := by
  obtain ⟨now, input⟩ := i
  cases input with
  | frame w => exact ⟨fun h => ⟨hP.1 h, hQ.1 h⟩, fun x hx => ⟨hP.2 x hx, hQ.2 x hx⟩⟩
  | event => exact fun x hx => ⟨hP x hx, hQ x hx⟩
  | pump budget => exact fun v hv turn ht => ⟨hP v hv turn ht, hQ v hv turn ht⟩
  | _ => trivial

theorem react_makes {s : Conn σ μ} (hs : Sound s) (input : ConnInput)
    (permits : Permits P s (s.now, input)) :
    Ends (react input s) (fun _ => Makes P s) (Breaks P s) := by
  unfold react
  have last : ∀ t : Conn σ μ, Sound t → Ends ((pure Next.continue_ : ConnM σ μ Next) t)
      (fun _ => Makes P t) (Breaks P t) := fun t ht => .refl ht
  cases input with
  | frame w =>
    exact recvWire_makes hs permits.1 fun id endStream result hc =>
      permits.2 (id, endStream, result) hc
  | arrival event =>
    exact makes_bind (x := onCore _) ((Does.withCore s _).move hs (.events _)) fun _ t ht => last t ht
  | event =>
    dsimp only
    rw [ends_bind, ends_get]
    cases hev : s.events with
    | nil => exact .refl hs
    | cons e es =>
      dsimp only
      rw [ends_bind, ends_onCore]
      have m : Makes P s (s.withCore { s.toConnCore with events := es }) :=
        (Does.withCore s _).move hs (.events es)
      refine m.next (makes_bind (handleServiceEvent_makes m.sound ?_) fun _ t ht => last t ht)
      intro e' he'
      refine permits (_, e') ?_
      unfold handsOn
      rw [hev]
      exact Option.mem_map.mpr ⟨e', he', rfl⟩
  | pump budget =>
    dsimp only
    rw [ends_bind]
    have synced := syncAdmission_makes (P := P) hs budget
    unfold Permits visits at permits
    dsimp only at permits
    generalize syncAdmission budget s = res at synced permits
    cases res with
    | error e t => exact synced
    | ok u t =>
      have mt : Makes P s t := synced
      exact mt.next (makes_bind (pumpOutbound_makes mt.sound permits) fun _ u hu => last u hu)
  | wrote n => exact stay hs rfl ⟨⟨rfl, rfl, .refl ..⟩, rfl, rfl, rfl⟩
  | shutdown =>
    dsimp only
    rw [ends_bind, ends_get, ends_ite]
    exact ⟨fun quiet => makes_bind (beginDrain_makes hs (by simpa using quiet)) fun _ t ht =>
      last t ht, fun _ => last s hs⟩
  | advance timerFired => exact advanceDrain_makes hs timerFired
  | hangup => exact .refl hs

/-- What `conclude` does to the core of a connection that stops: a GOAWAY after a failure,
    and the responder is dropped. -/
inductive Closing : ConnCore σ μ → ConnCore σ μ → Prop
  | quiet {c} (now : Instant) : Closing c (c.call .drop (Service.drop now c.service))
  | failed {c} (now : Instant) {code : ErrorCode} {debug : Bytes} {limit : Nat}
    (fits : (Frame.goAway c.streams.highestPeerId code debug).payloadLen ≤ limit) :
    Closing c ((c.observe (.queued (.goAway c.streams.highestPeerId code debug) [] limit)).call .drop
      (Service.drop now c.service))

theorem conclude_closing {s : Conn σ μ} (hs : s.peerSettings.FrameSizeOk) {stop : Stop}
    (short : ∀ e, stop = .failed e → e.Short) :
    Closing s.toConnCore (conclude stop s).toConnCore := by
  unfold conclude
  cases stop with
  | quiet => exact .quiet s.now
  | failed e =>
    have hlen : (Frame.goAway s.streams.highestPeerId e.code (ascii e.debug)).payloadLen ≤
        defaultMaxFrameSize := by
      have := short e rfl
      simpa [Frame.payloadLen, ascii, ConnectionError.Short, String.length_toList] using this
    have hq := queueFrame_ends s (small_le hlen)
    dsimp only
    generalize queueFrame (.goAway s.streams.highestPeerId e.code (ascii e.debug)) s = res at hq
    cases res with
    | error e' t => exact hq.elim
    | ok u t =>
      have hcore : t.toConnCore = _ := hq.core
      dsimp only
      rw [hcore]
      exact .failed t.now (hlen.trans hs.1)

theorem step_stopped {s : Conn σ μ} (stopped : s.stop.isSome) (i : Instant × ConnInput) :
    step i s = s := if_pos stopped

/-- The step of a connection that runs. -/
theorem step_eq {s : Conn σ μ} (running : s.stop = none) (i : Instant × ConnInput) :
    step i s = match react i.2 { s with now := i.1 } with
      | .ok .continue_ s => s
      | .ok .close s => conclude .quiet s
      | .error e s => conclude (.failed e) s := by
  have going : ¬ s.stop.isSome := by
    rw [running]
    nofun
  exact if_neg going

/-- A step after which the connection runs on is what it does. -/
theorem step_goes_on {s : Conn σ μ} (running : s.stop = none) {now : Instant} {input : ConnInput}
    (h : (step (now, input) s).stop = none) :
    react input { s with now } = .ok .continue_ (step (now, input) s) := by
  rw [step_eq running] at h ⊢
  generalize react input { s with now } = res at h ⊢
  cases res with
  | ok next t =>
    cases next with
    | continue_ => rfl
    | close => cases h
  | error e t => cases h

/-- What is known of the core of a connection in a run from `s₀`. -/
inductive Traced (P : Permit σ μ) (s₀ s : Conn σ μ) : Prop
  | running (moves : Moves P s₀.toConnCore s.toConnCore) (sound : Sound s)
  | stopped {c c' : ConnCore σ μ} (moves : Moves P s₀.toConnCore c) (fault : Fault P c c')
    (closing : Closing c' s.toConnCore) (stop : s.stop.isSome)

theorem step_traced {s₀ s : Conn σ μ} (h : Traced P s₀ s) {i : Instant × ConnInput}
    (permits : Permits P s i) : Traced P s₀ (step i s) := by
  unfold step
  split
  · exact h
  rename_i hrun
  cases h with
  | stopped _ _ _ stop => exact absurd stop hrun
  | running moves sound =>
    have hs : Sound { s with now := i.1 } :=
      ⟨sound.frameSize, sound.decoder, sound.capacity, sound.maxFrameSize⟩
    have hr := react_makes (P := P) hs i.2 permits
    generalize react i.2 { s with now := i.1 } = res at hr
    cases res with
    | ok next t =>
      have m : Makes P { s with now := i.1 } t := hr
      cases next with
      | continue_ => exact .running (moves.trans m.moves) m.sound
      | close =>
        exact .stopped (moves.trans m.moves) (.none _)
          (conclude_closing m.sound.frameSize nofun) rfl
    | error e t =>
      have b : Breaks P { s with now := i.1 } e t := hr
      obtain ⟨c, hc, hf⟩ := b.moves
      refine .stopped (moves.trans hc) hf (conclude_closing b.frameSize ?_) rfl
      rintro _ ⟨⟩
      exact b.short

/-- In every run from a sound connection the core is reached by moves. -/
theorem startedAt_traced {ok : Conn σ μ → Instant × ConnInput → Prop}
    (permits : ∀ s i, ok s i → Permits P s i) {s₀ s : Conn σ μ} (h₀ : Sound s₀)
    (h : ((machine σ μ).startedAt s₀).Reach ok s) : Traced P s₀ s := by
  refine h.invariant (I := Traced P s₀) ?_ ?_
  · rintro _ rfl
    exact .running .refl h₀
  · exact fun s i ht hok => step_traced ht (permits s i hok)

theorem reach_traced {ok : Conn σ μ → Instant × ConnInput → Prop}
    (permits : ∀ s i, ok s i → Permits P s i) {s : Conn σ μ} (h : (machine σ μ).Reach ok s) :
    ∃ s₀, Fresh s₀ ∧ Traced P s₀ s := by
  obtain ⟨s₀, h₀, hs⟩ := h.startedAt
  exact ⟨s₀, h₀, startedAt_traced permits (Fresh.sound h₀) hs⟩

theorem moves_invariant {c₀ c : ConnCore σ μ} (h : Moves P c₀ c) {I : ConnCore σ μ → Prop}
    (init : I c₀) (move : ∀ c c', I c → Move P c c' → I c') : I c := by
  induction h with
  | refl => exact init
  | tail _ hm ih => exact move _ _ ih hm

theorem Traced.sound {s₀ s : Conn σ μ} (h : Traced P s₀ s) (running : s.stop = none) : Sound s := by
  cases h with
  | running moves sound => exact sound
  | stopped _ _ _ stop => rw [running] at stop; cases stop

/-- An invariant of the moves holds of a connection that still runs. -/
theorem Traced.running_invariant {s₀ s : Conn σ μ} (h : Traced P s₀ s) (running : s.stop = none)
    {I : ConnCore σ μ → Prop} (init : I s₀.toConnCore)
    (move : ∀ c c', I c → Move P c c' → I c') : I s.toConnCore := by
  cases h with
  | running moves sound => exact moves_invariant moves init move
  | stopped _ _ _ stop => rw [running] at stop; cases stop

/-- An invariant of the moves that survives the end of a connection holds in every run. -/
theorem Traced.invariant {s₀ s : Conn σ μ} (h : Traced P s₀ s) {I J : ConnCore σ μ → Prop}
    (init : I s₀.toConnCore) (move : ∀ c c', I c → Move P c c' → I c') (run : ∀ c, I c → J c)
    (fault : ∀ c c', I c → Fault P c c' → J c') (closing : ∀ c c', J c → Closing c c' → J c') :
    J s.toConnCore := by
  cases h with
  | running moves sound => exact run _ (moves_invariant moves init move)
  | stopped moves hfault hclosing stop =>
    exact closing _ _ (fault _ _ (moves_invariant moves init move) hfault) hclosing

end Conn

end H2Proxy
