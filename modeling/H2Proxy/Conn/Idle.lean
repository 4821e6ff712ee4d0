import H2Proxy.Conn.Calm
import H2Proxy.Conn.Reassembly
import H2Proxy.Conn.Known
import H2Proxy.Idle

/-
  What a client connection does about idle streams.

  It knows a stream in three ways: as a live one, as one it owes a reset, as one it has reset.
  Every stream it knows was opened or asked for, in every run in which no frame and no header
  block on an idle stream is taken for one on another (`Misses`): then a frame that needs a stream
  ends the connection on an idle one, and no idle stream is reset.
-/

namespace H2Proxy

namespace ConnObs

variable {μ : Type}

/-- A RST_STREAM for stream `id`. -/
def resets (id : StreamId) : ConnObs μ → Bool
  | queued (.rstStream id' _) _ _ => id' = id
  | _ => false

/-- HEADERS on stream `id` or a higher one. -/
def asks (id : StreamId) : ConnObs μ → Bool
  | heard w => w.asks.any (id ≤ ·)
  | _ => false

theorem Apart.resets {id : StreamId} {o : ConnObs μ} (h : o.Apart id) : o.resets id = false := by
  have mute := h.reply
  unfold ConnObs.resets
  split
  · rename_i id' code fields limit
    have mute : (if id' = id then some Reply.rst else none) = none := mute
    split at mute
    · cases mute
    · rename_i other
      exact decide_eq_false other
  · rfl

end ConnObs

namespace ConnCore

variable {σ μ : Type}

/-- Odd, and no higher than some stream that was opened, or asked for with HEADERS. -/
def opened (c : ConnCore σ μ) (id : StreamId) : Bool :=
  id.isClientInitiated && (id ≤ c.streams.highestPeerId || c.log.any (·.asks id))

/-- Even, or above every stream that was opened so far. -/
def idle (c : ConnCore σ μ) (id : StreamId) : Bool := !id.isConnection && !c.opened id

/-- Live, or owed a reset, or reset. -/
def knows (c : ConnCore σ μ) (id : StreamId) : Bool :=
  (c.streams.get? id).isSome || 0 < c.owed id || c.log.any (·.resets id)

/-- A frame on an idle stream that is not looked up, or is found closed. -/
def misses (c : ConnCore σ μ) (w : WireFrame) : Bool :=
  match w.decode with
  | .ok (.frame (.data id data _)) =>
    c.idle id && c.streams.seen id && (c.connRecvWindow.record data.length).isOk
  | .ok (.frame (.rstStream id _)) => c.idle id && c.streams.seen id
  | .ok (.frame (.windowUpdate id increment)) =>
    c.idle id && (increment = 0 || c.streams.seen id)
  | _ => false

variable {c c' : ConnCore σ μ} {id : StreamId}

theorem opened_iff : c.opened id ↔
    id.isClientInitiated ∧ (id ≤ c.streams.highestPeerId ∨ ∃ o ∈ c.log, o.asks id) := by
  unfold opened
  rw [Bool.and_eq_true, Bool.or_eq_true, decide_eq_true_eq, List.any_eq_true]

theorem knows_iff : c.knows id ↔
    (c.streams.get? id).isSome ∨ 0 < c.owed id ∨ ∃ o ∈ c.log, o.resets id := by
  unfold knows
  rw [Bool.or_eq_true, Bool.or_eq_true, decide_eq_true_eq, List.any_eq_true, or_assoc]

theorem opened_of_not_idle (h : c.idle id = false) (stream : id.isConnection = false) :
    c.opened id := by
  unfold idle at h
  rw [stream] at h
  simpa using h

/-- What was opened stays so. -/
theorem opened_mono (h : c.opened id) (top : c.streams.highestPeerId ≤ c'.streams.highestPeerId)
    {added : List (ConnObs μ)} (log : c'.log = c.log ++ added) : c'.opened id := by
  obtain ⟨odd, le | ⟨o, ho, asks⟩⟩ := opened_iff.mp h
  · exact opened_iff.mpr ⟨odd, .inl (Nat.le_trans le top)⟩
  · exact opened_iff.mpr ⟨odd, .inr ⟨o, log ▸ List.mem_append_left _ ho, asks⟩⟩

theorem opened_grows (h : c.opened id) (grows : Says c c') : c'.opened id := by
  obtain ⟨added, log, -⟩ := grows.log
  exact opened_mono h grows.top log

/-- Nothing is known of the stream that was not. -/
theorem knows_untouched (h : Untouched id c c') : c'.knows id → c.knows id := by
  intro knows
  obtain ⟨added, log, apart⟩ := h.log
  refine knows_iff.mpr ?_
  rcases knows_iff.mp knows with live | owed | ⟨o, ho, resets⟩
  · exact .inl (h.live ▸ live)
  · exact .inr (.inl (h.owed ▸ owed))
  · rw [log] at ho
    obtain ho | ho := List.mem_append.mp ho
    · exact .inr (.inr ⟨o, ho, resets⟩)
    · rw [(apart o ho).resets] at resets
      cases resets

end ConnCore

/-! ## Moves -/

section Moves

variable {σ μ : Type}

/-- No frame on an idle stream is missed, and header blocks are those that were asked for: on an
    odd id, where a drain would refuse them. -/
def minding : Permit σ μ where
  frame c w := c.misses w = false
  block c id _ r := (∃ o ∈ c.log, o.asks id) ∧
    (c.drainCommitted → c.streams.lookup id = .idle → r.isOk → id.isClientInitiated)

/-- Every stream that is known was opened or asked for. -/
def ConnCore.Minds (c : ConnCore σ μ) : Prop := ∀ id, c.knows id → c.opened id

variable [Service σ μ] {c c' : ConnCore σ μ} {id : StreamId}

theorem ConnCore.opened_openRequest (now : Instant) (endStream : Bool) (limit : Nat)
    (isOpen : (c.streams.openPeer id).2 = .ok ()) :
    (c.openRequest now id endStream limit).opened id :=
  ConnCore.opened_iff.mpr ⟨(StreamTable.openPeer_ok isOpen).1,
    .inl (ConnCore.openRequest_top now endStream limit isOpen)⟩

theorem StreamMove.minds (h : StreamMove minding c id c') (minds : c.Minds) :
    c'.knows id → c'.opened id := by
  have grows := h.grows
  have was : c.opened id → c'.knows id → c'.opened id := fun o _ => ConnCore.opened_grows o grows
  have live : ∀ {st : Stream}, c.streams.get? id = some st → c'.knows id → c'.opened id := by
    intro st hs
    refine was (minds id (ConnCore.knows_iff.mpr (.inl ?_)))
    rw [hs]
    rfl
  cases h with
  | @handled e permit idle =>
    intro knows
    refine was (minds e.id (ConnCore.knows_iff.mpr ?_)) knows
    rcases ConnCore.knows_iff.mp knows with isLive | owed | ⟨o, ho, resets⟩
    · exact .inl isLive
    · exact .inr (.inl owed)
    · obtain ho | ho := List.mem_append.mp ho
      · exact .inr (.inr ⟨o, ho, resets⟩)
      · cases List.mem_singleton.mp ho
        cases resets
  | dropped _ _ _ _ hs | withdrawn _ _ _ hs | overgranted _ _ _ _ hs | mistrailed _ _ _ hs
  | trailered _ _ hs | delivered _ _ _ hs | mismatched _ _ _ _ hs | overspent _ _ _ hs
  | credited _ hs | responded _ _ _ hs | refused _ _ _ _ _ hs | oversized _ _ _ hs
  | pushed _ hs | trailersDue _ _ _ hs | turned _ _ _ _ hs => exact live hs
  | @stray now w _ code limit heard frame stream gone fits =>
    obtain ⟨c₀, rfl, permit⟩ := heard
    refine was (ConnCore.opened_mono (c := c₀) ?_ (Nat.le_refl _) rfl)
    have heeded : c₀.misses w = false := permit
    unfold ConnCore.misses at heeded
    rw [frame] at heeded
    refine ConnCore.opened_of_not_idle ?_ stream
    simpa using heeded
  | @flushed now es e limit owed fits =>
    refine was (minds e.stream (ConnCore.knows_iff.mpr (.inr (.inl ?_))))
    unfold ConnCore.owed
    simp [owed, List.countP_append]
  | crowded now cause refused fits =>
    obtain ⟨odd, -, table⟩ := StreamTable.openPeer_refused refused
    intro _
    refine ConnCore.opened_grows (ConnCore.opened_iff.mpr ⟨odd, .inl ?_⟩)
      ((Says.refl _).writeRst now id .refusedStream fits)
    show id ≤ (c.streams.openPeer id).1.highestPeerId
    rw [table]
    exact Nat.le_refl _
  | turnedAway now permit idle drained fits =>
    exact was (ConnCore.opened_iff.mpr ⟨permit.2 drained idle rfl, .inr permit.1⟩)
  | malformed now contentLength code isOpen cause fits =>
    exact fun _ => ConnCore.opened_grows (ConnCore.opened_openRequest now _ _ isOpen)
      (((Says.refl _).declare id contentLength).writeRst now id code fits)
  | dispatched now contentLength isOpen cause valid served fits =>
    exact fun _ => ConnCore.opened_grows (ConnCore.opened_openRequest now _ _ isOpen)
      (((Says.refl _).declare id contentLength).call _ _)
  | answered now status enc isOpen cause fits =>
    exact fun _ => ConnCore.opened_grows (ConnCore.opened_openRequest now _ _ isOpen)
      ((Says.refl _).respond now id _ true enc fits)
  | late now permit frame gone conn fits =>
    obtain ⟨-, seen⟩ := StreamTable.lookup_closed gone
    have heeded : c.misses _ = false := permit
    unfold ConnCore.misses at heeded
    rw [WireFrame.decode_of_data? frame] at heeded
    refine was (ConnCore.opened_of_not_idle ?_ (WireFrame.data?_stream frame))
    simpa [seen, conn, Except.isOk, Except.toBool] using heeded

theorem Move.minds (h : Move minding c c') (minds : c.Minds) : c'.Minds := by
  intro id
  have grows := h.grows
  refine h.each (I := fun id c => c.knows id → c.opened id) ?_ ?_ ?_ (minds id)
  · intro id same kept knows
    exact ConnCore.opened_grows (kept (ConnCore.knows_untouched same knows)) grows
  · intro notes id kept knows
    refine ConnCore.opened_grows (kept (ConnCore.knows_iff.mpr ?_)) grows
    rcases ConnCore.knows_iff.mp knows with live | owed | reset
    · have same := notes.alike.live id
      generalize c.streams.get? id = was, c'.streams.get? id = now at same live
      cases same with
      | none => exact .inl live
      | some => exact .inl rfl
    · refine .inr (.inl ?_)
      unfold ConnCore.owed at owed ⊢
      rwa [notes.owed] at owed
    · rw [notes.log] at reset
      exact .inr (.inr reset)
  · exact fun id move _ => move.minds minds

/-- Every stream that was reset was opened or asked for. -/
def ConnCore.Spares (c : ConnCore σ μ) : Prop :=
  ∀ id, (∃ o ∈ c.log, o.resets id) → c.opened id

omit [Service σ μ] in
theorem ConnCore.Minds.spares (minds : c.Minds) : c.Spares :=
  fun id reset => minds id (ConnCore.knows_iff.mpr (.inr (.inr reset)))

omit [Service σ μ] in
/-- Nothing is reset but what was opened. -/
theorem ConnCore.Spares.grow (spares : c.Spares) (grows : Says c c')
    (reset : ∀ added, c'.log = c.log ++ added → ∀ o ∈ added, ∀ id, o.resets id → c'.opened id) :
    c'.Spares := by
  rintro id ⟨o, ho, resets⟩
  obtain ⟨added, log, -⟩ := grows.log
  rw [log] at ho
  obtain ho | ho := List.mem_append.mp ho
  · exact ConnCore.opened_grows (spares id ⟨o, ho, resets⟩) grows
  · exact reset added log o ho id resets

omit [Service σ μ] in
/-- All that happened concerns a stream that was opened. -/
theorem ConnCore.Spares.concerns (spares : c.Spares) (grows : Says c c') {on : Option StreamId}
    (concerns : Concerns on c c') (opened : ∀ id, on = some id → c'.opened id) : c'.Spares := by
  refine spares.grow grows fun added log o ho id resets => ?_
  obtain ⟨added', log', about⟩ := concerns.log
  cases List.append_cancel_left (log.symm.trans log')
  refine opened id (by_contra fun other => ?_)
  rw [((about o ho).others id other).resets] at resets
  cases resets

theorem Fault.spares {P : Permit σ μ} (h : Fault P c c') (minds : c.Minds) : c'.Spares := by
  have grows := h.grows
  have spares := minds.spares
  have here : ∀ on, Concerns on c c := fun on => .refl on c
  have nobody : Concerns .none c c' → c'.Spares := fun concerns =>
    spares.concerns grows concerns fun _ no => by cases no
  have live : ∀ {id : StreamId} {st : Stream}, c.streams.get? id = some st →
      Concerns (some id) c c' → c'.Spares := by
    intro id st hs concerns
    refine spares.concerns grows concerns ?_
    rintro _ ⟨⟩
    refine ConnCore.opened_grows (minds id (ConnCore.knows_iff.mpr (.inl ?_))) grows
    rw [hs]
    rfl
  have opens : ∀ {id : StreamId}, c'.opened id → Concerns (some id) c c' → c'.Spares := by
    intro id opened concerns
    refine spares.concerns grows concerns ?_
    rintro _ ⟨⟩
    exact opened
  cases h with
  | none => exact spares
  | heard w => exact nobody ((here _).observe (.heard w))
  | @idleData w =>
    exact nobody (((here _).observe (.heard w)).table rfl rfl rfl rfl rfl fun _ _ => rfl)
  | @opened now id endStream limit isOpen =>
    exact opens (ConnCore.opened_openRequest now endStream limit isOpen)
      ((here _).openRequest now limit endStream)
  | @unanswerable now id enc fields limit isOpen =>
    have asked := ConnCore.opened_openRequest now true limit isOpen
    exact opens (ConnCore.opened_grows asked ((Says.refl _).observe (.encoded enc fields limit)))
      (((here _).openRequest now limit true).observe (.encoded enc fields limit))
  | @received w id data endStream stream window recvWindow frame hs conn within =>
    exact live hs ((here _).receive w _ _ _)
  | @transmitted now id stream budget sendWindow limit permit hs =>
    exact live hs ((here _).transmit now limit _ sendWindow)
  | unencodableEvent e enc fields limit =>
    refine spares.grow grows fun added log o ho id resets => ?_
    cases List.append_cancel_left (log.symm.trans (List.append_assoc ..))
    simp only [List.cons_append, List.nil_append, List.mem_cons, List.not_mem_nil, or_false] at ho
    rcases ho with rfl | rfl <;> cases resets
  | @unencodable now id stream budget sendWindow enc fields limit permit hs =>
    exact live hs ((((here _).transmit now limit _ sendWindow).reportReleased now _).observe
      (.encoded enc fields limit))

theorem Conn.Closing.spares (h : Conn.Closing c c') (spares : c.Spares) : c'.Spares := by
  have grows := h.grows
  have here : Concerns none c c := .refl none c
  cases h with
  | quiet => exact spares.concerns grows (here.call _ (.inl rfl)) nofun
  | @failed now code debug limit fits =>
    refine spares.grow grows fun added log o ho id resets => ?_
    cases List.append_cancel_left (log.symm.trans (List.append_assoc ..))
    obtain rfl | ho := List.mem_cons.mp ho
    · cases resets
    · obtain rfl | ho := List.mem_cons.mp ho
      · cases resets
      · obtain ⟨x, -, hx⟩ := List.mem_filterMap.mp ho
        cases x with
        | emit event => cases hx
        | send message => cases hx; cases resets

end Moves

/-! ## Open header blocks -/

namespace Conn

variable {σ μ : Type}

/-- The header block that is open was asked for. -/
def Anchored (s : Conn σ μ) : Prop :=
  ∀ id, s.openHeaderBlock = some id → ∃ o ∈ s.log, o.asks id

/-- The log has grown, and the same header block is open. -/
structure Beside (s t : Conn σ μ) : Prop where
  openHeaderBlock : t.openHeaderBlock = s.openHeaderBlock
  log : ∃ added, t.log = s.log ++ added

instance : Std.Refl (Beside (σ := σ) (μ := μ)) := ⟨fun _ => ⟨rfl, [], (List.append_nil _).symm⟩⟩

instance : IsTrans (Conn σ μ) Beside := by
  refine ⟨fun r s t h h' => ⟨h'.openHeaderBlock.trans h.openHeaderBlock, ?_⟩⟩
  obtain ⟨added, log⟩ := h.log
  obtain ⟨added', log'⟩ := h'.log
  exact ⟨added ++ added', by rw [log', log, List.append_assoc]⟩

variable {s t : Conn σ μ}

theorem Calm.beside (h : Calm s t) : Beside s t := by
  obtain ⟨added, log, -⟩ := h.core.log
  exact ⟨h.openHeaderBlock, added, log⟩

theorem Beside.onCore {f : ConnCore σ μ → ConnCore σ μ} (log : (f s.toConnCore).log = s.log) :
    Follows Beside s (onCore f s) :=
  ⟨rfl, [], log.trans (List.append_nil _).symm⟩

theorem Beside.rest (log : t.log = s.log) (openHeaderBlock : t.openHeaderBlock = s.openHeaderBlock) :
    Beside s t :=
  ⟨openHeaderBlock, [], log.trans (List.append_nil _).symm⟩

theorem Beside.anchored (h : Beside s t) (anchored : s.Anchored) : t.Anchored := by
  intro id open_
  obtain ⟨added, log⟩ := h.log
  obtain ⟨o, ho, asks⟩ := anchored id (h.openHeaderBlock ▸ open_)
  exact ⟨o, log ▸ List.mem_append_left _ ho, asks⟩

theorem queueFrame_beside (s : Conn σ μ) (frame : Frame) : Follows Beside s (queueFrame frame s) := by
  unfold queueFrame queueFields
  cases frame.write with
  | error e => exact .throw _
  | ok octets =>
    refine .get (.bind (x := onCore _) ⟨rfl, _, rfl⟩ fun _ t _ => ?_)
    exact .modify (.rest rfl rfl)

theorem recvSettings_beside (s : Conn σ μ) (params : List (UInt16 × UInt32)) :
    Follows Beside s (recvSettings params s) := by
  refine .get (.get (.bind (.modify (.rest rfl rfl)) fun _ t _ => ?_))
  cases (s.peerSettings.apply params).2 with
  | error e => exact .throw _
  | ok u =>
    refine .bind (.modify (.rest rfl rfl)) fun _ u _ => .ite (fun _ => ?_) fun _ =>
      queueFrame_beside u _
    refine .get ?_
    rcases u.streams.applyInitialWindowDelta _ with ⟨streams, shifted⟩
    refine .bind (.onCore rfl) fun _ v _ => ?_
    cases shifted with
    | error code => exact .throw _
    | ok u => exact queueFrame_beside v _

theorem recvSettingsAck_beside (s : Conn σ μ) : Follows Beside s (recvSettingsAck s) := by
  refine .bind (.modify (.rest rfl rfl)) fun _ t _ => .get (.ite (fun _ => ?_) fun _ => .pure _)
  exact .bind (.modify (.rest rfl rfl)) fun _ u _ => .onCore rfl

variable [Service σ μ]

theorem recvWindowUpdate_beside (s : Conn σ μ) (id : StreamId) (increment : Nat) :
    Follows Beside s (recvWindowUpdate id increment s) := by
  have reset : ∀ t : Conn σ μ, ∀ code, Follows Beside t (writeRstStream id code t) :=
    fun t code => (writeRstStream_calm t id code).mono fun _ => Calm.beside
  refine .ite (fun _ => .ite (fun _ => .throw _) fun _ => reset s _) fun _ =>
    .ite (fun _ => .get ?_) fun _ => .get ?_
  · cases s.connSendWindow.increase increment with
    | error code => exact .throw _
    | ok connSendWindow => exact .modify (.rest rfl rfl)
  · cases s.streams.lookup id with
    | idle => exact .throw _
    | closed => exact .pure _
    | live stream =>
      dsimp only
      cases stream.sendWindow.increase increment with
      | error code => exact reset s _
      | ok sendWindow =>
        exact .bind (.onCore rfl) fun _ t _ => (enqueueReady_calm t id).mono fun _ => Calm.beside

omit [Service σ μ] in
theorem Beside.ends {α : Type} {r : EStateM.Result ConnectionError (Conn σ μ) α}
    (h : Follows Beside s r) (anchored : s.Anchored) :
    Ends r (fun _ => Anchored) fun _ _ => True :=
  Ends.mono h (fun _ _ ht => ht.anchored anchored) fun _ _ _ => trivial

omit [Service σ μ] in
/-- A CONTINUATION in order belongs to the header block that is open. -/
theorem openHeaderBlock_of_continuation {id : StreamId}
    (inOrder : s.headerBlockError .continuation id = none) : s.openHeaderBlock = some id := by
  unfold headerBlockError at inOrder
  cases hopen : s.openHeaderBlock with
  | none => rw [hopen] at inOrder; cases inOrder
  | some open_ =>
    rw [hopen] at inOrder
    dsimp only at inOrder
    split at inOrder
    · rename_i same
      simp only [decide_true, Bool.true_and, decide_eq_true_eq] at same
      rw [same]
    · cases inOrder

/-- A fragment of a header block that was asked for leaves it open, or none. -/
theorem readFragment_anchored {id : StreamId} (fragment : Bytes) (endHeaders : Bool)
    (asked : ∃ o ∈ s.log, o.asks id) :
    Ends ((do
      readHeaderBlock id fragment endHeaders
      modify fun s => { s with openHeaderBlock := if endHeaders then none else some id }
      pure .continue_ : ConnM σ μ Next) s) (fun _ => Anchored) fun _ _ => True := by
  rw [ends_bind]
  refine Ends.mono (readHeaderBlock_calm s id fragment endHeaders) (fun _ t calm => ?_)
    fun _ _ _ => trivial
  rw [ends_bind, ends_modify]
  intro id' open_
  have open_ : (if endHeaders then none else some id) = some id' := open_
  split at open_
  · cases open_
  · cases open_
    obtain ⟨o, ho, asks⟩ := asked
    obtain ⟨added, log, -⟩ := calm.core.log
    exact ⟨o, log ▸ List.mem_append_left _ ho, asks⟩

theorem handleFrame_anchored {f : Frame} (anchored : s.Anchored)
    (asked : ∀ id block endStream endHeaders, f = .headers id block endStream endHeaders →
      ∃ o ∈ s.log, o.asks id) :
    Ends (handleFrame f s) (fun _ => Anchored) fun _ _ => True := by
  have guards : ∀ f : Guard → Guard × Verdict, Follows Beside s (guarded f s) := fun f =>
    (calm_guarded s f).mono fun _ => Calm.beside
  unfold handleFrame
  rw [ends_bind, ends_get]
  cases hblock : s.headerBlockError f.kind f.streamId with
  | some e => trivial
  | none =>
    cases f with
    | settings ack params =>
      cases ack with
      | false =>
        refine Beside.ends ?_ anchored
        exact .bind (guards _) fun _ t _ => .bind (recvSettings_beside t params) fun _ u _ => .pure _
      | true =>
        refine Beside.ends ?_ anchored
        exact .bind (guards _) fun _ t _ => .bind (recvSettingsAck_beside t) fun _ u _ => .pure _
    | ping data ack =>
      refine Beside.ends ?_ anchored
      refine .bind (guards _) fun _ t _ => .ite (fun _ => .pure _) fun _ => ?_
      exact .bind (queueFrame_beside t _) fun _ u _ => .pure _
    | goAway => exact anchored
    | windowUpdate id increment =>
      refine Beside.ends ?_ anchored
      exact .bind (recvWindowUpdate_beside s id increment) fun _ t _ => .pure _
    | headers id block endStream endHeaders =>
      dsimp only
      rw [ends_bind, ends_modify]
      exact readFragment_anchored block endHeaders (asked id block endStream endHeaders rfl)
    | continuation id block endHeaders =>
      exact readFragment_anchored block endHeaders (anchored id (openHeaderBlock_of_continuation hblock))
    | data id data endStream =>
      refine Beside.ends ?_ anchored
      exact .bind ((recvData_calm s id data endStream).mono fun _ => Calm.beside) fun _ t _ => .pure _
    | rstStream id code =>
      refine Beside.ends ?_ anchored
      exact .bind ((recvRstStream_calm s id code).mono fun _ => Calm.beside) fun _ t _ => .pure _

theorem recvWire_anchored (anchored : s.Anchored) (w : WireFrame) :
    Ends (recvWire w s) (fun _ => Anchored) fun _ _ => True := by
  have heard : (s.withCore (s.toConnCore.observe (.heard w))).Anchored :=
    Beside.anchored (s := s) ⟨rfl, _, rfl⟩ anchored
  unfold recvWire
  rw [ends_bind, ends_onCore, ends_bind, ends_get, ends_ite]
  refine ⟨fun _ => trivial, fun _ => ?_⟩
  cases hdec : w.decode with
  | error e => trivial
  | ok d =>
    cases d with
    | ignored kind id =>
      dsimp only
      generalize s.withCore (s.toConnCore.observe (.heard w)) = t at heard
      cases t.openHeaderBlock with
      | none => exact heard
      | some open_ =>
        dsimp only
        cases t.headerBlockError kind id with
        | none => exact heard
        | some e => trivial
    | frame f =>
      refine handleFrame_anchored heard ?_
      rintro id block endStream endHeaders rfl
      refine ⟨.heard w, List.mem_append_right _ List.mem_cons_self, ?_⟩
      have asks : w.asks = some id := by
        unfold WireFrame.asks
        rw [hdec]
      show w.asks.any (id ≤ ·) = true
      rw [asks]
      exact decide_eq_true (Nat.le_refl _)

theorem step_anchored (anchored : s.Anchored) (running : s.stop = none) (i : Instant × ConnInput)
    (goesOn : (step i s).stop = none) : (step i s).Anchored := by
  cases hi : frameOf i with
  | none =>
    rw [step_bare hi running]
    exact Beside.anchored (s := s) ⟨rfl, _, rfl⟩ anchored
  | some w =>
    rw [frame_of_some hi] at goesOn ⊢
    have here : ({ s with now := i.1 } : Conn σ μ).Anchored := anchored
    have kept := recvWire_anchored here w
    rw [show recvWire w { s with now := i.1 } = _ from step_goes_on running goesOn] at kept
    exact kept

end Conn

end H2Proxy
