import H2Proxy.Lib.Ends
import H2Proxy.Up.Moves

/-
  Every step of an upstream connection is a sequence of moves.

  `Goes` says of a program that it takes the core from `c`, where the moves so far began, on
  by allowed moves, whether it fails or not. The proofs follow the programs.
-/

namespace H2Proxy

/-- The request a message brings. -/
def ToUpstream.brings : ToUpstream → Option RequestId
  | request id .. => some id
  | _ => none

/-- The last stream id, where the frame is a GOAWAY. -/
def WireFrame.lastStreamId (w : WireFrame) : Option StreamId :=
  match w.decode with
  | .ok (.frame (.goAway last _ _)) => some last
  | _ => none

namespace Upstream

variable {α β : Type}

open UpstreamCore

/-- The program stops where allowed moves lead from `c`. -/
abbrev Goes (allows : Mishap → Prop) (c : UpstreamCore)
    (r : EStateM.Result ConnectionError Upstream α) : Prop :=
  Ends r (fun _ t => UpstreamCore.Moves allows c t.toUpstreamCore)
    fun _ t => UpstreamCore.Moves allows c t.toUpstreamCore

variable {allows : Mishap → Prop} {c c₁ : UpstreamCore} {s : Upstream}

/-! ## The plumbing -/

theorem ends_onCore {f : UpstreamCore → UpstreamCore} {Q E} :
    Ends (onCore f s) Q E ↔ Q () (s.withCore (f s.toUpstreamCore)) := Iff.rfl

theorem ends_fail {code : ErrorCode} {debug : String} {Q : α → Upstream → Prop} {E} :
    Ends ((fail code debug : UpM α) s) Q E ↔ E ⟨code, debug⟩ s := Iff.rfl

theorem ends_tell {request : RequestId} {events : Events} {event : ServiceEvent} {Q E} :
    Ends (tell request events event s) Q E ↔
      Q () (s.withCore (s.toUpstreamCore.observe (.told request events event))) := Iff.rfl

theorem ends_unready {id : StreamId} {Q E} :
    Ends (unready id s) Q E ↔ Q () { s with ready := s.ready.filter (· ≠ id) } := Iff.rfl

theorem ends_ignore {x : UpM Unit} {Q : Unit → Upstream → Prop} {E} :
    Ends (ignore x s) Q E ↔ Ends (x s) Q fun _ => Q () := by
  unfold ignore
  cases x s <;> rfl

@[simp] theorem withCore_core (s : Upstream) (c : UpstreamCore) :
    (s.withCore c).toUpstreamCore = c := rfl

theorem Goes.bind {x : UpM β} {f : β → UpM α} (hx : Goes allows c (x s))
    (hf : ∀ b t, UpstreamCore.Moves allows c t.toUpstreamCore → Goes allows c (f b t)) :
    Goes allows c ((x >>= f) s) := by
  rw [Goes, ends_bind]
  exact hx.mono (fun b t hm => hf b t hm) fun _ _ hm => hm

/-- Only notes are added. -/
abbrev Notes (s : Upstream) (r : EStateM.Result ConnectionError Upstream α) : Prop :=
  Ends r (fun _ t => Noted s.toUpstreamCore t.toUpstreamCore)
    fun _ t => Noted s.toUpstreamCore t.toUpstreamCore

theorem Notes.goes {r : EStateM.Result ConnectionError Upstream α} (h : Notes s r)
    (hm : UpstreamCore.Moves allows c s.toUpstreamCore) : Goes allows c r :=
  h.mono (fun _ _ hn => hm.trans hn.moves) fun _ _ hn => hm.trans hn.moves

/-! ## Writing -/

theorem queueFields_notes (s : Upstream) (frame : Frame) (fields : List Header) :
    Notes s (queueFields frame fields s) := by
  unfold queueFields
  cases frame.write with
  | error e => exact .refl _
  | ok octets =>
    simp only [ends_bind, ends_get, ends_onCore, ends_modify]
    exact .one rfl _

theorem queueFrame_notes (s : Upstream) (frame : Frame) : Notes s (queueFrame frame s) :=
  queueFields_notes s frame []

/-- A short frame is always queued. -/
theorem queueFrame_short (s : Upstream) {frame : Frame}
    (h : frame.payloadLen ≤ maxAllowedFrameSize) :
    Ends (queueFrame frame s) (fun _ t => Noted s.toUpstreamCore t.toUpstreamCore)
      fun _ _ => False := by
  unfold queueFrame queueFields
  cases hw : frame.write with
  | error e =>
    have := Frame.write_error hw
    omega
  | ok octets =>
    simp only [ends_bind, ends_get, ends_onCore, ends_modify]
    exact .one rfl _

theorem queueHeaders_notes (s : Upstream) (id : StreamId) (fields : List Header)
    (endStream : Bool) : Notes s (queueHeaders id fields endStream s) := by
  unfold queueHeaders
  simp only [ends_bind, ends_get, ends_onCore, ends_modify]
  have first := Noted.one (o := .encoded s.hpackEnc fields s.peerSettings.maxFrameSize) rfl
    s.toUpstreamCore
  exact (queueFields_notes _ _ _).mono (fun _ _ h => first.trans h) fun _ _ h => first.trans h

theorem enqueueReady_goes (id : StreamId) (h : UpstreamCore.Moves allows c s.toUpstreamCore) :
    Goes allows c (enqueueReady id s) := by
  unfold enqueueReady
  simp only [ends_bind, ends_get]
  cases s.streams.get? id with
  | none => exact h
  | some stream =>
    simp only [ends_ite, ends_pure, ends_bind, ends_onCore, ends_modify]
    exact ⟨fun _ => h, fun _ => h.tail (.stream id _ fun _ _ => ⟨rfl, rfl⟩)⟩

/-! ## Credit -/

/-- The connection's window is credited, where that is the end of a move. -/
theorem releaseConnWindow_goes (n : Nat)
    (h : UpstreamCore.Moves allows c
      { s.toUpstreamCore with connRecvWindow := (s.connRecvWindow.release n).1 }) :
    Goes allows c (releaseConnWindow n s) := by
  unfold releaseConnWindow
  simp only [ends_bind, ends_get, ends_onCore]
  cases (s.connRecvWindow.release n).2 with
  | some increment => exact (queueFrame_notes _ _).goes h
  | none => exact h

theorem releaseStream_ends (s : Upstream) (id : StreamId) (n : Nat) :
    Ends (releaseStream id n s)
      (fun _ t => Noted
        (s.modifyStream id fun st => { st with recvWindow := (st.recvWindow.release n).1 })
        t.toUpstreamCore)
      fun _ _ => False := by
  unfold releaseStream
  simp only [ends_bind, ends_get]
  cases hs : s.streams.get? id with
  | none =>
    have same : (s.modifyStream id fun st =>
        { st with recvWindow := (st.recvWindow.release n).1 }) = s.toUpstreamCore := by
      unfold UpstreamCore.modifyStream
      rw [StreamTable.modify_of_none _ hs]
    rw [same]
    exact .refl _
  | some stream =>
    have same : (s.modifyStream id fun st =>
        { st with recvWindow := (st.recvWindow.release n).1 }) =
          s.modifyStream id ({ · with recvWindow := (stream.recvWindow.release n).1 }) := by
      unfold UpstreamCore.modifyStream
      rw [StreamTable.modify_congr]
      intro st hst
      rw [Option.some.inj (hst.symm.trans hs)]
    rw [same]
    simp only [ends_bind, ends_onCore]
    cases (stream.recvWindow.release n).2 with
    | none => exact .refl _
    | some increment => exact queueFrame_short _ (show 4 ≤ maxAllowedFrameSize by decide)

theorem release_goes {request : RequestId} {id : StreamId} (n : Nat)
    (hr : s.requests.lookup request = some id)
    (overrun : ∀ route, s.routes.lookup id = some route → route.pendingConnRelease < n →
      allows .overrelease)
    (h : UpstreamCore.Moves allows c s.toUpstreamCore) : Goes allows c (release id n s) := by
  have moved := h.tail (.release hr overrun)
  have noted : ∀ t : Upstream, Noted
      ((s.modifyRoute id fun r =>
          { r with pendingConnRelease := r.pendingConnRelease - n }).modifyStream id
        fun st => { st with recvWindow := (st.recvWindow.release n).1 }) t.toUpstreamCore →
      Noted (s.toUpstreamCore.released id n)
        { t.toUpstreamCore with connRecvWindow := (t.connRecvWindow.release n).1 } := by
    rintro t ⟨notes, silent, ht⟩
    refine ⟨notes, silent, ?_⟩
    rw [ht]
    rfl
  unfold release
  simp only [ends_ite, ends_pure, ends_bind, ends_onCore]
  refine ⟨fun _ => h, fun _ => (releaseStream_ends _ id n).ok ?_⟩
  rintro - t ht
  exact releaseConnWindow_goes n (moved.trans (noted t ht).moves)

/-! ## Ending streams -/

/-- A stream is reset, where dropping it is the end of a move. -/
theorem writeRstStream_goes (id : StreamId) (code : ErrorCode)
    (h : UpstreamCore.Moves allows c (s.retire id)) : Goes allows c (writeRstStream id code s) := by
  unfold writeRstStream
  simp only [ends_bind, ends_onCore, ends_unready]
  exact (queueFrame_notes _ _).goes h

/-- A program that takes the core on by allowed moves from wherever it is. -/
abbrev Drains (allows : Mishap → Prop) (drain : UpM Unit) : Prop :=
  ∀ c s, UpstreamCore.Moves allows c s.toUpstreamCore → Goes allows c (drain s)

variable {drain : UpM Unit}

/-- A stream is forgotten, whatever has become of it since `c₁`. -/
theorem forgetWith_goes (hd : Drains allows drain) {id : StreamId}
    (h : UpstreamCore.Moves allows c c₁)
    (hs : Loses id c₁ s.toUpstreamCore) : Goes allows c (forgetWith drain id s) := by
  have moved : UpstreamCore.Moves allows c (s.forgotten id) := by
    rw [hs.forgotten]
    exact h.tail (.forget id)
  unfold UpstreamCore.forgotten at moved
  have last : ∀ t, UpstreamCore.Moves allows c t.toUpstreamCore →
      Ends (drain t) (fun _ t => UpstreamCore.Moves allows c t.toUpstreamCore)
        fun _ t => UpstreamCore.Moves allows c t.toUpstreamCore := fun t ht => hd c t ht
  unfold forgetWith
  simp only [ends_bind, ends_onCore, ends_unready, ends_get]
  have kept : (s.withCore (s.retire id)).routes = s.routes := rfl
  rw [kept]
  cases hr : s.routes.lookup id with
  | none =>
    rw [unrouted_none (c := s.retire id) hr] at moved
    exact ends_ignore.mpr (last _ moved)
  | some route =>
    rw [unrouted_some (c := s.retire id) hr] at moved
    simp only [ends_bind, ends_onCore, ends_ite, ends_ignore]
    refine ⟨fun hp => ?_, fun hp => ?_⟩
    · rw [if_pos hp] at moved
      exact (releaseConnWindow_goes _ moved).mono (fun _ t ht => last t ht) fun _ t ht => last t ht
    · rw [if_neg hp] at moved
      exact last _ moved

/-- A stream is failed, whatever has become of it since `c₁`. -/
theorem failStreamWith_goes (hd : Drains allows drain) {id : StreamId} (status : Nat)
    (h : UpstreamCore.Moves allows c c₁) (hs : Loses id c₁ s.toUpstreamCore) :
    Goes allows c (failStreamWith drain id status s) := by
  have reset : ∀ (c₂ : UpstreamCore) (t : Upstream), UpstreamCore.Moves allows c c₂ →
      Loses id c₂ t.toUpstreamCore →
      Goes allows c ((do
        if ((← get).streams.get? id).isSome then writeRstStream id .cancel else pure ()
        forgetWith drain id : UpM Unit) t) := by
    intro c₂ t h₂ ht
    simp only [ends_bind, ends_get, ends_ite]
    refine ⟨fun _ => ?_, fun _ => forgetWith_goes hd h₂ ht⟩
    unfold writeRstStream
    simp only [ends_bind, ends_onCore, ends_unready]
    have short : (Frame.rstStream id .cancel).payloadLen ≤ maxAllowedFrameSize :=
      show 4 ≤ maxAllowedFrameSize by decide
    refine (queueFrame_short _ short).ok ?_
    rintro - u hu
    obtain ⟨d, hn, hl⟩ := (ht.trans (.retired _)).noted hu
    exact forgetWith_goes hd (h₂.trans hn.moves) hl
  unfold failStreamWith
  simp only [ends_bind, ends_get]
  cases hr : s.routes.lookup id with
  | none => exact reset c₁ s h hs
  | some route =>
    have hr₁ : c₁.routes.lookup id = some route := hs.routes ▸ hr
    exact reset _ _ (h.tail (.tell _ hr₁)) (hs.log [_])

/-- An event that does not end the backend's side is applied. -/
theorem applyStreamEventWith_goes (hd : Drains allows drain) {id : StreamId} {event : StreamEvent}
    (he : event.endsRecv = false) (h : UpstreamCore.Moves allows c s.toUpstreamCore) :
    Goes allows c (applyStreamEventWith drain id event s) := by
  unfold applyStreamEventWith
  simp only [ends_bind, ends_get, ends_onCore]
  cases hr : (s.streams.apply id event).2 with
  | ok next =>
    have moved := h.tail (.advance hr he)
    simp only [ends_ite, ends_unready, ends_pure]
    exact ⟨fun _ => moved, fun _ => moved⟩
  | error e =>
    have same : Loses id s.toUpstreamCore
        { s.toUpstreamCore with streams := (s.streams.apply id event).1 } := .applied event _
    simp only [ends_ite, ends_fail]
    refine ⟨fun _ => ?_, fun _ => failStreamWith_goes hd 502 h same⟩
    rw [StreamTable.apply_error hr]
    exact h

/-- An event is applied, and the stream forgotten where it ends the backend's side. -/
theorem finishStream_goes (hd : Drains allows drain) {id : StreamId} (event : StreamEvent)
    (h : UpstreamCore.Moves allows c s.toUpstreamCore) :
    Goes allows c ((do
      applyStreamEventWith drain id event
      if event.endsRecv then forgetWith drain id else pure () : UpM Unit) s) := by
  cases he : event.endsRecv with
  | false =>
    exact Goes.bind (applyStreamEventWith_goes hd he h) fun _ _ ht => ht
  | true =>
    simp only [ends_bind, if_true]
    unfold applyStreamEventWith
    simp only [ends_bind, ends_get, ends_onCore]
    have lost : Loses id s.toUpstreamCore
        { s.toUpstreamCore with streams := (s.streams.apply id event).1 } := .applied event _
    cases hr : (s.streams.apply id event).2 with
    | ok next =>
      simp only [ends_ite, ends_unready, ends_pure]
      exact ⟨fun _ => forgetWith_goes hd h lost, fun _ => forgetWith_goes hd h lost⟩
    | error e =>
      simp only [ends_ite, ends_fail]
      refine ⟨fun _ => ?_, fun _ => ?_⟩
      · rw [StreamTable.apply_error hr]
        exact h
      · refine (failStreamWith_goes hd 502 h lost).mono (fun _ t ht => ?_) fun _ _ ht => ht
        exact forgetWith_goes hd ht (.refl _)

/-! ## Starting streams -/

/-- A stream that was just opened sends its HEADERS without fail. -/
theorem sendHeaders_goes (drain : UpM Unit) {id : StreamId} (endStream : Bool) {st : Stream}
    (hs : s.streams.get? id = some st) (idle : st.state = .idle)
    (h : UpstreamCore.Moves allows c s.toUpstreamCore) :
    Goes allows c (applyStreamEventWith drain id (.sendHeaders endStream) s) := by
  obtain ⟨next, hr⟩ : ∃ next, (s.streams.apply id (.sendHeaders endStream)).2 = .ok next := by
    unfold StreamTable.apply
    rw [hs]
    dsimp only
    rw [idle]
    exact ⟨_, rfl⟩
  have moved := h.tail (.advance hr rfl)
  unfold applyStreamEventWith
  simp only [ends_bind, ends_get, ends_onCore, hr]
  simp only [ends_ite, ends_unready, ends_pure]
  exact ⟨fun _ => moved, fun _ => moved⟩

/-- A request is dropped, refused, put in the queue or given a stream. -/
theorem sendRequestWith_goes (drain : UpM Unit) {request : RequestId} {clientId : StreamId}
    {head : RequestHead} {endStream : Bool} {events : Events}
    (h : UpstreamCore.Moves allows c s.toUpstreamCore)
    (hwait : s.streams.canOpenLocal = false → s.pending.length < s.maxPending →
      request ∉ s.cancelled → s.peerDraining = none →
      UpstreamCore.Moves allows c { s.toUpstreamCore with
        pending := s.pending ++ [⟨request, clientId, head, endStream, events, [], none⟩] })
    (hopen : s.streams.canOpenLocal = true → request ∉ s.cancelled → s.peerDraining = none →
      ∀ id, (s.streams.openLocal id).2 = .ok () →
      UpstreamCore.Moves allows c (s.opened id request clientId events)) :
    Goes allows c (sendRequestWith drain request clientId head endStream events s) := by
  unfold sendRequestWith
  simp only [ends_bind, ends_get]
  split
  · exact h.tail (.uncancel request)
  rename_i hc
  split
  · exact h.tail (.answer request events _)
  rename_i hdrain
  have hdrain : s.peerDraining = none := by simpa using hdrain
  split
  · rename_i hfull
    split
    · exact h.tail (.answer request events _)
    · rename_i hroom
      simp only [ends_bind, ends_onCore]
      exact (hwait (by simpa using hfull) (by omega) hc hdrain).tail (.publish _)
  · rename_i hfull
    have moved := hopen (by simpa using hfull) hc hdrain (.new s.nextStreamId)
    simp only [ends_bind, ends_onCore]
    cases hr : (s.streams.openLocal (.new s.nextStreamId)).2 with
    | error e =>
      simp only [ends_tell]
      have skipped := (h.tail .skip).tail (.answer request events (.reset clientId .refusedStream))
      show UpstreamCore.Moves allows c { s.toUpstreamCore with
        nextStreamId := satAdd32 s.nextStreamId 2
        streams := (s.streams.openLocal (.new s.nextStreamId)).1
        log := s.log ++ [.told request events (.reset clientId .refusedStream)] }
      rw [StreamTable.openLocal_error hr]
      exact skipped
    | ok u =>
      have moved := moved hr
      simp only [ends_bind, ends_onCore]
      have noted : Noted (s.opened (.new s.nextStreamId) request clientId events) _ :=
        .one (o := .opened (.new s.nextStreamId) s.streams.liveCount) rfl _
      refine (queueHeaders_notes _ _ _ _).mono ?_ fun _ _ hn => moved.trans (noted.trans hn).moves
      rintro - t ht
      have hn := noted.trans ht
      have live : t.streams.get? (.new s.nextStreamId) =
          some (.new s.streams.initialSendWindow s.streams.initialRecvWindow) := by
        rw [hn.streams]
        show (s.streams.openLocal (.new s.nextStreamId)).1.get? _ = _
        rw [(StreamTable.openLocal_ok hr).2.2.2, StreamTable.get?_insertNew, if_pos rfl]
      exact sendHeaders_goes drain endStream live rfl (moved.trans hn.moves)

theorem sendWaiting_goes (p : Pending) (id : StreamId)
    (h : UpstreamCore.Moves allows c s.toUpstreamCore) :
    Goes allows c (sendWaiting p id s) := by
  unfold sendWaiting
  simp only [ends_bind, ends_onCore]
  exact enqueueReady_goes id (h.tail (.stream id _ fun _ _ => ⟨rfl, rfl⟩))

theorem drainPendingFrom_drains (fuel : Nat) : Drains allows (drainPendingFrom fuel) := by
  induction fuel with
  | zero => exact fun c s h => h
  | succ fuel ih =>
    intro c s h
    unfold drainPendingFrom
    rw [Goes, ends_bind, ends_get]
    split
    case isFalse => exact h
    rename_i hopen
    cases hp : s.pending with
    | nil => exact h.tail (.publish _)
    | cons p pending =>
    dsimp only
    rw [ends_bind, ends_onCore, ends_bind, syncQueued, ends_onCore]
    generalize ht : (s.withCore { s.toUpstreamCore with pending }).withCore _ = t
    have core : t.toUpstreamCore = { s.toUpstreamCore with
        pending, published := { s.published with queued := pending.length } } := by
      rw [← ht]
      rfl
    have taken : UpstreamCore.Moves allows c t.toUpstreamCore := by
      rw [core]
      exact (h.tail (.take hp)).tail (.publish _)
    refine Goes.bind (sendRequestWith_goes _ taken ?_ ?_) fun _ u hu => ?_
    · intro full
      rw [show t.streams = s.streams from congrArg (·.streams) core, hopen] at full
      cases full
    · intro _ _ _ id hid
      rw [core]
      rw [show t.streams = s.streams from congrArg (·.streams) core] at hid
      have published : UpstreamCore.Moves allows c
          { s.toUpstreamCore with published := { s.published with queued := pending.length } } :=
        h.tail (.publish _)
      exact published.tail (.start hp hid)
    · rw [Goes, ends_bind, ends_get]
      cases u.requests.lookup p.request with
      | none => exact ih c u hu
      | some id => exact Goes.bind (sendWaiting_goes p id hu) fun _ v hv => ih c v hv

theorem drainPending_drains : Drains allows drainPending := by
  intro c s h
  unfold drainPending
  rw [Goes, ends_bind, ends_get]
  exact drainPendingFrom_drains _ c s h

theorem forget_goes {id : StreamId}
    (h : UpstreamCore.Moves allows c c₁) (hs : Loses id c₁ s.toUpstreamCore) :
    Goes allows c (forget id s) :=
  forgetWith_goes drainPending_drains h hs

theorem failStream_goes {id : StreamId} (status : Nat) (h : UpstreamCore.Moves allows c c₁)
    (hs : Loses id c₁ s.toUpstreamCore) : Goes allows c (failStream id status s) :=
  failStreamWith_goes drainPending_drains status h hs

/-! ## Messages -/

/-- Whether a message breaks what clients promise: a request id that is in use, a release of
    more than is held. -/
def reuses (s : Upstream) : ToUpstream → Bool
  | .request id .. => s.inUse id
  | _ => false

def overreleases (s : Upstream) : ToUpstream → Bool
  | .released request n =>
    ((s.requests.lookup request).bind s.routes.lookup).any (·.pendingConnRelease < n)
  | _ => false

/-- A request that has no stream is cancelled. -/
def dismissed (s : Upstream) : ToUpstream → Option RequestId
  | .cancel request _ => if s.requests.lookup request = none then some request else none
  | _ => none

theorem handleMessage_goes {m : ToUpstream} (hreuse : s.reuses m → allows .reuse)
    (hover : s.overreleases m → allows .overrelease)
    (hbrings : ∀ r, m.brings = some r → allows (.arrive r))
    (hdismissed : ∀ r, s.dismissed m = some r → allows (.dismiss r))
    (h : UpstreamCore.Moves allows c s.toUpstreamCore) :
    Goes allows c (handleMessage m s) := by
  unfold handleMessage
  rw [Goes, ends_bind, ends_onCore]
  have took := h.tail (.note (.took m) rfl)
  have kept : (s.withCore (s.observe (.took m))).requests = s.requests := rfl
  cases m with
  | request id clientId head endStream events =>
    refine sendRequestWith_goes _ took ?_ ?_
    · exact fun _ _ _ _ => took.tail (.wait _ (hbrings id rfl) hreuse)
    · exact fun _ _ _ _ hid => took.tail (.accept id clientId events hid (hbrings id rfl) hreuse)
  | body request data endStream =>
    dsimp only
    rw [ends_bind, ends_get]
    rw [kept]
    cases s.requests.lookup request with
    | none =>
      rw [ends_onCore]
      exact took.tail (.amend request _ fun _ => rfl)
    | some id =>
      dsimp only
      rw [ends_bind, ends_onCore]
      exact enqueueReady_goes _ (took.tail (.stream id _ fun _ _ => ⟨rfl, rfl⟩))
  | trailers request fields =>
    dsimp only
    rw [ends_bind, ends_get]
    rw [kept]
    cases s.requests.lookup request with
    | none =>
      rw [ends_onCore]
      exact took.tail (.amend request _ fun _ => rfl)
    | some id =>
      dsimp only
      rw [ends_bind, ends_onCore]
      exact enqueueReady_goes _ (took.tail (.stream id _ fun _ _ => ⟨rfl, rfl⟩))
  | released request n =>
    dsimp only
    rw [ends_bind, ends_get]
    rw [kept]
    cases hr : s.requests.lookup request with
    | none => exact took
    | some id =>
      refine release_goes n hr (fun route hroute less => hover ?_) took
      show ((s.requests.lookup request).bind s.routes.lookup).any (·.pendingConnRelease < n) = true
      rw [show s.requests.lookup request = some id from hr, Option.bind_some,
        show s.routes.lookup id = some route from hroute]
      exact decide_eq_true less
  | cancel request code =>
    dsimp only
    rw [ends_bind, ends_get]
    rw [kept]
    cases hr : s.requests.lookup request with
    | none =>
      rw [ends_bind, ends_onCore, ends_bind, syncQueued, ends_onCore, ends_onCore]
      have dismissed := hdismissed request (by
        rw [Upstream.dismissed, if_pos hr])
      exact ((took.tail (.unwait request)).tail (.publish _)).tail (.cancel request dismissed)
    | some id =>
      dsimp only
      rw [ends_bind, ends_get]
      split
      · unfold writeRstStream
        rw [ends_bind, ends_bind, ends_onCore, ends_bind, ends_unready]
        have short : (Frame.rstStream id code).payloadLen ≤ maxAllowedFrameSize :=
          show 4 ≤ maxAllowedFrameSize by decide
        refine (queueFrame_short _ short).ok ?_
        rintro - u hu
        obtain ⟨d, hn, hl⟩ := (Loses.retired _).noted hu
        exact forget_goes (took.trans hn.moves) hl
      · exact forget_goes took (.refl _)

/-! ## Frames -/

theorem refusePending_goes (ps : List Pending) (h : UpstreamCore.Moves allows c s.toUpstreamCore) :
    Goes allows c (refusePending ps s) := by
  induction ps generalizing s with
  | nil => exact h
  | cons p ps ih =>
    unfold refusePending
    rw [Goes, ends_bind, ends_tell]
    exact ih (h.tail (.answer p.request p.events _))

theorem abandon_goes (ids : List StreamId) (h : UpstreamCore.Moves allows c s.toUpstreamCore) :
    Goes allows c (abandon ids s) := by
  induction ids generalizing s with
  | nil => exact h
  | cons id ids ih =>
    unfold abandon
    rw [Goes, ends_bind, ends_get]
    have rest : ∀ t : Upstream, UpstreamCore.Moves allows c t.toUpstreamCore →
        Goes allows c ((do forget id; abandon ids : UpM Unit) t) := fun t ht =>
      Goes.bind (forget_goes ht (.refl _)) fun _ u hu => ih hu
    cases hr : s.routes.lookup id with
    | none => exact rest s h
    | some route => exact rest _ (h.tail (.tell _ hr))

theorem beginPeerDrain_goes (last : StreamId) (hgo : allows .goAway)
    (h : UpstreamCore.Moves allows c s.toUpstreamCore) :
    Goes allows c (beginPeerDrain last s) := by
  unfold beginPeerDrain
  rw [Goes, ends_bind, ends_get, ends_bind, ends_onCore]
  have drained := (h.tail (.publish { s.published with retired := true })).tail
    (.drain last (s.now + peerDrainDeadline) hgo)
  exact Goes.bind (refusePending_goes _ drained) fun _ t ht => abandon_goes _ ht

/-- Moves lead from `c` to where the program ends, but for what DATA that ends the connection
    took from the receive window. -/
abbrev Reaches (allows : Mishap → Prop) (c : UpstreamCore)
    (r : EStateM.Result ConnectionError Upstream α) : Prop :=
  Ends r (fun _ t => UpstreamCore.Moves allows c t.toUpstreamCore)
    fun _ t => ∃ connRecvWindow,
      UpstreamCore.Moves allows c { t.toUpstreamCore with connRecvWindow }

theorem Goes.reaches {r : EStateM.Result ConnectionError Upstream α} (h : Goes allows c r) :
    Reaches allows c r :=
  h.mono (fun _ _ ht => ht) fun _ _ ht => ⟨_, ht⟩

theorem Reaches.bind {x : UpM β} {f : β → UpM α} (hx : Reaches allows c (x s))
    (hf : ∀ b t, UpstreamCore.Moves allows c t.toUpstreamCore → Reaches allows c (f b t)) :
    Reaches allows c ((x >>= f) s) := by
  rw [Reaches, ends_bind]
  exact hx.mono (fun b t hm => hf b t hm) fun _ _ hm => hm

theorem recvResponse_reaches (id : StreamId) (headers : List Header) (endStream : Bool)
    (h : UpstreamCore.Moves allows c s.toUpstreamCore) :
    Reaches allows c (recvResponse id headers endStream s) := by
  have finish : ∀ t : Upstream, UpstreamCore.Moves allows c t.toUpstreamCore →
      Reaches allows c ((do
      applyStreamEvent id (.recvHeaders endStream)
      if endStream then forget id else pure () : UpM Unit) t) := fun t ht =>
    (finishStream_goes drainPending_drains (.recvHeaders endStream) ht).reaches
  unfold recvResponse
  rw [Reaches, ends_bind, ends_get]
  cases s.streams.lookup id with
  | idle => exact ⟨_, h⟩
  | closed | live =>
    cases hr : s.routes.lookup id with
    | none => exact h
    | some route =>
      dsimp only
      refine ends_ite.mpr ⟨fun _ => ?_, fun _ => ?_⟩
      · cases validateTrailers headers with
        | error => exact finish s h
        | ok => exact finish _ (h.tail (.tell _ hr))
      · cases ResponseHead.fromHeaders headers with
        | error => exact (failStream_goes 502 h (.refl _)).reaches
        | ok head =>
          refine ends_ite.mpr ⟨fun _ => ?_, fun _ => ?_⟩
          · exact (applyStreamEventWith_goes drainPending_drains rfl h).reaches
          · have headed : (UpstreamCore.modifyRoute id ({ · with headSent := true })
                s.toUpstreamCore).routes.lookup id = some { route with headSent := true } := by
              show (s.routes.modify id _).lookup id = _
              rw [AList.lookup_modify, if_pos rfl, hr]
              rfl
            have told := (h.tail (.head id)).tail
              (.tell (.head route.clientId ⟨head.status, head.fields⟩ endStream) headed)
            exact finish _ told

theorem readHeaderBlock_reaches (id : StreamId) (fragment : Bytes) (endHeaders : Bool)
    (h : UpstreamCore.Moves allows c s.toUpstreamCore) :
    Reaches allows c (readHeaderBlock id fragment endHeaders s) := by
  unfold readHeaderBlock
  rw [Reaches, ends_bind, ends_get]
  refine ends_ite.mpr ⟨fun _ => ⟨_, h⟩, fun _ => ends_ite.mpr ⟨fun _ => h, fun _ => ?_⟩⟩
  rw [ends_bind, ends_modify, ends_bind, ends_get]
  generalize ht : ({ s with headerBlock := [] } : Upstream) = t
  have moved : UpstreamCore.Moves allows c t.toUpstreamCore := ht ▸ h
  rcases t.hpackDec.decode (s.headerBlock ++ fragment) with ⟨hpackDec, result⟩
  dsimp only
  rw [ends_bind, ends_modify]
  cases result with
  | ok headers =>
    exact recvResponse_reaches (s := { t with hpackDec }) id headers t.openHeaderEndStream moved
  | error e =>
    cases e with
    | headerListTooLarge =>
      exact (failStream_goes (s := { t with hpackDec }) 502 moved (.refl _)).reaches
    | _ => exact ⟨_, moved⟩

/-- DATA on a live stream, within the connection's window, exceeds the stream's. -/
def overspends (s : Upstream) : Frame → Bool
  | .data id data _ =>
    (s.streams.get? id).any fun stream => !(stream.recvWindow.record data.length).isOk
  | _ => false

/-- Whether a WINDOW_UPDATE is answered with a reset of the stream. -/
def spoils (id : StreamId) (increment : Nat) (stream : Stream) : Bool :=
  !id.isConnection && (increment = 0 || !(stream.sendWindow.increase increment).isOk)

/-- A WINDOW_UPDATE drops a live stream and nothing with it. -/
def orphans (s : Upstream) : Frame → Bool
  | .windowUpdate id increment => (s.streams.get? id).any (spoils id increment)
  | _ => false

theorem orphans_windowUpdate (s : Upstream) (id : StreamId) (increment : Nat) :
    s.orphans (.windowUpdate id increment) = (s.streams.get? id).any (spoils id increment) := rfl

theorem overspends_data (s : Upstream) (id : StreamId) (data : Bytes) (endStream : Bool) :
    s.overspends (.data id data endStream) = (s.streams.get? id).any fun stream =>
      !(stream.recvWindow.record data.length).isOk := rfl

theorem recvData_reaches (id : StreamId) (data : Bytes) (endStream : Bool)
    (hover : s.overspends (.data id data endStream) → allows .overspend)
    (h : UpstreamCore.Moves allows c s.toUpstreamCore) :
    Reaches allows c (recvData id data endStream s) := by
  have finish : ∀ t : Upstream, UpstreamCore.Moves allows c t.toUpstreamCore →
      Reaches allows c ((do
      applyStreamEvent id (.recvData endStream)
      if endStream then forget id else pure () : UpM Unit) t) := fun t ht =>
    (finishStream_goes drainPending_drains (.recvData endStream) ht).reaches
  unfold recvData
  rw [Reaches, ends_bind, ends_get]
  cases hconn : s.connRecvWindow.record data.length with
  | error code => exact ⟨_, h⟩
  | ok connRecvWindow =>
    dsimp only
    rw [ends_bind, ends_onCore, ends_bind, ends_get]
    have kept : (s.withCore { s.toUpstreamCore with connRecvWindow }).streams = s.streams := rfl
    rw [kept]
    cases hlook : s.streams.lookup id with
    | idle => exact ⟨s.connRecvWindow, h⟩
    | closed =>
      have back := h.tail (.giveBack hconn)
      exact (releaseConnWindow_goes (s := s.withCore { s.toUpstreamCore with connRecvWindow }) _
        back).reaches
    | live stream =>
      have hlive := StreamTable.lookup_live.mp hlook
      dsimp only
      cases hrecv : stream.recvWindow.record data.length with
      | error code =>
        have spent := h.tail (.overspend hconn (hover (by
          rw [overspends_data, hlive]
          simp [hrecv, Except.isOk, Except.toBool])))
        dsimp only
        unfold writeRstStream
        rw [ends_bind, ends_bind, ends_onCore, ends_bind, ends_unready]
        have short : (Frame.rstStream id .flowControlError).payloadLen ≤ maxAllowedFrameSize :=
          show 4 ≤ maxAllowedFrameSize by decide
        refine (queueFrame_short _ short).ok ?_
        rintro - u hu
        obtain ⟨d, hn, hl⟩ := (Loses.retired _).noted hu
        exact (failStream_goes 502 (spent.trans hn.moves) hl).reaches
      | ok recvWindow =>
        have moved := h.tail (.receive hlive hconn hrecv)
        dsimp only
        rw [ends_bind, ends_onCore, ends_bind, ends_get]
        have kept (c : UpstreamCore) (f) : (c.modifyStream id f).routes = c.routes := rfl
        simp only [withCore_core, kept]
        unfold UpstreamCore.received at moved
        cases hr : s.routes.lookup id with
        | none =>
          rw [AList.modify_of_none _ hr] at moved
          exact finish _ moved
        | some route =>
          dsimp only
          rw [ends_bind, ends_onCore]
          have credited : (s.routes.modify id fun r : Route =>
              { r with pendingConnRelease := satAdd32 r.pendingConnRelease data.length }).lookup id =
                some { route with
                  pendingConnRelease := satAdd32 route.pendingConnRelease data.length } := by
            rw [AList.lookup_modify, if_pos rfl, hr]
            rfl
          have told := moved.tail (.tell (.data route.clientId data endStream) credited)
          exact finish _ told

theorem recvWindowUpdate_reaches (id : StreamId) (increment : Nat)
    (horphan : s.orphans (.windowUpdate id increment) → allows .orphan)
    (h : UpstreamCore.Moves allows c s.toUpstreamCore) :
    Reaches allows c (recvWindowUpdate id increment s) := by
  have reset : ∀ code, (∀ st, s.streams.get? id = some st → spoils id increment st = true) →
      Reaches allows c (writeRstStream id code s) := by
    intro code hspoils
    refine (writeRstStream_goes id code ?_).reaches
    cases hid : s.streams.get? id with
    | none => exact h.tail (.sweep hid)
    | some st =>
      refine h.tail (.orphan id (horphan ?_))
      rw [orphans_windowUpdate, hid]
      exact hspoils st hid
  unfold recvWindowUpdate
  refine ends_ite.mpr ⟨fun hzero => ends_ite.mpr ⟨fun _ => ⟨_, h⟩, fun hid => ?_⟩,
    fun _ => ends_ite.mpr ⟨fun _ => ?_, fun hid => ?_⟩⟩
  · refine reset _ fun st _ => ?_
    unfold spoils
    simp [hid, hzero]
  · rw [ends_bind, ends_get]
    cases s.connSendWindow.increase increment with
    | error code => exact ⟨_, h⟩
    | ok window => exact h
  · rw [ends_bind, ends_get]
    cases hlook : s.streams.lookup id with
    | idle => exact ⟨_, h⟩
    | closed => exact h
    | live stream =>
      have hlive := StreamTable.lookup_live.mp hlook
      dsimp only
      cases hinc : stream.sendWindow.increase increment with
      | error code =>
        refine reset _ fun st hst => ?_
        obtain rfl : stream = st := Option.some.inj (hlive.symm.trans hst)
        unfold spoils
        simp [hinc, hid, Except.isOk, Except.toBool]
      | ok window =>
        dsimp only
        rw [ends_bind, ends_onCore]
        have moved := h.tail (.stream id ({ · with sendWindow := window }) fun _ _ => ⟨rfl, rfl⟩)
        exact (enqueueReady_goes id moved).reaches

theorem recvRstStream_goes (id : StreamId) (code : ErrorCode)
    (h : UpstreamCore.Moves allows c s.toUpstreamCore) :
    Goes allows c (recvRstStream id code s) := by
  unfold recvRstStream
  rw [Goes, ends_bind, ends_get]
  cases hr : s.routes.lookup id with
  | none => exact forget_goes h (.refl _)
  | some route => exact forget_goes (h.tail (.tell _ hr)) (.refl _)

/-- What `recvSettings` ends with: the shift of the send windows, and the acknowledgement. -/
def shiftWindows (delta : Int) : UpM Unit := do
  if delta ≠ 0 then
    let (streams, shifted) := (← get).streams.applyInitialWindowDelta delta
    onCore ({ · with streams })
    match shifted with
    | .error code => fail code "INITIAL_WINDOW_SIZE change overflows"
    | .ok () => queueFrame (.settings true [])
  else queueFrame (.settings true [])

theorem recvSettings_reaches (params : List (UInt16 × UInt32))
    (h : UpstreamCore.Moves allows c s.toUpstreamCore) :
    Reaches allows c (recvSettings params s) := by
  have rest : ∀ (t : Upstream) (delta : Int), UpstreamCore.Moves allows c t.toUpstreamCore →
      Reaches allows c (shiftWindows delta t) := by
    intro t delta ht
    refine ends_ite.mpr ⟨fun _ => ?_, fun _ => ((queueFrame_notes t _).goes ht).reaches⟩
    rw [ends_bind, ends_get]
    have shifted := ht.tail (.shift delta)
    generalize t.streams.applyInitialWindowDelta delta = r at shifted
    obtain ⟨streams, result⟩ := r
    dsimp only
    rw [ends_bind, ends_onCore]
    cases result with
    | error code => exact ⟨_, shifted⟩
    | ok => exact ((queueFrame_notes _ _).goes shifted).reaches
  unfold recvSettings
  rw [Reaches, ends_bind, ends_get, ends_bind, ends_get]
  rcases s.peerSettings.apply params with ⟨peerSettings, applied⟩
  dsimp only
  rw [ends_bind, ends_modify]
  cases applied with
  | error e => exact ⟨_, h⟩
  | ok =>
    dsimp only
    rw [ends_bind, ends_modify]
    cases peerSettings.maxConcurrentStreams with
    | none => exact rest _ _ h
    | some max =>
      dsimp only
      rw [ends_bind, ends_onCore]
      have moved := (h.tail (.ceiling max)).tail
        (.publish { s.published with maxConcurrent := some max })
      exact rest _ _ moved

theorem handleFrame_reaches {frame : Frame}
    (hover : s.headerBlockError frame = none → s.overspends frame → allows .overspend)
    (horphan : s.headerBlockError frame = none → s.orphans frame → allows .orphan) (hgo : frame.kind = .goAway → allows .goAway)
    (h : UpstreamCore.Moves allows c s.toUpstreamCore) :
    Reaches allows c (handleFrame frame s) := by
  unfold handleFrame
  rw [Reaches, ends_bind, ends_get]
  cases hblock : s.headerBlockError frame with
  | some e => exact ⟨_, h⟩
  | none =>
    replace hover := hover hblock
    replace horphan := horphan hblock
    cases frame with
    | settings ack params =>
      cases ack with
      | true => exact h
      | false => exact recvSettings_reaches params h
    | ping data ack =>
      refine ends_ite.mpr ⟨fun _ => ((queueFrame_notes s _).goes h).reaches, fun _ =>
        ends_ite.mpr ⟨fun _ => h, fun _ => h⟩⟩
    | goAway last code debug => exact (beginPeerDrain_goes last (hgo rfl) h).reaches
    | windowUpdate id increment => exact recvWindowUpdate_reaches id increment horphan h
    | headers id block endStream endHeaders =>
      dsimp only
      rw [ends_bind, ends_modify]
      exact Reaches.bind (readHeaderBlock_reaches (s := { s with openHeaderEndStream := endStream }) id
        block endHeaders h) fun _ t ht => ht
    | continuation id block endHeaders =>
      exact Reaches.bind (readHeaderBlock_reaches id block endHeaders h) fun _ t ht => ht
    | data id data endStream => exact recvData_reaches id data endStream hover h
    | rstStream id code => exact (recvRstStream_goes id code h).reaches

/-- The frame that an octet sequence brings, where it is handled. -/
def handled (s : Upstream) (w : WireFrame) : Option Frame :=
  if w.header.length > s.localSettings.maxFrameSize then none
  else
    match w.decode with
    | .ok (.frame frame) => if (s.headerBlockError frame).isNone then some frame else none
    | _ => none

theorem handled_of {w : WireFrame} {frame : Frame}
    (hfits : ¬ w.header.length > s.localSettings.maxFrameSize)
    (hw : w.decode = .ok (.frame frame)) (hblock : s.headerBlockError frame = none) :
    s.handled w = some frame := by
  unfold handled
  rw [if_neg hfits, hw]
  dsimp only
  rw [hblock]
  rfl

theorem recvWire_reaches {w : WireFrame}
    (hover : (s.handled w).any s.overspends → allows .overspend)
    (horphan : (s.handled w).any s.orphans → allows .orphan) (hgo : w.lastStreamId.isSome → allows .goAway)
    (h : UpstreamCore.Moves allows c s.toUpstreamCore) : Reaches allows c (recvWire w s) := by
  have heard := h.tail (.note (.heard w) rfl)
  unfold recvWire
  rw [Reaches, ends_bind, ends_onCore, ends_bind, ends_get]
  refine ends_ite.mpr ⟨fun _ => ⟨_, heard⟩, fun hfits => ?_⟩
  unfold WireFrame.lastStreamId at hgo
  cases hw : w.decode with
  | error e => exact ⟨_, heard⟩
  | ok decoded =>
    rw [hw] at hgo
    cases decoded with
    | ignored kind id =>
      dsimp only
      unfold rejectIfMidHeaderBlock
      rw [ends_bind, ends_get]
      cases (s.withCore (s.toUpstreamCore.observe (.heard w))).openHeaderBlock with
      | none => exact heard
      | some open_ => exact ⟨_, heard⟩
    | frame frame =>
      have handled := fun hblock => handled_of (s := s) hfits hw hblock
      refine handleFrame_reaches (fun hblock hf => hover ?_) (fun hblock hf => horphan ?_)
        (fun hkind => hgo ?_) heard
      · rw [handled hblock]
        exact hf
      · rw [handled hblock]
        exact hf
      cases frame with
      | goAway => rfl
      | _ => cases hkind

/-! ## The scheduler -/

theorem spend_goes (id : StreamId) (stream : Stream) (len : Nat)
    (h : UpstreamCore.Moves allows c s.toUpstreamCore) : Goes allows c (spend id stream len s) := by
  unfold spend
  refine ends_ite.mpr ⟨fun _ => ?_, fun _ => h⟩
  cases stream.sendWindow.consume len with
  | error code => exact h
  | ok sendWindow =>
    have moved := h.tail (.stream id ({ · with sendWindow }) fun _ _ => ⟨rfl, rfl⟩)
    dsimp only
    rw [ends_bind, ends_onCore, ends_bind, ends_get]
    cases (s.withCore _).connSendWindow.consume len with
    | error code => exact moved
    | ok window => exact moved

theorem transmit_goes (id : StreamId) (turn : Stream.Turn)
    (h : UpstreamCore.Moves allows c s.toUpstreamCore) :
    Goes allows c (transmit id turn s) := by
  unfold transmit
  refine ends_ite.mpr ⟨fun _ => ?_, fun _ => h⟩
  exact Goes.bind ((queueFrame_notes s _).goes h) fun _ t ht =>
    applyStreamEventWith_goes drainPending_drains rfl ht

theorem reportAccepted_goes (id : StreamId) (len : Nat)
    (h : UpstreamCore.Moves allows c s.toUpstreamCore) :
    Goes allows c (reportAccepted id len s) := by
  unfold reportAccepted
  rw [Goes, ends_bind, ends_get]
  cases hr : s.routes.lookup id with
  | none => exact h
  | some route => exact ends_ite.mpr ⟨fun _ => h.tail (.tell _ hr), fun _ => h⟩

theorem visitReadyStream_goes (id : StreamId) (h : UpstreamCore.Moves allows c s.toUpstreamCore) :
    Goes allows c (visitReadyStream id s) := by
  unfold visitReadyStream
  rw [Goes, ends_bind, ends_get]
  cases hid : s.streams.get? id with
  | none => exact h
  | some stream =>
    refine ends_ite.mpr ⟨fun _ => ?_, fun _ => ?_⟩
    · rw [ends_bind, ends_onCore]
      exact h.tail (.stream id ({ · with queued := false }) fun _ _ => ⟨rfl, rfl⟩)
    have turned := h.tail (.stream id (fun _ => (stream.turn (s.budget stream)).rest) fun st hst => by
      obtain rfl : stream = st := Option.some.inj (hid.symm.trans hst)
      exact ⟨rfl, rfl⟩)
    rw [ends_bind, ends_onCore]
    refine ends_ite.mpr ⟨fun _ => turned, fun _ => ?_⟩
    refine Goes.bind (spend_goes id stream _ turned) fun _ t ht => ?_
    refine .bind (transmit_goes id _ ht) fun _ u hu => .bind (reportAccepted_goes id _ hu)
      fun _ v hv => ?_
    cases (stream.turn (s.budget stream)).trailers with
    | none => exact hv
    | some fields =>
      refine Goes.bind (Goes.bind ((queueHeaders_notes v id fields true).goes hv) fun _ w hw =>
        applyStreamEventWith_goes drainPending_drains rfl hw) fun _ x hx => hx

theorem visitLap_goes (lap : List StreamId) (h : UpstreamCore.Moves allows c s.toUpstreamCore) :
    Goes allows c (visitLap lap s) := by
  induction lap generalizing s with
  | nil => exact h
  | cons id lap ih =>
    exact Goes.bind (visitReadyStream_goes id h) fun _ t ht => .bind (ih ht) fun _ u hu => hu

theorem requeue_goes (ids : List StreamId) (h : UpstreamCore.Moves allows c s.toUpstreamCore) :
    Goes allows c (requeue ids s) := by
  induction ids generalizing s with
  | nil => exact h
  | cons id ids ih =>
    unfold requeue
    rw [Goes, ends_bind, ends_onCore]
    exact ih (h.tail (.stream id ({ · with queued := true }) fun _ _ => ⟨rfl, rfl⟩))

theorem pumpLap_goes
    (h : UpstreamCore.Moves allows c s.toUpstreamCore) : Goes allows c (pumpLap s) := by
  unfold pumpLap
  rw [Goes, ends_bind, ends_get, ends_bind, ends_modify]
  refine Goes.bind (visitLap_goes (s := { s with ready := [] }) s.ready h) fun _ t ht => ?_
  exact .bind (requeue_goes _ ht) fun _ u hu => hu

theorem pumpLaps_goes (fuel : Nat) (h : UpstreamCore.Moves allows c s.toUpstreamCore) :
    Goes allows c (pumpLaps fuel s) := by
  induction fuel generalizing s with
  | zero => exact h
  | succ fuel ih =>
    unfold pumpLaps
    rw [Goes, ends_bind, ends_get]
    refine ends_ite.mpr ⟨fun _ => h, fun _ => ?_⟩
    refine Goes.bind (pumpLap_goes h) fun wrote t ht => ?_
    exact ends_ite.mpr ⟨fun _ => ih ht, fun _ => ht⟩

/-! ## Steps -/

theorem probeTimer_goes
    (h : UpstreamCore.Moves allows c s.toUpstreamCore) : Goes allows c (probeTimer s) := by
  unfold probeTimer
  rw [Goes, ends_bind, ends_get]
  rcases s.probe.due s.now with ⟨probe, action⟩
  dsimp only
  rw [ends_bind, ends_modify]
  cases action with
  | nothing => exact h
  | send nonce => exact Goes.bind ((queueFrame_notes _ _).goes h) fun _ t ht => ht
  | expired => exact h.tail (.publish _)

/-- What may go wrong at an input, and what the input must be for it. -/
def mishaps (s : Upstream) (i : UpInput) : Mishap → Prop
  | .orphan => ∃ w, i = .frame w ∧ (s.handled w).any s.orphans
  | .overspend => ∃ w, i = .frame w ∧ (s.handled w).any s.overspends
  | .overrelease => ∃ m, i = .message m ∧ s.overreleases m = true
  | .reuse => ∃ m, i = .message m ∧ s.reuses m = true
  | .goAway => ∃ w, i = .frame w ∧ w.lastStreamId.isSome
  | .arrive r => ∃ m, i = .message m ∧ m.brings = some r
  | .dismiss r => ∃ m, i = .message m ∧ s.dismissed m = some r

theorem react_reaches (i : UpInput) : Reaches (s.mishaps i) s.toUpstreamCore (react i s) := by
  have here : UpstreamCore.Moves (s.mishaps i) s.toUpstreamCore s.toUpstreamCore := .refl
  unfold react
  cases i with
  | frame w =>
    exact Reaches.bind (recvWire_reaches (fun h => ⟨w, rfl, h⟩) (fun h => ⟨w, rfl, h⟩)
      (fun h => ⟨w, rfl, h⟩) here)
      fun _ t ht => ht
  | message m =>
    exact Reaches.bind
      (handleMessage_goes (fun h => ⟨m, rfl, h⟩) (fun h => ⟨m, rfl, h⟩) (fun _ h => ⟨m, rfl, h⟩)
        (fun _ h => ⟨m, rfl, h⟩) here).reaches
      fun _ t ht => ht
  | pump =>
    have pumped : Goes (s.mishaps .pump) s.toUpstreamCore (pumpOutbound s) := pumpLaps_goes _ here
    exact Reaches.bind pumped.reaches fun _ t ht => ht
  | wrote n => exact here
  | heard => exact here
  | probe => exact (probeTimer_goes here).reaches
  | drained => exact here
  | hangup => exact here

end Upstream

end H2Proxy
