import H2Proxy.Conn.Tidy
import H2Proxy.Conn.StaleEvent

/-
  Which stream ids a client connection knows.

  Every live stream is at or below the highest id of the peer, and that id never falls, so an
  id that is known once stays known. A header block that the connection gets through makes
  its id known, unless it is a request that a committed drain refuses: that one is answered
  with a reset and forgotten, and what follows it on its stream meets an idle id
  (`known_after_iff`).
-/

namespace H2Proxy

variable {σ μ : Type} [Service σ μ] {P : Permit σ μ} {c c' : ConnCore σ μ}

namespace Conn

theorem Makes.top {s t : Conn σ μ} (h : Makes P s t) :
    s.streams.highestPeerId ≤ t.streams.highestPeerId :=
  (moves_invariant h.moves (I := Says s.toConnCore) (.refl _) fun _ _ hs m => hs.trans m.grows).top

/-! ## What a header block leaves -/

/-- The stream was opened, or counted as seen. -/
def Seen (id : StreamId) (s : Conn σ μ) : Prop := id ≤ s.streams.highestPeerId

omit [Service σ μ] in
theorem Seen.not_idle {s : Conn σ μ} {id : StreamId} (h : s.Seen id) :
    s.streams.lookup id ≠ .idle := by
  intro idle
  obtain ⟨-, unseen⟩ := StreamTable.lookup_idle idle
  exact (of_decide_eq_false unseen) (StreamId.le_max_iff.mpr (.inl h))

theorem writeRstStream_seen {s : Conn σ μ} {id on : StreamId} {code : ErrorCode} (h : s.Seen on) :
    Ends (writeRstStream id code s) (fun _ => Seen on) fun _ _ => True := by
  refine (writeRstStream_ends s id code).ok ?_
  rintro - t ht
  show on ≤ t.toConnCore.streams.highestPeerId
  rw [ht.core]
  show on ≤ ((s.toConnCore.abandon s.now id code).reclaim s.limit).streams.highestPeerId
  rw [ConnCore.reclaim_top]
  exact Nat.le_trans h (Nat.le_of_eq (congrArg _ (StreamTable.retire_top _ _).symm))

theorem applyStreamEvent_seen {s : Conn σ μ} {id on : StreamId} {event : StreamEvent} {what : String}
    (short : what.length ≤ 100) (h : s.Seen on) :
    Ends (applyStreamEvent id event what s) (fun _ => Seen on) fun _ _ => True := by
  refine (applyStreamEvent_ends s id event short).mono ?_ fun _ _ _ => trivial
  rintro - t ht
  show on ≤ t.toConnCore.streams.highestPeerId
  rw [ht.core, ConnCore.settle_top]
  exact h

theorem dispatchRequest_seen {s : Conn σ μ} {id : StreamId} {headers : List Header}
    {endStream : Bool} (h : s.Seen id) :
    Ends (dispatchRequest id headers endStream s) (fun _ => Seen id) fun _ _ => True := by
  unfold dispatchRequest
  cases RequestHead.fromHeaders headers with
  | error code => exact writeRstStream_seen h
  | ok request =>
    dsimp only
    have rest : ∀ u : Conn σ μ, u.Seen id → Ends (dispatchNoted id request endStream u)
        (fun _ => Seen id) fun _ _ => True := by
      intro u hu
      unfold dispatchNoted
      simp only [ends_bind, ends_get]
      cases (if endStream then requestBodyError u id else none) with
      | some code => exact writeRstStream_seen hu
      | none => exact hu
    cases request.contentLength with
    | none => exact rest s h
    | some declared =>
      cases declared with
      | error code => exact writeRstStream_seen h
      | ok n => exact rest (s.withCore _) h

omit [Service σ μ] in
/-- An id that is tried for a new stream is seen, where no error comes of it. -/
theorem openRejected_seen (s : Conn σ μ) (id : StreamId) :
    Ends (openRejected id s)
      (fun opened t => (∃ why, opened = .error (.protocol why)) ∨ t.Seen id) fun _ _ => False := by
  refine (openRejected_ends s id).ok ?_
  rintro opened t ⟨hopened, ht⟩
  have core := ht.core
  cases opened with
  | error why =>
    cases why with
    | protocol why => exact .inl ⟨why, rfl⟩
    | refused =>
      obtain ⟨-, -, htable⟩ := StreamTable.openPeer_refused hopened.symm
      refine .inr ?_
      show id ≤ t.toConnCore.streams.highestPeerId
      rw [core]
      show id ≤ (s.streams.openPeer id).1.highestPeerId
      rw [htable]
      exact Nat.le_refl _
  | ok =>
    obtain ⟨-, -, htable⟩ := StreamTable.openPeer_ok hopened.symm
    refine .inr ?_
    show id ≤ t.toConnCore.streams.highestPeerId
    rw [core]
    show id ≤ (s.streams.openPeer id).1.highestPeerId
    rw [htable]
    exact Nat.le_refl _

/-- A request leaves its id seen, unless a committed drain refuses it. -/
theorem recvRequest_seen {s : Conn σ μ} (hs : Sound s) (numbered : s.toConnCore.Numbered)
    {id : StreamId} {headers : List Header} {endStream : Bool}
    (served : ¬ (s.drainCommitted ∧ s.streams.lookup id = .idle)) :
    Ends (recvRequest id headers endStream s) (fun _ => Seen id) fun _ _ => True := by
  have made := recvRequest_makes (P := {}) hs (show (({} : Permit σ μ).block s.toConnCore id endStream
    (.ok headers)) from trivial)
  unfold recvRequest at *
  rw [ends_bind, ends_get] at *
  cases hl : s.streams.lookup id with
  | live stream =>
    rw [hl] at made
    refine made.mono (fun _ t ht => ?_) fun _ _ _ => trivial
    refine Nat.le_trans (numbered id ?_) ht.top
    rw [StreamTable.lookup_live.mp hl]
    rfl
  | closed => trivial
  | idle =>
    simp only [ends_ite, ends_bind]
    refine ⟨fun drained => absurd ⟨drained, hl⟩ served, fun _ => ?_⟩
    refine (openRejected_seen s id).ok ?_
    rintro opened t (⟨why, rfl⟩ | seen)
    · trivial
    cases opened with
    | error why =>
      cases why with
      | protocol why => trivial
      | refused => exact writeRstStream_seen seen
    | ok =>
      rw [ends_bind]
      refine (applyStreamEvent_seen (by decide) seen).mono (fun _ u hu => ?_) fun _ _ _ => trivial
      exact dispatchRequest_seen hu

/-- A request that a committed drain refuses leaves its id idle. -/
theorem recvRequest_idle {s : Conn σ μ} {id : StreamId} {headers : List Header} {endStream : Bool}
    (drained : s.drainCommitted) (idle : s.streams.lookup id = .idle) :
    Ends (recvRequest id headers endStream s) (fun _ t => t.streams.lookup id = .idle)
      fun _ _ => False := by
  unfold recvRequest
  rw [ends_bind, ends_get, idle]
  simp only [ends_ite]
  refine ⟨fun _ => ?_, fun h => absurd drained h⟩
  refine (writeRstStream_ends s id .refusedStream).ok ?_
  rintro - t ht
  rw [ht.core]
  exact ConnCore.lookup_writeRst s.toConnCore s.now .refusedStream s.limit idle

theorem rejectStream_seen {s : Conn σ μ} (numbered : s.toConnCore.Numbered)
    {id : StreamId} {status : Nat} :
    Ends (rejectStream id status s) (fun _ => Seen id) fun _ _ => True := by
  have answer : ∀ u : Conn σ μ, u.Seen id →
      Ends (sendResponse id (.ofStatus status) true u) (fun _ => Seen id) fun _ _ => True := by
    intro u hu
    refine (sendResponse_ends u id _ true).mono ?_ fun _ _ _ => trivial
    rintro - v hv
    show id ≤ v.toConnCore.streams.highestPeerId
    rw [hv.core, ConnCore.respond, ConnCore.settle_top]
    exact hu
  unfold rejectStream
  rw [ends_bind, ends_get, ends_ite]
  refine ⟨fun live => answer s (numbered id live), fun _ => ?_⟩
  rw [ends_bind]
  refine (openRejected_seen s id).ok ?_
  rintro opened t (⟨why, rfl⟩ | seen)
  · trivial
  cases opened with
  | error why =>
    cases why with
    | protocol why => trivial
    | refused => exact writeRstStream_seen seen
  | ok =>
    rw [ends_bind]
    refine (applyStreamEvent_seen (by decide) seen).mono (fun _ u hu => ?_) fun _ _ _ => trivial
    exact answer u hu

/-- A request that a committed drain refuses. -/
def Forgets (s : Conn σ μ) (id : StreamId) (r : Except HpackError (List Header)) : Prop :=
  s.drainCommitted ∧ s.streams.lookup id = .idle ∧ r.isOk

omit [Service σ μ] in
theorem gatherBlock_whole {s : Conn σ μ} {fragment : Bytes}
    (fits : (s.headerBlock ++ fragment).length ≤ maxHeaderBlockBytes) :
    gatherBlock fragment true s = .ok (some (s.headerBlock ++ fragment))
      { s with guard := s.guard.onHeaderBlockEnd, headerBlock := [] } := by
  rw [List.length_append] at fits
  have within : ¬ s.headerBlock.length + fragment.length > maxHeaderBlockBytes := by omega
  unfold gatherBlock
  show (if _ then _ else _ : ConnM σ μ (Option Bytes)) s = _
  rw [if_neg within]
  rfl

/-- A header block that ends without an error leaves its id seen, or idle where a committed
    drain refused the request. -/
theorem readHeaderBlock_known {s : Conn σ μ} (hs : Sound s) (numbered : s.toConnCore.Numbered)
    {id : StreamId} {fragment : Bytes} {endHeaders : Bool} {r : Except HpackError (List Header)}
    (whole : s.completion fragment endHeaders = some r) :
    Ends (readHeaderBlock id fragment endHeaders s)
      (fun _ t => (s.Forgets id r → t.streams.lookup id = .idle) ∧ (¬ s.Forgets id r → t.Seen id))
      fun _ _ => True := by
  unfold completion at whole
  dsimp only at whole
  split at whole
  case isFalse => cases whole
  rename_i fits
  rw [Bool.and_eq_true, decide_eq_true_eq] at fits
  obtain ⟨rfl, fits⟩ := fits
  obtain rfl := Option.some.inj whole
  unfold readHeaderBlock
  rw [ends_bind, gatherBlock_whole fits, ends_ok]
  simp only [ends_bind, ends_get, ends_modify]
  have decoded := hs.decoder.decode (s.headerBlock ++ fragment)
  generalize s.hpackDec.decode (s.headerBlock ++ fragment) = res at decoded
  obtain ⟨hpackDec, result⟩ := res
  have sound : Sound { s with
      guard := s.guard.onHeaderBlockEnd, headerBlock := [], hpackDec := hpackDec } :=
    ⟨hs.frameSize, decoded.1, decoded.2 ▸ hs.capacity, hs.maxFrameSize⟩
  cases result with
  | error e =>
    cases e with
    | compression why => trivial
    | headerListTooLarge size limit =>
      refine (rejectStream_seen (by exact numbered)).mono (fun _ t ht => ?_) fun _ _ _ => trivial
      exact ⟨fun h => (nomatch h.2.2), fun _ => ht⟩
  | ok headers =>
    dsimp only
    rw [ends_bind, ends_get]
    by_cases refused : s.drainCommitted ∧ s.streams.lookup id = .idle
    · refine (recvRequest_idle (by exact refused.1) (by exact refused.2)).ok fun _ t ht => ?_
      exact ⟨fun _ => ht, fun served => absurd ⟨refused.1, refused.2, rfl⟩ served⟩
    · refine (recvRequest_seen sound numbered refused).mono (fun _ t ht => ?_) fun _ _ _ => trivial
      exact ⟨fun h => absurd ⟨h.1, h.2.1⟩ refused, fun _ => ht⟩

/-- So does the frame that completes the block. -/
theorem recvWire_known {s : Conn σ μ} (hs : Sound s) (numbered : s.toConnCore.Numbered)
    {w : WireFrame} {id : StreamId} {endStream : Bool} {r : Except HpackError (List Header)}
    (completes : s.completes w = some (id, endStream, r)) :
    Ends (recvWire w s)
      (fun _ t => (s.Forgets id r → t.streams.lookup id = .idle) ∧ (¬ s.Forgets id r → t.Seen id))
      fun _ _ => True := by
  unfold Conn.completes at completes
  cases hdec : w.decode with
  | error e => rw [hdec] at completes; cases completes
  | ok d =>
    cases d with
    | ignored kind id => rw [hdec] at completes; cases completes
    | frame f =>
      rw [hdec] at completes
      dsimp only at completes
      split at completes
      case isFalse => cases completes
      rename_i fits
      rw [Bool.and_eq_true, decide_eq_true_eq, Option.isNone_iff_eq_none] at fits
      obtain ⟨fits, inOrder⟩ := fits
      obtain ⟨⟨on, fragment, endHeaders⟩, hfragment, hc⟩ := Option.bind_eq_some_iff.mp completes
      obtain ⟨r', whole, heq⟩ := Option.map_eq_some_iff.mp hc
      cases heq
      have sound : Sound (s.withCore (s.toConnCore.observe (.heard w))) :=
        (Kept.withCore s _).sound hs
      have inOrder : (s.withCore (s.toConnCore.observe (.heard w))).headerBlockError f.kind
        f.streamId = none := inOrder
      unfold recvWire
      rw [ends_bind, ends_onCore, ends_bind, ends_get, ends_ite]
      refine ⟨fun long => absurd fits (Nat.not_le.mpr long), fun _ => ?_⟩
      rw [hdec]
      dsimp only
      unfold handleFrame
      rw [ends_bind, ends_get, inOrder]
      cases f with
      | headers on' block endStream' endHeaders' =>
        cases hfragment
        dsimp only
        rw [ends_bind, ends_modify, ends_bind]
        refine (readHeaderBlock_known ?_ ?_ (by exact whole)).mono (fun _ t ht => ht) fun _ _ h => h
        · exact ⟨sound.frameSize, sound.decoder, sound.capacity, sound.maxFrameSize⟩
        · exact numbered
      | continuation on' block endHeaders' =>
        cases hfragment
        dsimp only
        rw [ends_bind]
        exact (readHeaderBlock_known sound numbered (by exact whole)).mono (fun _ t ht => ht) fun _ _ h => h
      | _ => cases hfragment

/-! ## Frames on a known id -/

/-- The error of a frame that came on an idle stream. -/
def neverOpened : Frame → Option ConnectionError
  | .data id .. => some ⟨.protocolError, s!"DATA on stream {id.get}, which was never opened"⟩
  | .rstStream id _ =>
    some ⟨.protocolError, s!"RST_STREAM on stream {id.get}, which was never opened"⟩
  | .windowUpdate id n =>
    if n = 0 then none
    else some ⟨.protocolError, s!"WINDOW_UPDATE on stream {id.get}, which was never opened"⟩
  | _ => none

/-- The letter a text begins with. -/
def initial (text : String) : Option Char := text.toList.head?

theorem initial_append {a b : String} {x : Char} (h : initial a = some x) :
    initial (a ++ b) = some x := by
  unfold initial at *
  rw [String.toList_append, List.head?_append, h]
  rfl

theorem ne_of_code {e e' : ConnectionError} (h : e.code ≠ e'.code) : e ≠ e' :=
  fun he => h (congrArg _ he)

theorem ne_of_initial {e e' : ConnectionError} {x x' : Char} (hx : initial e.debug = some x)
    (hx' : initial e'.debug = some x') (h : x ≠ x') : e ≠ e' := by
  rintro rfl
  exact h (Option.some.inj (hx.symm.trans hx'))

section Errors

variable {s : Conn σ μ}

omit [Service σ μ] in
theorem guarded_calm (f : Guard → Guard × Verdict) :
    Ends (guarded f s) (fun _ t => t.toConnCore = s.toConnCore)
      fun e _ => e.code = .enhanceYourCalm := by
  unfold guarded
  rw [ends_bind, ends_get]
  rcases f s.guard with ⟨guard, verdict⟩
  cases verdict with
  | ok => rfl
  | trip signal => rfl

theorem applyStreamEvent_error (id : StreamId) (event : StreamEvent) (what : String) :
    Ends (applyStreamEvent id event what s) (fun _ _ => True)
      fun e _ => e.debug = s!"{what} on stream {id.get}, which is idle" := by
  unfold applyStreamEvent
  simp only [ends_bind, ends_get, ends_onCore]
  rcases s.streams.apply id event with ⟨streams, result⟩
  cases result with
  | ok state =>
    simp only [ends_ite, ends_bind, ends_pure, ends_get, ends_onCore]
    refine ⟨fun _ => ?_, fun _ => trivial⟩
    refine (unready_ends _ _).ok fun _ t _ => ?_
    exact (drainReclaimed_ends _).ok fun _ _ _ => trivial
  | error e =>
    simp only [ends_ite, ends_bind, ends_fail, ends_onCore]
    refine ⟨fun _ => trivial, fun _ => ?_⟩
    exact (unready_ends _ _).ok fun _ t _ => trivial

variable {id : StreamId} (known : s.streams.lookup id ≠ .idle) {e' : ConnectionError}
  (code : e'.code = .protocolError)

include known code

theorem recvData_known {data : Bytes} {endStream : Bool} (letter : initial e'.debug = some 'D') :
    Ends (recvData id data endStream s) (fun _ _ => True) fun e _ => e ≠ e' := by
  unfold recvData
  rw [ends_bind]
  refine (guarded_calm _).mono (fun _ t ht => ?_) fun e _ he => ne_of_code (by rw [he, code]; nofun)
  rw [← ht] at known
  rw [ends_bind, ends_get]
  cases hrecord : t.connRecvWindow.record data.length with
  | error c =>
    refine ne_of_code ?_
    show c ≠ e'.code
    rw [(RecvWindow.record_error hrecord).2, code]
    nofun
  | ok window =>
    simp only [ends_bind, ends_onCore, ends_get]
    have safe : ∀ u : Conn σ μ, ∀ code, Ends (writeRstStream id code u) (fun _ _ => True)
        fun e _ => e ≠ e' := fun u c => (writeRstStream_ends u id c).ok fun _ _ _ => trivial
    have known : (t.withCore { t.toConnCore with connRecvWindow := window }).streams.lookup id ≠
      .idle := known
    generalize t.withCore { t.toConnCore with connRecvWindow := window } = u at known ⊢
    cases hl : u.streams.lookup id with
    | idle => exact absurd hl known
    | closed =>
      dsimp only
      rw [ends_bind]
      exact (releaseConnWindow_ends _ _).ok fun _ v _ => safe v _
    | live stream =>
      simp only [ends_bind, ends_onCore]
      cases stream.recvWindow.record data.length with
      | error c => exact safe _ _
      | ok recvWindow =>
        simp only [ends_bind, ends_get]
        generalize (Conn.withCore _ _ : Conn σ μ) = v
        cases (if endStream then v.requestBodyError id else none) with
        | some c => exact safe v c
        | none =>
          simp only [ends_bind]
          refine (applyStreamEvent_error id _ _).mono (fun _ x _ => ?_) fun e _ he => ?_
          · rw [ends_ite]
            exact ⟨fun _ => (drainReclaimed_ends _).ok fun _ _ _ => trivial,
              fun _ => (drainReclaimed_ends _).ok fun _ _ _ => trivial⟩
          · have small : initial e.debug = some 'd' := by
              rw [he]
              exact initial_append (initial_append (initial_append (by decide)))
            exact ne_of_initial small letter (by decide)

theorem recvRstStream_known {c : ErrorCode} :
    Ends (recvRstStream id c s) (fun _ _ => True) fun e _ => e ≠ e' := by
  unfold recvRstStream
  rw [ends_bind, ends_get]
  cases hl : s.streams.lookup id with
  | idle => exact absurd hl known
  | closed => trivial
  | live stream =>
    simp only [ends_bind, ends_get]
    refine (guarded_calm _).mono (fun _ t ht => ?_) fun e _ he => ne_of_code (by rw [he, code]; nofun)
    refine (abandon_ends _ _ _).ok fun _ u _ => ?_
    exact (drainReclaimed_ends _).ok fun _ _ _ => trivial

theorem recvWindowUpdate_known {n : Nat} (positive : n ≠ 0) :
    Ends (recvWindowUpdate id n s) (fun _ _ => True) fun e _ => e ≠ e' := by
  unfold recvWindowUpdate
  rw [if_neg positive]
  split
  · rw [ends_bind, ends_get]
    cases hw : s.connSendWindow.increase n with
    | ok window => trivial
    | error c =>
      refine ne_of_code ?_
      show c ≠ e'.code
      rw [Window.increase_error hw, code]
      nofun
  · rw [ends_bind, ends_get]
    cases hl : s.streams.lookup id with
    | idle => exact absurd hl known
    | closed => trivial
    | live stream =>
      dsimp only
      cases stream.sendWindow.increase n with
      | error c => exact (writeRstStream_ends _ _ _).ok fun _ _ _ => trivial
      | ok window =>
        rw [ends_bind, ends_onCore]
        exact (enqueueReady_ends _ _).ok fun _ _ _ => trivial

end Errors

omit [Service σ μ] in
theorem neverOpened_spec {f : Frame} {e : ConnectionError} (h : neverOpened f = some e) :
    e.code = .protocolError ∧ ∃ x ∈ ['D', 'R', 'W'], initial e.debug = some x := by
  cases f with
  | data id =>
    obtain rfl := Option.some.inj h
    exact ⟨rfl, 'D', by decide, initial_append (initial_append (by decide))⟩
  | rstStream id =>
    obtain rfl := Option.some.inj h
    exact ⟨rfl, 'R', by decide, initial_append (initial_append (by decide))⟩
  | windowUpdate id n =>
    by_cases positive : n = 0
    · rw [neverOpened, if_pos positive] at h
      cases h
    · rw [neverOpened, if_neg positive] at h
      obtain rfl := Option.some.inj h
      exact ⟨rfl, 'W', by decide, initial_append (initial_append (by decide))⟩
  | _ => cases h

omit [Service σ μ] in
theorem headerBlockError_initial {s : Conn σ μ} {kind : FrameType} {id : StreamId}
    {e : ConnectionError} (h : s.headerBlockError kind id = some e) :
    ∃ x ∈ ['e', 'C'], initial e.debug = some x := by
  unfold headerBlockError at h
  split at h
  · split at h
    · cases h
    · cases h
      refine ⟨'e', by decide, ?_⟩
      iterate 5 refine initial_append ?_
      decide
  · split at h
    · cases h
      exact ⟨'C', by decide, initial_append (initial_append (by decide))⟩
    · cases h

/-- A frame on a known id is not refused as one on an idle stream. -/
theorem handleFrame_known {s : Conn σ μ} {f : Frame} (known : s.streams.lookup f.streamId ≠ .idle)
    {e' : ConnectionError} (never : neverOpened f = some e') :
    Ends (handleFrame f s) (fun _ _ => True) fun e _ => e ≠ e' := by
  unfold handleFrame
  rw [ends_bind, ends_get]
  cases hblock : s.headerBlockError f.kind f.streamId with
  | some e =>
    obtain ⟨-, x, hx, letter⟩ := neverOpened_spec never
    obtain ⟨y, hy, other⟩ := headerBlockError_initial hblock
    have distinct : ∀ x ∈ ['D', 'R', 'W'], ∀ y ∈ ['e', 'C'], y ≠ x := by simp
    exact ne_of_initial other letter (distinct x hx y hy)
  | none =>
    cases f with
    | data id data endStream =>
      obtain rfl := Option.some.inj never
      dsimp only
      rw [ends_bind]
      refine (recvData_known known rfl ?_).mono (fun _ _ _ => trivial) fun _ _ h => h
      exact initial_append (initial_append (by decide))
    | rstStream id code =>
      obtain rfl := Option.some.inj never
      dsimp only
      rw [ends_bind]
      exact (recvRstStream_known known rfl).mono (fun _ _ _ => trivial) fun _ _ h => h
    | windowUpdate id n =>
      by_cases positive : n = 0
      · rw [neverOpened, if_pos positive] at never
        cases never
      · rw [neverOpened, if_neg positive] at never
        obtain rfl := Option.some.inj never
        dsimp only
        rw [ends_bind]
        exact (recvWindowUpdate_known known rfl positive).mono (fun _ _ _ => trivial) fun _ _ h => h
    | _ => cases never

theorem recvWire_known_frame {s : Conn σ μ} {w : WireFrame} {f : Frame}
    (frame : w.decode = .ok (.frame f)) (known : s.streams.lookup f.streamId ≠ .idle)
    {e' : ConnectionError} (never : neverOpened f = some e') :
    Ends (recvWire w s) (fun _ _ => True) fun e _ => e ≠ e' := by
  unfold recvWire
  rw [ends_bind, ends_onCore, ends_bind, ends_get, ends_ite]
  constructor
  · intro _
    refine ne_of_code ?_
    rw [(neverOpened_spec never).1]
    nofun
  · intro _
    rw [frame]
    dsimp only
    refine handleFrame_known ?_ never
    exact known

/-- From here on the id is known: it is looked up as that of a live or a closed stream, and no
    frame on it ends the connection as one that came on an idle stream. -/
def StaysKnown (s : Conn σ μ) (id : StreamId) : Prop :=
  ∀ t, ((machine σ μ).startedAt s).Reachable t → t.stop = none → t.streams.lookup id ≠ .idle ∧
    ∀ now w f e, w.decode = .ok (.frame f) → f.streamId = id → neverOpened f = some e →
      ∀ u, react (.frame w) { t with now } ≠ .error e u

theorem Seen.staysKnown {s : Conn σ μ} (sound : Sound s) {id : StreamId} (h : s.Seen id) :
    s.StaysKnown id := by
  intro t later running
  have seen : t.Seen id := Nat.le_trans h
    (startedAt_traced (P := {}) (fun s i _ => permits_all s i) sound later).grows.top
  refine ⟨seen.not_idle, ?_⟩
  rintro now w f e frame rfl never u failed
  have known : ({ t with now } : Conn σ μ).streams.lookup f.streamId ≠ .idle := seen.not_idle
  have errors := recvWire_known_frame frame known never
  rw [show recvWire w { t with now } = .error e u from failed] at errors
  exact errors rfl

omit [Service σ μ] in
theorem start_numbered {s : Conn σ μ} (h : Fresh s) : s.toConnCore.Numbered := by
  obtain ⟨service, localSettings, window, limits, policy, admission, now, -, -, -, rfl⟩ := h
  intro id live
  cases live

/-- A header block that is got through leaves its id known, and so it stays, exactly when it is
    not that of a request which a committed drain refuses. -/
theorem known_after_iff {s : Conn σ μ} (h : (machine σ μ).Reachable s) (running : s.stop = none)
    {now : Instant} {w : WireFrame} {id : StreamId} {endStream : Bool}
    {r : Except HpackError (List Header)} (completes : s.completes w = some (id, endStream, r))
    (goesOn : (step (now, .frame w) s).stop = none) :
    (step (now, .frame w) s).StaysKnown id ↔ ¬ s.Forgets id r := by
  obtain ⟨s₀, fresh, traced⟩ := reach_traced (P := {}) (fun s i _ => permits_all s i) h
  obtain ⟨s₁, -, traced'⟩ := reach_traced (P := {}) (fun s i _ => permits_all s i)
    (h.step (i := (now, .frame w)) trivial)
  have numbered : s.toConnCore.Numbered :=
    traced.running_invariant running (start_numbered fresh) fun _ _ hc m => m.numbered hc
  have sound : Sound { s with now } := by
    have := traced.sound running
    exact ⟨this.frameSize, this.decoder, this.capacity, this.maxFrameSize⟩
  have outcome := recvWire_known sound numbered (show Conn.completes { s with now } w = _ from completes)
  rw [show recvWire w { s with now } = _ from step_goes_on running goesOn, ends_ok] at outcome
  constructor
  · intro known forgets
    exact (known _ (.init rfl) goesOn).1 (outcome.1 forgets)
  · intro served
    exact (outcome.2 served).staysKnown (traced'.sound goesOn)

omit [Service σ μ] in
theorem completes_on {s : Conn σ μ} {w : WireFrame} {id : StreamId}
    (h : (s.completes w).map (·.1) = some id) : ∃ endStream r, s.completes w = some (id, endStream, r) := by
  obtain ⟨⟨on, endStream, r⟩, hx, rfl⟩ := Option.map_eq_some_iff.mp h
  exact ⟨endStream, r, hx⟩

/-- `GET /` is served, and its stream is known. -/
theorem getRoot_known :
    (step (0, .frame getRoot) (withService (.new 4) : Conn Echo Empty)).StaysKnown (.new 1) := by
  obtain ⟨endStream, r, completes⟩ := completes_on (show ((withService (.new 4) :
    Conn Echo Empty).completes getRoot).map (·.1) = some (.new 1) by decide +kernel)
  exact (known_after_iff (.init (fresh_withService _)) rfl completes (by decide +kernel)).mpr nofun

/-! ### A request refused during a drain -/

/-- `GET /` on stream 3. -/
def getThird : WireFrame :=
  .ofParts .headers (Flags.endHeaders ||| Flags.endStream) (.new 3) [0x82, 0x86, 0x84]
    getRoot.length_lt

/-- A drain has committed to stream 1. -/
def drained : Conn Echo Empty :=
  (machine Echo Empty).run (withService (.new 4))
    [(0, .frame getRoot), (1, .shutdown), (2, .advance true)]

/-- The id of a request that the drain refused is idle, and so is whatever follows on it. -/
theorem refused_forgotten : ¬ ∀ s : Conn Echo Empty, (machine Echo Empty).Reachable s →
    s.stop = none → ∀ now w id endStream r, s.completes w = some (id, endStream, r) →
      (step (now, .frame w) s).stop = none → (step (now, .frame w) s).StaysKnown id := by
  intro all
  have reachable : (machine Echo Empty).Reachable drained :=
    Machine.Reach.run (.init (fresh_withService _)) _ (by simp [Machine.Meets])
  obtain ⟨endStream, r, completes⟩ := completes_on
    (show (drained.completes getThird).map (·.1) = some (.new 3) by decide +kernel)
  have goesOn : (step (3, .frame getThird) drained).stop = none := by decide +kernel
  have known := all _ reachable (by decide +kernel) 3 _ _ _ _ completes goesOn
  exact (known _ (.init rfl) goesOn).1 (by decide +kernel)

end Conn

end H2Proxy
