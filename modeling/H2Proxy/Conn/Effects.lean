import H2Proxy.Conn.Moves
import H2Proxy.Lib.Ends
import H2Proxy.Texts

/-
  What the small functions of a client connection do to its core, exactly.

  Each is given the effect that `Conn.Moves` names for it; an error says what it left
  behind, and is short enough for a GOAWAY.
-/

namespace H2Proxy

namespace Conn

variable {σ μ : Type}

/-- While a step goes on the clock stands still, and the guard is at most drawn on. -/
structure Paced (r s : Conn σ μ) : Prop where
  now : s.now = r.now
  stop : s.stop = r.stop
  guard : r.guard.Drawn r.now s.guard

theorem Paced.refl (s : Conn σ μ) : Paced s s := ⟨rfl, rfl, .refl _ _⟩

theorem Paced.trans {r s t : Conn σ μ} (h : Paced r s) (h' : Paced s t) : Paced r t :=
  ⟨h'.now.trans h.now, h'.stop.trans h.stop, h.guard.trans (h.now ▸ h'.guard)⟩

/-- What a function that writes and schedules leaves alone. -/
structure Kept (r s : Conn σ μ) : Prop extends Paced r s where
  localSettings : s.localSettings = r.localSettings
  peerSettings : s.peerSettings = r.peerSettings
  hpackDec : s.hpackDec = r.hpackDec

theorem Kept.refl (s : Conn σ μ) : Kept s s := ⟨.refl s, rfl, rfl, rfl⟩

theorem Kept.trans {r s t : Conn σ μ} (h : Kept r s) (h' : Kept s t) : Kept r t :=
  ⟨h.toPaced.trans h'.toPaced, h'.localSettings.trans h.localSettings,
    h'.peerSettings.trans h.peerSettings, h'.hpackDec.trans h.hpackDec⟩

/-- The limit in force on the frames queued. -/
abbrev limit (s : Conn σ μ) : Nat := s.peerSettings.maxFrameSize

theorem Kept.limit {r s : Conn σ μ} (h : Kept r s) : s.limit = r.limit := by
  rw [Conn.limit, h.peerSettings]

@[simp] theorem withCore_toConnCore (s : Conn σ μ) (c : ConnCore σ μ) :
    (s.withCore c).toConnCore = c := rfl

@[simp] theorem withCore_now (s : Conn σ μ) (c : ConnCore σ μ) : (s.withCore c).now = s.now := rfl

@[simp] theorem withCore_limit (s : Conn σ μ) (c : ConnCore σ μ) :
    (s.withCore c).limit = s.limit := rfl

theorem Kept.withCore (s : Conn σ μ) (c : ConnCore σ μ) : Kept s (s.withCore c) :=
  ⟨⟨rfl, rfl, .refl ..⟩, rfl, rfl, rfl⟩

/-- Exactly this core, and the rest kept. -/
structure Does (r : Conn σ μ) (c : ConnCore σ μ) (s : Conn σ μ) : Prop where
  core : s.toConnCore = c
  kept : Kept r s

theorem Does.withCore (s : Conn σ μ) (c : ConnCore σ μ) : s.Does c (s.withCore c) :=
  ⟨rfl, .withCore s c⟩

theorem Does.refl (s : Conn σ μ) : s.Does s.toConnCore s := ⟨rfl, .refl s⟩

theorem Does.trans {r s t : Conn σ μ} {c c' : ConnCore σ μ} (h : r.Does c s) (h' : s.Does c' t) :
    r.Does c' t := ⟨h'.core, h.kept.trans h'.kept⟩

/-- An effect that follows another, in terms of where both began. -/
theorem Does.after {r s t : Conn σ μ} {c : ConnCore σ μ}
    (effect : ConnCore σ μ → Instant → Nat → ConnCore σ μ) (h : r.Does c s)
    (h' : s.Does (effect s.toConnCore s.now s.limit) t) : r.Does (effect c r.now r.limit) t := by
  rw [h.core, h.kept.now, h.kept.limit] at h'
  exact h.trans h'

theorem Does.of_withCore {s t : Conn σ μ} {c c' : ConnCore σ μ} (h : (s.withCore c).Does c' t) :
    s.Does c' t := (Does.withCore s c).trans h

/-- This core up to what only the scheduler reads, and the rest kept. -/
def DoesAlike (r : Conn σ μ) (c : ConnCore σ μ) (s : Conn σ μ) : Prop :=
  ∃ streams, c.streams.Alike streams ∧ r.Does { c with streams } s

theorem Does.alike {r s : Conn σ μ} {c : ConnCore σ μ} (h : r.Does c s) : r.DoesAlike c s :=
  ⟨c.streams, .refl _, h⟩

theorem ends_onCore {s : Conn σ μ} {f : ConnCore σ μ → ConnCore σ μ} {Q E} :
    Ends (onCore f s) Q E ↔ Q () (s.withCore (f s.toConnCore)) := Iff.rfl

theorem ends_fail {α : Type} {s : Conn σ μ} {code : ErrorCode} {debug : String} {Q E} :
    Ends ((fail code debug : ConnM σ μ α) s) Q E ↔ E ⟨code, debug⟩ s := Iff.rfl

/-! ## What the small functions do -/

/-- A short frame is queued, exactly. -/
theorem queueFrame_ends (s : Conn σ μ) {f : Frame} (h : f.payloadLen ≤ maxAllowedFrameSize) :
    Ends (queueFrame f s) (fun _ => s.Does (s.toConnCore.observe (.queued f [] s.limit)))
      fun _ _ => False := by
  unfold queueFrame queueFields
  cases hw : f.write with
  | error e =>
    have := Frame.write_error hw
    omega
  | ok octets =>
    simp only [ends_bind, ends_get, ends_onCore, ends_modify]
    exact ⟨rfl, ⟨⟨rfl, rfl, .refl ..⟩, rfl, rfl, rfl⟩⟩

theorem small_le {n : Nat} (h : n ≤ defaultMaxFrameSize) : n ≤ maxAllowedFrameSize := by
  unfold defaultMaxFrameSize at h
  unfold maxAllowedFrameSize
  omega

theorem windowUpdate_le (id : StreamId) (n : Nat) :
    (Frame.windowUpdate id n).payloadLen ≤ maxAllowedFrameSize :=
  small_le (show 4 ≤ 16384 by decide)

/-- A header block is encoded and queued, or is too long for any frame. -/
theorem queueHeaders_ends (s : Conn σ μ) (id : StreamId) (fields : List Header) (endStream : Bool) :
    Ends (queueHeaders id fields endStream s)
      (fun _ => s.Does (s.toConnCore.headersOut id fields endStream s.hpackEnc s.limit))
      fun e s' => s.Does (s.toConnCore.observe (.encoded s.hpackEnc fields s.limit)) s' ∧
        e.Short := by
  unfold queueHeaders queueFields
  simp only [ends_bind, ends_get, ends_onCore, ends_modify]
  cases hw : (Frame.headers id (s.hpackEnc.encode fields).2 endStream true).write with
  | error e =>
    simp only [ends_fail]
    refine ⟨⟨rfl, ⟨⟨rfl, rfl, .refl ..⟩, rfl, rfl, rfl⟩⟩, ?_⟩
    unfold Frame.write at hw
    split at hw <;> cases hw
    have hm : maxAllowedFrameSize < 2 ^ 32 := by unfold maxAllowedFrameSize; omega
    have hl : min (Frame.headers id (s.hpackEnc.encode fields).2 endStream true).payloadLen u32Max <
        2 ^ 32 := by unfold u32Max; omega
    have text := ((Within.text "could not encode " (k := 20) (by decide)).append
      (.text _ (FrameType.debug_within .headers))).append (.text ": " (k := 2) (by decide))
    exact (text.append (FrameError.oversized_within hl hm)).short (by decide)
  | ok octets =>
    simp only [ends_bind, ends_get, ends_onCore, ends_modify]
    exact ⟨rfl, ⟨⟨rfl, rfl, .refl ..⟩, rfl, rfl, rfl⟩⟩

theorem check_ends (s : Conn σ μ) (v : Verdict) :
    Ends (check v s) (fun _ t => s.Does s.toConnCore t ∧ v = .ok)
      fun e s' => s.Does s.toConnCore s' ∧ e.Short := by
  unfold check
  cases v with
  | ok => exact ⟨⟨rfl, .refl s⟩, rfl⟩
  | trip signal =>
    refine ⟨⟨rfl, .refl s⟩, ?_⟩
    have hs : signal.asStr.length ≤ 20 := by cases signal <;> decide
    exact ((Within.text "abuse guard tripped: " (k := 30) (by decide)).append
      (.text _ hs)).short (by decide)

theorem guarded_eq {s : Conn σ μ} {f : Guard → Guard × Verdict} (passes : (f s.guard).2 = .ok) :
    guarded f s = .ok () { s with guard := (f s.guard).1 } := by
  show check (f s.guard).2 { s with guard := (f s.guard).1 } = _
  rw [passes]
  rfl

theorem guarded_ends (s : Conn σ μ) {f : Guard → Guard × Verdict}
    (drawn : s.guard.Drawn s.now (f s.guard).1) :
    Ends (guarded f s) (fun _ t => s.Does s.toConnCore t ∧ (f s.guard).2 = .ok)
      fun e s' => s.Does s.toConnCore s' ∧ e.Short := by
  unfold guarded
  simp only [ends_bind, ends_get, ends_modify]
  have kept : Kept s { s with guard := (f s.guard).1 } := ⟨⟨rfl, rfl, drawn⟩, rfl, rfl, rfl⟩
  refine (check_ends _ _).mono ?_ ?_
  · rintro - t ⟨⟨hc, hk⟩, passed⟩
    exact ⟨⟨hc, kept.trans hk⟩, passed⟩
  · rintro e t ⟨⟨hc, hk⟩, he⟩
    exact ⟨⟨hc, kept.trans hk⟩, he⟩

theorem unready_ends (s : Conn σ μ) (id : StreamId) :
    Ends (unready id s) (fun _ => s.Does s.toConnCore) fun _ _ => False :=
  ⟨rfl, ⟨⟨rfl, rfl, .refl ..⟩, rfl, rfl, rfl⟩⟩

theorem enqueueReady_ends (s : Conn σ μ) (id : StreamId) :
    Ends (enqueueReady id s) (fun _ => s.DoesAlike s.toConnCore) fun _ _ => False := by
  unfold enqueueReady
  simp only [ends_bind, ends_get]
  cases s.streams.get? id with
  | none => exact Does.alike ⟨rfl, .refl s⟩
  | some stream =>
    simp only [ends_ite, ends_pure, ends_bind, ends_onCore, ends_modify]
    refine ⟨fun _ => Does.alike ⟨rfl, .refl s⟩, fun _ => ?_⟩
    exact ⟨_, StreamTable.alike_modify s.streams id (f := ({ · with queued := true }))
      fun _ _ => ⟨rfl, rfl, rfl, rfl, rfl, rfl, rfl, rfl, rfl⟩, rfl,
      ⟨⟨rfl, rfl, .refl ..⟩, rfl, rfl, rfl⟩⟩

theorem releaseConnWindow_ends (s : Conn σ μ) (n : Nat) :
    Ends (releaseConnWindow n s) (fun _ => s.Does (s.toConnCore.releaseConn n s.limit))
      fun _ _ => False := by
  unfold releaseConnWindow
  simp only [ends_bind, ends_get, ends_onCore]
  cases hi : (s.connRecvWindow.release n).2 with
  | some increment =>
    refine (queueFrame_ends _ (windowUpdate_le _ _)).ok ?_
    rintro - t hd
    refine ⟨?_, hd.of_withCore.kept⟩
    rw [hd.core]
    simp [ConnCore.releaseConn, ConnCore.observe, hi]
  | none =>
    refine ⟨?_, .withCore _ _⟩
    simp [ConnCore.releaseConn, hi]

theorem drainReclaimed_ends (s : Conn σ μ) :
    Ends (drainReclaimed s) (fun _ => s.Does (s.toConnCore.reclaim s.limit))
      fun _ _ => False := by
  unfold drainReclaimed
  simp only [ends_bind, ends_get, ends_onCore, ends_ite, ends_pure]
  constructor
  · intro h
    refine ⟨?_, .withCore _ _⟩
    simp [ConnCore.reclaim, h]
  · intro h
    refine (releaseConnWindow_ends _ _).ok ?_
    rintro - t hd
    refine ⟨?_, hd.of_withCore.kept⟩
    rw [hd.core]
    simp [ConnCore.reclaim, h]

/-- An id that may not be opened leaves the core alone, but for the id of a refused stream. -/
theorem openRejected_ends (s : Conn σ μ) (id : StreamId) :
    Ends (openRejected id s)
      (fun opened t => opened = (s.streams.openPeer id).2 ∧
        s.Does (match opened with
          | .ok () => { s.toConnCore with streams := (s.streams.openPeer id).1 }.observe (.opened id)
          | .error _ => { s.toConnCore with streams := (s.streams.openPeer id).1 }) t)
      fun _ _ => False := by
  unfold openRejected
  simp only [ends_bind, ends_get, ends_onCore]
  cases h : (s.streams.openPeer id).2 with
  | ok u => exact ⟨rfl, rfl, .withCore _ _⟩
  | error e => exact ⟨rfl, rfl, .withCore _ _⟩

/-- A block is gathered, and is whole at END_HEADERS. -/
theorem gatherBlock_ends (s : Conn σ μ) (fragment : Bytes) (endHeaders : Bool) :
    Ends (gatherBlock fragment endHeaders s)
      (fun block t => s.Does s.toConnCore t ∧
        ∀ b, block = some b → endHeaders = true ∧ b = s.headerBlock ++ fragment ∧
          b.length ≤ maxHeaderBlockBytes ∧ t.openHeaderEndStream = s.openHeaderEndStream)
      fun e t => s.Does s.toConnCore t ∧ e.Short := by
  unfold gatherBlock
  simp only [ends_bind, ends_get, ends_ite, ends_modify, ends_pure]
  refine ⟨fun _ => ⟨⟨rfl, ⟨rfl, rfl, .refl ..⟩, rfl, rfl, rfl⟩, ?_⟩, fun hfit => ⟨fun hend => ?_, fun _ => ?_⟩⟩
  · exact (((Within.text "header block exceeds " (k := 30) (by decide)).append
      (.nat (n := maxHeaderBlockBytes) (by decide))).append
      (.text " octets before END_HEADERS" (k := 30) (by decide))).short (by decide)
  · refine ⟨⟨rfl, ⟨rfl, rfl, .same rfl rfl⟩, rfl, rfl, rfl⟩, ?_⟩
    rintro b ⟨⟩
    exact ⟨hend, rfl, by rw [List.length_append]; omega, trivial⟩
  · refine (guarded_ends _ (.same rfl rfl)).mono ?_ ?_
    · rintro - t ⟨⟨hc, hk⟩, -⟩
      exact ⟨⟨hc, ⟨hk.now, hk.stop, hk.guard⟩, hk.localSettings, hk.peerSettings, hk.hpackDec⟩, by rintro b ⟨⟩⟩
    · rintro e t ⟨⟨hc, hk⟩, he⟩
      exact ⟨⟨hc, ⟨hk.now, hk.stop, hk.guard⟩, hk.localSettings, hk.peerSettings, hk.hpackDec⟩, he⟩

/-- A visit spends within both windows. -/
theorem spend_ends {r s : Conn σ μ} {id : StreamId} {stream : Stream} {turn : Stream.Turn}
    (rest : turn.rest.sendWindow = stream.sendWindow)
    (hs : r.Does (r.toConnCore.modifyStream id fun _ => turn.rest) s)
    (hstream : turn.chunk.length ≤ stream.sendWindow.sendable)
    (hconn : turn.chunk.length ≤ s.connSendWindow.sendable) :
    Ends (spend id stream turn.chunk.length s)
      (fun _ t => ∃ sendWindow,
        r.Does (r.toConnCore.modifyStream id fun _ => { turn.rest with sendWindow }) t)
      fun _ _ => False := by
  unfold spend
  simp only [ends_ite, ends_bind, ends_get, ends_pure]
  constructor
  · intro hlen
    unfold Window.sendable at hstream hconn
    rw [Window.consume_of_le (w := stream.sendWindow) (by omega),
      Window.consume_of_le (w := s.connSendWindow) (by omega)]
    simp only [ends_bind, ends_onCore, ends_modify]
    refine ⟨⟨stream.sendWindow.available - turn.chunk.length⟩, ?_,
      hs.kept.trans ⟨⟨rfl, rfl, .refl ..⟩, rfl, rfl, rfl⟩⟩
    show s.toConnCore.modifyStream id _ = _
    rw [hs.core]
    unfold ConnCore.modifyStream
    simp only [StreamTable.modify_modify]
  · intro _
    refine ⟨stream.sendWindow, ?_⟩
    rw [← rest]
    exact hs

/-- The text of an error about a frame on one stream is short. -/
theorem onStream_short (code : ErrorCode) (id : StreamId) {what why : String}
    (h : what.length ≤ 60) (h' : why.length ≤ 60) :
    ConnectionError.Short ⟨code, toString what ++ toString id.get ++ toString why⟩ :=
  (((Within.text what h).append (.nat (n := id.get) (by have := id.lt; omega))).append
    (.text why h')).short (by decide)

/-- The texts about a frame between the frames of a header block are short. -/
theorem headerBlockError_short {s : Conn σ μ} {kind : FrameType} {id : StreamId}
    {e : ConnectionError} (h : s.headerBlockError kind id = some e) : e.Short := by
  have num : ∀ i : StreamId, Within 10 (toString i.get) := fun i => .nat (by have := i.lt; omega)
  unfold headerBlockError at h
  split at h
  · split at h
    · cases h
    · cases h
      exact ((((((Within.text "expected CONTINUATION on stream " (k := 40) (by decide)).append
        (num _)).append (.text ", got " (k := 10) (by decide))).append
        (.text _ (FrameType.debug_within kind))).append
        (.text " on stream " (k := 20) (by decide))).append (num _)).short (by decide)
  · split at h
    · cases h
      exact onStream_short _ id (by decide) (by decide)
    · cases h

/-- Credit goes back for a live stream; what retired streams held goes back in any case. -/
theorem releaseRecvWindow_ends (s : Conn σ μ) (id : StreamId) (n : Nat) :
    Ends (releaseRecvWindow id n s)
      (fun _ => s.Does (if n = 0 then s.toConnCore else
        match s.streams.get? id with
        | some stream => (s.toConnCore.credit id stream n s.limit).reclaim s.limit
        | none => s.toConnCore.reclaim s.limit))
      fun _ _ => False := by
  unfold releaseRecvWindow
  simp only [ends_ite, ends_pure, ends_bind, ends_get]
  refine ⟨fun h => ?_, fun h => ?_⟩
  · rw [if_pos h]
    exact ⟨rfl, .refl s⟩
  rw [if_neg h]
  cases hlive : s.streams.get? id with
  | none => exact drainReclaimed_ends s
  | some stream =>
    simp only [ends_bind, ends_onCore]
    have last : ∀ t, s.Does (s.toConnCore.credit id stream n s.limit) t →
        Ends (drainReclaimed t)
          (fun _ => s.Does ((s.toConnCore.credit id stream n s.limit).reclaim s.limit))
          fun _ _ => False := by
      intro t ht
      refine (drainReclaimed_ends t).ok ?_
      rintro - u hu
      exact ht.after (fun c _ limit => c.reclaim limit) hu
    cases hi : (stream.recvWindow.release n).2 with
    | none =>
      simp only [ends_bind]
      refine (releaseConnWindow_ends _ n).ok ?_
      rintro - t ht
      refine last t ⟨?_, ht.of_withCore.kept⟩
      rw [ht.core]
      simp [ConnCore.credit, hi]
    | some increment =>
      simp only [ends_bind]
      refine (queueFrame_ends _ (windowUpdate_le _ _)).ok ?_
      rintro - t ht
      refine (releaseConnWindow_ends _ n).ok ?_
      rintro - u hu
      refine last u ⟨?_, ht.of_withCore.kept.trans hu.kept⟩
      rw [hu.core, ht.core, ht.of_withCore.kept.limit]
      simp [ConnCore.credit, ConnCore.observe, hi]

section Service

variable [Service σ μ]

theorem abandon_ends (s : Conn σ μ) (id : StreamId) (code : ErrorCode) :
    Ends (abandon id code s) (fun _ => s.Does (s.toConnCore.abandon s.now id code))
      fun _ _ => False :=
  ⟨rfl, ⟨⟨rfl, rfl, .refl ..⟩, rfl, rfl, rfl⟩⟩

theorem writeRstStream_ends (s : Conn σ μ) (id : StreamId) (code : ErrorCode) :
    Ends (writeRstStream id code s)
      (fun _ => s.Does (s.toConnCore.writeRst s.now id code s.limit))
      fun _ _ => False := by
  unfold writeRstStream
  simp only [ends_bind]
  refine (abandon_ends s id code).ok ?_
  rintro - t ht
  refine (drainReclaimed_ends t).ok ?_
  rintro - u hu
  refine (queueFrame_ends u (f := .rstStream id code) (small_le (show 4 ≤ 16384 by decide))).ok ?_
  rintro - v hv
  refine ⟨?_, ht.kept.trans (hu.kept.trans hv.kept)⟩
  rw [hv.core, hu.core, ht.core, hu.kept.limit, ht.kept.limit]
  rfl

theorem applyStreamEvent_ends (s : Conn σ μ) (id : StreamId) (event : StreamEvent) {what : String}
    (hw : what.length ≤ 100) :
    Ends (applyStreamEvent id event what s)
      (fun _ => s.Does (s.toConnCore.settle s.now id event s.limit))
      fun e s' => s.Does (s.toConnCore.settle s.now id event s.limit) s' ∧
        s.Does s.toConnCore s' ∧ e.Short := by
  have same : ∀ e, (s.streams.apply id event).2 = .error e →
      (s.streams.apply id event).1 = s.streams := fun e => StreamTable.apply_error
  unfold applyStreamEvent ConnCore.settle
  simp only [ends_bind, ends_get, ends_onCore]
  rcases happly : s.streams.apply id event with ⟨streams, result⟩
  rw [happly] at same
  cases result with
  | ok state =>
    simp only [ends_ite, ends_bind, ends_pure, ends_get, ends_onCore]
    constructor
    · intro hc
      refine (unready_ends _ _).ok ?_
      rintro - t ht
      refine (drainReclaimed_ends _).ok ?_
      rintro - u hu
      have hnow : t.now = s.now := ht.of_withCore.kept.now
      have hlim : t.limit = s.limit := ht.of_withCore.kept.limit
      refine ⟨?_, ht.of_withCore.kept.trans hu.of_withCore.kept⟩
      rw [hu.core, if_pos hc]
      simp only [withCore_toConnCore, withCore_limit, hnow, hlim, ht.core]
    · intro hc
      rw [if_neg hc]
      exact .withCore _ _
  | error e =>
    simp only [ends_ite, ends_bind, ends_fail, ends_onCore]
    constructor
    · intro hc
      have unchanged : streams = s.streams := same e rfl
      subst unchanged
      refine ⟨⟨by rw [if_pos hc]; rfl, .withCore _ _⟩, ⟨rfl, .withCore _ _⟩, ?_⟩
      have text := ((Within.text what hw).append (.text " on stream " (k := 20) (by decide))).append
        (.nat (n := id.get) (by have := id.lt; omega))
      exact (text.append (.text ", which is idle" (k := 20) (by decide))).short (by decide)
    · intro hc
      refine (unready_ends _ _).ok ?_
      rintro - t ht
      refine ⟨?_, ht.of_withCore.of_withCore.kept⟩
      rw [ht.core, if_neg hc]
      rfl

theorem sendResponse_ends (s : Conn σ μ) (id : StreamId) (response : Response)
    (endStream : Bool) :
    Ends (sendResponse id response endStream s)
      (fun _ => s.Does (s.toConnCore.respond s.now id response endStream s.hpackEnc s.limit))
      fun e s' => (s.Does (s.toConnCore.observe (.encoded s.hpackEnc response.toHeaders s.limit)) s'
        ∨ s.Does (s.toConnCore.respond s.now id response endStream s.hpackEnc s.limit) s') ∧
        e.Short := by
  unfold sendResponse
  simp only [ends_bind, ends_onCore]
  refine (queueHeaders_ends s id response.toHeaders endStream).mono ?_ ?_
  · rintro - t ht
    have done : ∀ u, (t.withCore (t.modifyStream id ({ · with responseStarted := true }))).Does
        ((t.modifyStream id ({ · with responseStarted := true })).settle t.now id
          (.sendHeaders endStream) t.limit) u →
        s.Does (s.toConnCore.respond s.now id response endStream s.hpackEnc s.limit) u := by
      intro u hu
      refine ⟨?_, ht.kept.trans hu.of_withCore.kept⟩
      rw [hu.core, ht.core, ht.kept.now, ht.kept.limit]
      rfl
    refine (applyStreamEvent_ends _ _ _ (by decide)).mono ?_ ?_
    · rintro - u hu
      exact done u hu
    · rintro e u ⟨hu, -, he⟩
      exact ⟨Or.inr (done u hu), he⟩
  · rintro e t ⟨ht, he⟩
    exact ⟨Or.inl ht, he⟩

theorem sendTrailers_ends (s : Conn σ μ) (id : StreamId) (fields : List Header) :
    Ends (sendTrailers id fields s)
      (fun _ => s.DoesAlike (s.toConnCore.sendTrailers s.now id fields s.hpackEnc s.limit))
      fun e s' => (s.Does (s.toConnCore.observe (.encoded s.hpackEnc fields s.limit)) s' ∨
        s.Does (s.toConnCore.sendTrailers s.now id fields s.hpackEnc s.limit) s') ∧ e.Short := by
  unfold sendTrailers ConnCore.sendTrailers
  cases validateTrailers fields with
  | error e =>
    simp only [ends_bind, ends_onCore]
    refine (enqueueReady_ends _ _).ok ?_
    rintro - t ⟨streams, ha, ht⟩
    exact ⟨streams, ha, ht.of_withCore⟩
  | ok u =>
    simp only [ends_bind, ends_get, ends_ite, ends_onCore]
    constructor
    · intro h
      rw [if_pos h]
      refine (enqueueReady_ends _ _).ok ?_
      rintro - t ⟨streams, ha, ht⟩
      exact ⟨streams, ha, ht.of_withCore⟩
    · intro h
      rw [if_neg h]
      refine (queueHeaders_ends s id fields true).mono ?_ ?_
      · rintro - t ht
        refine (applyStreamEvent_ends _ _ _ (by decide)).mono ?_ ?_
        · rintro - u hu
          refine Does.alike ⟨?_, ht.kept.trans hu.kept⟩
          rw [hu.core, ht.core, ht.kept.now, ht.kept.limit]
        · rintro e u ⟨hu, -, he⟩
          refine ⟨Or.inr ⟨?_, ht.kept.trans hu.kept⟩, he⟩
          rw [hu.core, ht.core, ht.kept.now, ht.kept.limit]
      · rintro e t ⟨ht, he⟩
        exact ⟨Or.inl ht, he⟩

end Service

end Conn

end H2Proxy
