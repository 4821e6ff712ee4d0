import H2Proxy.Conn.Strict
import H2Proxy.Up.Lends
import H2Proxy.Up.Steps

/-
  Frames on idle streams, at an upstream connection, and at both engines.

  The streams of a backend's connection are ours: what was opened is odd and no higher than the
  last id we used. Every live stream is one of them, and so is every stream that was reset, where
  no WINDOW_UPDATE of zero was heard on another (`Spared`). A RST_STREAM is never looked up at
  all: it is taken on any stream.
-/

namespace H2Proxy

open Std.Do

set_option mvcgen.warning false

/-- A RST_STREAM for stream `id`. -/
def UpObs.resets (id : StreamId) : UpObs → Bool
  | .queued (.rstStream id' _) _ _ => id' = id
  | _ => false

/-- Odd, and no higher than some stream that we opened. -/
def StreamTable.ours (t : StreamTable) (id : StreamId) : Bool :=
  id.isClientInitiated && id ≤ t.highestLocalId

theorem StreamTable.ours_iff {t : StreamTable} {id : StreamId} :
    t.ours id ↔ id.isClientInitiated ∧ id ≤ t.highestLocalId := by
  unfold ours
  rw [Bool.and_eq_true, decide_eq_true_eq]

namespace UpstreamCore

/-- Even, or above every stream that was opened so far. -/
def idle (c : UpstreamCore) (id : StreamId) : Bool := !id.isConnection && !c.streams.ours id

/-- A frame on an idle stream that is not looked up, or is found closed. -/
def misses (c : UpstreamCore) (w : WireFrame) : Bool :=
  match w.decode with
  | .ok (.frame (.data id data _)) =>
    c.idle id && c.streams.seen id && (c.connRecvWindow.record data.length).isOk
  | .ok (.frame (.rstStream id _)) => c.idle id
  | .ok (.frame (.windowUpdate id increment)) =>
    c.idle id && (increment = 0 || c.streams.seen id)
  | _ => false

variable {c : UpstreamCore}

theorem idle_stream {id : StreamId} (idle : c.idle id) : id.isConnection = false := by
  unfold UpstreamCore.idle at idle
  rw [Bool.and_eq_true, Bool.not_eq_true'] at idle
  exact idle.1

/-- A frame that is missed is one that needs a stream, on an idle one. -/
theorem misses_needs {w : WireFrame} (missed : c.misses w) :
    w.needsStream ∧ c.idle w.header.streamId := by
  have needs : ∀ {f : Frame}, w.decode = .ok (.frame f) →
      f.kind = .data ∨ f.kind = .rstStream ∨ f.kind = .windowUpdate → c.idle f.streamId →
      w.needsStream ∧ c.idle w.header.streamId := by
    intro f decoded kind idle
    have stream := (WireFrame.decode_header decoded).2
    exact ⟨WireFrame.needsStream_of decoded kind (idle_stream idle), stream ▸ idle⟩
  unfold misses at missed
  split at missed
  · rename_i decoded
    simp only [Bool.and_eq_true] at missed
    exact needs decoded (.inl rfl) missed.1.1
  · rename_i decoded
    exact needs decoded (.inr (.inl rfl)) missed
  · rename_i decoded
    simp only [Bool.and_eq_true] at missed
    exact needs decoded (.inr (.inr rfl)) missed.1
  · cases missed

end UpstreamCore

/-- Every stream that is live or was reset is ours, on a connection that runs. -/
structure Spared (streams : StreamTable) (log : List UpObs) (stop : Option Stop) : Prop where
  live : ∀ id, (streams.get? id).isSome → streams.ours id
  reset : ∀ o ∈ log, ∀ id, o.resets id → streams.ours id
  running : stop = none

namespace Spared

variable {streams streams' : StreamTable} {log : List UpObs} {stop : Option Stop} {id : StreamId}

theorem observe (h : Spared streams log stop) {o : UpObs} (silent : ∀ id, o.resets id = false) :
    Spared streams (log ++ [o]) stop := by
  refine ⟨h.live, fun o' ho id resets => ?_, h.running⟩
  obtain ho | ho := List.mem_append.mp ho
  · exact h.reset o' ho id resets
  · rw [List.mem_singleton.mp ho, silent] at resets
    cases resets

/-- A stream of ours is reset. -/
theorem rst (h : Spared streams log stop) (ours : streams.ours id) (code : ErrorCode)
    (fields : List Header) (limit : Nat) :
    Spared streams (log ++ [.queued (.rstStream id code) fields limit]) stop := by
  refine ⟨h.live, fun o ho id' resets => ?_, h.running⟩
  obtain ho | ho := List.mem_append.mp ho
  · exact h.reset o ho id' resets
  · rw [List.mem_singleton.mp ho] at resets
    have same : id = id' := of_decide_eq_true resets
    exact same ▸ ours

theorem ours_of_live (h : Spared streams log stop) {stream : Stream}
    (live : streams.lookup id = .live stream) : streams.ours id := by
  refine h.live id ?_
  rw [StreamTable.lookup_live.mp live]
  rfl

/-- What is live was live, and no id is any less ours. -/
theorem table (h : Spared streams log stop) (top : streams.highestLocalId ≤ streams'.highestLocalId)
    (live : ∀ id, (streams'.get? id).isSome → (streams.get? id).isSome ∨ streams'.ours id) :
    Spared streams' log stop := by
  have rises : ∀ id, streams.ours id → streams'.ours id := by
    intro id ours
    obtain ⟨odd, le⟩ := StreamTable.ours_iff.mp ours
    exact StreamTable.ours_iff.mpr ⟨odd, Nat.le_trans le top⟩
  refine ⟨fun id hs => ?_, fun o ho id resets => rises id (h.reset o ho id resets), h.running⟩
  obtain was | ours := live id hs
  · exact rises id (h.live id was)
  · exact ours

theorem modify (h : Spared streams log stop) (f : Stream → Stream) :
    Spared (streams.modify id f) log stop := by
  refine h.table (Nat.le_refl _) fun id' hs => ?_
  rw [StreamTable.get?_modify] at hs
  split at hs
  · rename_i same
    rw [Option.isSome_map] at hs
    exact .inl (same ▸ hs)
  · exact .inl hs

theorem retire (h : Spared streams log stop) :
    Spared { streams.retire id with reclaimed := 0 } log stop := by
  refine h.table (Nat.le_of_eq ?_) fun id' hs => ?_
  · exact congrArg StreamId.get (StreamTable.retire_highestLocalId streams id).symm
  · have hs : ((streams.retire id).get? id').isSome := hs
    rw [StreamTable.get?_retire] at hs
    split at hs
    · cases hs
    · exact .inl hs

theorem apply (h : Spared streams log stop) (event : StreamEvent) :
    Spared (streams.apply id event).1 log stop := by
  refine h.table (Nat.le_of_eq ?_) fun id' hs => ?_
  · exact congrArg StreamId.get (StreamTable.apply_highestLocalId streams id event).symm
  · by_cases same : id' = id
    · refine .inl ?_
      rw [StreamTable.get?_apply, if_pos same] at hs
      rw [same]
      cases was : streams.get? id with
      | none => rw [was] at hs; cases hs
      | some st => rfl
    · rw [StreamTable.get?_apply_ne _ _ same] at hs
      exact .inl hs

theorem shift (h : Spared streams log stop) (delta : Int) :
    Spared (streams.applyInitialWindowDelta delta).1 log stop := by
  have alike := StreamTable.alike_applyInitialWindowDelta streams delta
  refine h.table (Nat.le_of_eq (congrArg StreamId.get alike.highestLocalId.symm)) fun id' hs => ?_
  have same := alike.live id'
  cases was : streams.get? id' with
  | none =>
    rw [was] at same
    cases is : (streams.applyInitialWindowDelta delta).1.get? id' with
    | none => rw [is] at hs; cases hs
    | some st => rw [is] at same; cases same
  | some st => exact .inl rfl

theorem bound (h : Spared streams log stop) (max : Nat) :
    Spared { streams with maxConcurrent := max } log stop :=
  h.table (Nat.le_refl _) fun _ hs => .inl hs

theorem unopened (h : Spared streams log stop) {e : OpenRejection}
    (refused : (streams.openLocal id).2 = .error e) : Spared (streams.openLocal id).1 log stop := by
  rw [StreamTable.openLocal_error refused]
  exact h

theorem accept (h : Spared streams log stop) (isOpen : (streams.openLocal id).2 = .ok ()) :
    Spared (streams.openLocal id).1 log stop := by
  obtain ⟨odd, above, -, table⟩ := StreamTable.openLocal_ok isOpen
  rw [table]
  refine h.table (Nat.le_of_lt (Nat.lt_of_not_le above)) fun id' hs => ?_
  rw [StreamTable.get?_insertNew] at hs
  split at hs
  · rename_i same
    exact .inr (StreamTable.ours_iff.mpr ⟨same ▸ odd, same ▸ Nat.le_refl _⟩)
  · exact .inl hs

end Spared

/-! ## The functions -/

namespace Upstream

/-- Every stream that is live or was reset is ours, and the connection runs. -/
def Spares (s : Upstream) : Prop := Spared s.streams s.log s.stop

theorem Spares.and_ours {s : Upstream} (h : s.Spares) {id : StreamId}
    (live : (s.streams.get? id).isSome) : s.Spares ∧ s.streams.ours id := ⟨h, h.live id live⟩

/-- However the program ends, so it is. -/
abbrev Sparing {α : Type} : PostCond α (.except ConnectionError (.arg Upstream .pure)) :=
  post⟨fun _ s => ⌜s.Spares⌝, fun _ s => ⌜s.Spares⌝⟩

@[local spec]
theorem fail_spares {α : Type} (code : ErrorCode) (debug : String) :
    ⦃fun s => ⌜s.Spares⌝⦄ (fail code debug : UpM α) ⦃Sparing⦄ := by
  mvcgen [fail]

/-- What a program did before it failed stays done. -/
theorem ignore_spares {x : UpM Unit} (h : ⦃fun s => ⌜s.Spares⌝⦄ x ⦃Sparing⦄) :
    ⦃fun s => ⌜s.Spares⌝⦄ (ignore x : UpM Unit) ⦃Sparing⦄ := by
  refine triple_iff_ends.mpr fun s hs => ?_
  have ends := triple_iff_ends.mp h s hs
  unfold ignore
  cases hx : x s with
  | ok u t => rw [hx] at ends; exact ends
  | error e t => rw [hx] at ends; exact ends

@[local spec]
theorem tell_spares (request : RequestId) (events : Events) (event : ServiceEvent) :
    ⦃fun s => ⌜s.Spares⌝⦄ (tell request events event : UpM Unit) ⦃Sparing⦄ := by
  mvcgen [tell, onCore]
  exact Spared.observe ‹_› fun _ => rfl

@[local spec]
theorem queueFields_spares {frame : Frame} (fields : List Header)
    (silent : frame.kind ≠ .rstStream) :
    ⦃fun s => ⌜s.Spares⌝⦄ (queueFields frame fields : UpM Unit) ⦃Sparing⦄ := by
  mvcgen [queueFields, onCore]
  refine Spared.observe ‹_› fun id => ?_
  cases frame with
  | rstStream => exact absurd rfl silent
  | _ => rfl

@[local spec]
theorem queueFrame_spares {frame : Frame} (silent : frame.kind ≠ .rstStream) :
    ⦃fun s => ⌜s.Spares⌝⦄ (queueFrame frame : UpM Unit) ⦃Sparing⦄ :=
  queueFields_spares [] silent

@[local spec]
theorem queueHeaders_spares (id : StreamId) (fields : List Header) (endStream : Bool) :
    ⦃fun s => ⌜s.Spares⌝⦄ (queueHeaders id fields endStream : UpM Unit) ⦃Sparing⦄ := by
  mvcgen [queueHeaders, onCore]
  · exact fun no => (by cases no)
  · exact Spared.observe ‹_› fun _ => rfl

@[local spec]
theorem unready_spares (id : StreamId) :
    ⦃fun s => ⌜s.Spares⌝⦄ (unready id : UpM Unit) ⦃Sparing⦄ := by
  mvcgen [unready]

@[local spec]
theorem enqueueReady_spares (id : StreamId) :
    ⦃fun s => ⌜s.Spares⌝⦄ (enqueueReady id : UpM Unit) ⦃Sparing⦄ := by
  mvcgen [enqueueReady, onCore]
  exact Spared.modify ‹_› _

@[local spec]
theorem syncQueued_spares :
    ⦃fun s => ⌜s.Spares⌝⦄ (syncQueued : UpM Unit) ⦃Sparing⦄ := by
  mvcgen [syncQueued, onCore]

/-! ### Credit -/

@[local spec]
theorem releaseConnWindow_spares (len : Nat) :
    ⦃fun s => ⌜s.Spares⌝⦄ (releaseConnWindow len : UpM Unit) ⦃Sparing⦄ := by
  mvcgen [releaseConnWindow, onCore]
  exact fun no => (by cases no)

@[local spec]
theorem release_spares (id : StreamId) (n : Nat) :
    ⦃fun s => ⌜s.Spares⌝⦄ (release id n : UpM Unit) ⦃Sparing⦄ := by
  mvcgen [release, releaseStream, onCore]
  · exact fun no => (by cases no)
  · exact Spared.modify ‹_› _
  · exact Spared.modify ‹_› _

/-! ### Ending and starting streams -/

/-- A stream of ours is reset. -/
@[local spec]
theorem writeRstStream_spares (id : StreamId) (code : ErrorCode) :
    ⦃fun s => ⌜s.Spares ∧ s.streams.ours id⌝⦄ (writeRstStream id code : UpM Unit) ⦃Sparing⦄ := by
  mvcgen [writeRstStream, unready, queueFrame, queueFields, onCore]
  exact (Spared.rst (And.left ‹_›) (And.right ‹_›) _ _ _).retire

section Drain

variable {drain : UpM Unit} (drains : ⦃fun s => ⌜s.Spares⌝⦄ drain ⦃Sparing⦄)

include drains

theorem forgetWith_spares (id : StreamId) :
    ⦃fun s => ⌜s.Spares⌝⦄ (forgetWith drain id : UpM Unit) ⦃Sparing⦄ := by
  have rest := ignore_spares drains
  have returns : ∀ n, ⦃fun s => ⌜s.Spares⌝⦄ (ignore (releaseConnWindow n) : UpM Unit) ⦃Sparing⦄ :=
    fun n => ignore_spares (releaseConnWindow_spares n)
  mvcgen [forgetWith, onCore, rest, returns]
  exact Spared.retire ‹_›

theorem failStreamWith_spares (id : StreamId) (status : Nat) :
    ⦃fun s => ⌜s.Spares⌝⦄ (failStreamWith drain id status : UpM Unit) ⦃Sparing⦄ := by
  have forgets := forgetWith_spares drains
  mvcgen [failStreamWith, forgets]
  · exact Spares.and_ours ‹_› ‹_›
  · exact Spares.and_ours ‹_› ‹_›

theorem applyStreamEventWith_spares (id : StreamId) (event : StreamEvent) :
    ⦃fun s => ⌜s.Spares⌝⦄ (applyStreamEventWith drain id event : UpM Unit) ⦃Sparing⦄ := by
  have fails := failStreamWith_spares drains
  mvcgen [applyStreamEventWith, onCore, fails]
  all_goals exact Spared.apply ‹_› event

theorem sendRequestWith_spares (request : RequestId) (clientId : StreamId) (head : RequestHead)
    (endStream : Bool) (events : Events) :
    ⦃fun s => ⌜s.Spares⌝⦄
    (sendRequestWith drain request clientId head endStream events : UpM Unit) ⦃Sparing⦄ := by
  have applies := applyStreamEventWith_spares drains
  mvcgen [sendRequestWith, onCore, applies]
  · exact Spared.unopened ‹_› ‹_›
  · exact (Spared.accept ‹_› ‹_›).observe fun _ => rfl

end Drain

@[local spec]
theorem sendWaiting_spares (pending : Pending) (id : StreamId) :
    ⦃fun s => ⌜s.Spares⌝⦄ (sendWaiting pending id : UpM Unit) ⦃Sparing⦄ := by
  mvcgen [sendWaiting, onCore]
  exact Spared.modify ‹_› _

theorem drainPendingFrom_spares (fuel : Nat) :
    ⦃fun s => ⌜s.Spares⌝⦄ (drainPendingFrom fuel : UpM Unit) ⦃Sparing⦄ := by
  induction fuel with
  | zero => mvcgen [drainPendingFrom]
  | succ fuel ih =>
    have sends := sendRequestWith_spares ih
    mvcgen [drainPendingFrom, onCore, sends, ih]

theorem drainPending_spares : ⦃fun s => ⌜s.Spares⌝⦄ (drainPending : UpM Unit) ⦃Sparing⦄ := by
  mvcgen [drainPending, drainPendingFrom_spares]

@[local spec]
theorem forget_spares (id : StreamId) :
    ⦃fun s => ⌜s.Spares⌝⦄ (forget id : UpM Unit) ⦃Sparing⦄ :=
  forgetWith_spares drainPending_spares id

@[local spec]
theorem failStream_spares (id : StreamId) (status : Nat) :
    ⦃fun s => ⌜s.Spares⌝⦄ (failStream id status : UpM Unit) ⦃Sparing⦄ :=
  failStreamWith_spares drainPending_spares id status

@[local spec]
theorem applyStreamEvent_spares (id : StreamId) (event : StreamEvent) :
    ⦃fun s => ⌜s.Spares⌝⦄ (applyStreamEvent id event : UpM Unit) ⦃Sparing⦄ :=
  applyStreamEventWith_spares drainPending_spares id event

@[local spec]
theorem sendRequest_spares (request : RequestId) (clientId : StreamId) (head : RequestHead)
    (endStream : Bool) (events : Events) :
    ⦃fun s => ⌜s.Spares⌝⦄ (sendRequest request clientId head endStream events : UpM Unit)
    ⦃Sparing⦄ :=
  sendRequestWith_spares drainPending_spares request clientId head endStream events

/-! ### Messages and frames -/

@[local spec]
theorem handleMessage_spares (message : ToUpstream) :
    ⦃fun s => ⌜s.Spares⌝⦄ (handleMessage message : UpM Unit) ⦃Sparing⦄ := by
  have heard : ∀ (s : Upstream) (message : ToUpstream), s.Spares →
      Spared s.streams (s.log ++ [.took message]) s.stop :=
    fun _ _ h => h.observe fun _ => rfl
  cases message with
  | request => mvcgen [handleMessage, onCore]; exact heard _ _ ‹_›
  | body =>
    mvcgen [handleMessage, onCore]
    · exact heard _ _ ‹_›
    · exact (heard _ _ ‹_›).modify _
  | trailers =>
    mvcgen [handleMessage, onCore]
    · exact heard _ _ ‹_›
    · exact (heard _ _ ‹_›).modify _
  | released => mvcgen [handleMessage, onCore] <;> exact heard _ _ ‹_›
  | cancel =>
    mvcgen [handleMessage, onCore]
    · exact heard _ _ ‹_›
    · refine Spares.and_ours ?_ ‹_›
      exact heard _ _ ‹_›
    · exact heard _ _ ‹_›

@[local spec]
theorem refusePending_spares (pending : List Pending) :
    ⦃fun s => ⌜s.Spares⌝⦄ (refusePending pending : UpM Unit) ⦃Sparing⦄ := by
  induction pending with
  | nil => mvcgen [refusePending]
  | cons p pending ih => mvcgen [refusePending, ih]

@[local spec]
theorem abandon_spares (ids : List StreamId) :
    ⦃fun s => ⌜s.Spares⌝⦄ (abandon ids : UpM Unit) ⦃Sparing⦄ := by
  induction ids with
  | nil => mvcgen [abandon]
  | cons id ids ih => mvcgen [abandon, ih]

@[local spec]
theorem beginPeerDrain_spares (lastStreamId : StreamId) :
    ⦃fun s => ⌜s.Spares⌝⦄ (beginPeerDrain lastStreamId : UpM Unit) ⦃Sparing⦄ := by
  mvcgen [beginPeerDrain, onCore]

@[local spec]
theorem recvResponse_spares (id : StreamId) (headers : List Header) (endStream : Bool) :
    ⦃fun s => ⌜s.Spares⌝⦄ (recvResponse id headers endStream : UpM Unit) ⦃Sparing⦄ := by
  mvcgen [recvResponse, passSection, onCore]

@[local spec]
theorem readHeaderBlock_spares (id : StreamId) (fragment : Bytes) (endHeaders : Bool) :
    ⦃fun s => ⌜s.Spares⌝⦄ (readHeaderBlock id fragment endHeaders : UpM Unit) ⦃Sparing⦄ := by
  mvcgen [readHeaderBlock]

@[local spec]
theorem recvData_spares (id : StreamId) (data : Bytes) (endStream : Bool) :
    ⦃fun s => ⌜s.Spares⌝⦄ (recvData id data endStream : UpM Unit) ⦃Sparing⦄ := by
  mvcgen [recvData, onCore]
  · exact ⟨‹_›, Spared.ours_of_live ‹_› ‹_›⟩
  · exact Spared.modify ‹_› _
  · exact Spared.modify ‹_› _

/-- No stream but ours is reset for a WINDOW_UPDATE of zero. -/
theorem recvWindowUpdate_spares (id : StreamId) (increment : Nat) :
    ⦃fun s => ⌜s.Spares ∧ (increment = 0 → id.isConnection = false → s.streams.ours id)⌝⦄
    (recvWindowUpdate id increment : UpM Unit) ⦃Sparing⦄ := by
  mvcgen [recvWindowUpdate, onCore]
  · exact And.left ‹_›
  · obtain ⟨kept, ours⟩ := ‹Upstream.Spares _ ∧ _›
    exact ⟨kept, ours ‹_› (Bool.eq_false_iff.mpr ‹_›)⟩
  · exact And.left ‹_›
  · exact And.left ‹_›
  · exact And.left ‹_›
  · exact And.left ‹_›
  · exact ⟨And.left ‹_›, Spared.ours_of_live (And.left ‹_›) ‹_›⟩
  · exact Spared.modify (And.left ‹_›) _

@[local spec]
theorem recvRstStream_spares (id : StreamId) (code : ErrorCode) :
    ⦃fun s => ⌜s.Spares⌝⦄ (recvRstStream id code : UpM Unit) ⦃Sparing⦄ := by
  mvcgen [recvRstStream]

@[local spec]
theorem recvSettings_spares (params : List (UInt16 × UInt32)) :
    ⦃fun s => ⌜s.Spares⌝⦄ (recvSettings params : UpM Unit) ⦃Sparing⦄ := by
  mvcgen [recvSettings, onCore]
  · exact (Spared.bound ‹_› _).shift _
  · exact (Spared.bound ‹_› _).shift _
  · exact Spared.bound ‹_› _
  · exact Spared.shift ‹_› _
  · exact Spared.shift ‹_› _

/-! ### The scheduler -/

@[local spec]
theorem spend_spares (id : StreamId) (stream : Stream) (len : Nat) :
    ⦃fun s => ⌜s.Spares⌝⦄ (spend id stream len : UpM Unit) ⦃Sparing⦄ := by
  mvcgen [spend, onCore]
  · exact Spared.modify ‹_› _
  · exact Spared.modify ‹_› _

@[local spec]
theorem transmit_spares (id : StreamId) (turn : Stream.Turn) :
    ⦃fun s => ⌜s.Spares⌝⦄ (transmit id turn : UpM Unit) ⦃Sparing⦄ := by
  mvcgen [transmit]
  exact fun no => (by cases no)

@[local spec]
theorem reportAccepted_spares (id : StreamId) (len : Nat) :
    ⦃fun s => ⌜s.Spares⌝⦄ (reportAccepted id len : UpM Unit) ⦃Sparing⦄ := by
  mvcgen [reportAccepted]

@[local spec]
theorem visitReadyStream_spares (id : StreamId) :
    ⦃fun s => ⌜s.Spares⌝⦄ (visitReadyStream id : UpM (Option Bool)) ⦃Sparing⦄ := by
  mvcgen [visitReadyStream, transmitTrailers, onCore]
  · exact Spared.modify ‹_› _
  · exact Spared.modify ‹_› _
  · exact Spared.modify ‹_› _

@[local spec]
theorem visitLap_spares (lap : List StreamId) :
    ⦃fun s => ⌜s.Spares⌝⦄ (visitLap lap : UpM (List StreamId × List StreamId × Bool))
    ⦃Sparing⦄ := by
  induction lap with
  | nil => mvcgen [visitLap]
  | cons id lap ih => mvcgen [visitLap, ih]

@[local spec]
theorem requeue_spares (ids : List StreamId) :
    ⦃fun s => ⌜s.Spares⌝⦄ (requeue ids : UpM Unit) ⦃Sparing⦄ := by
  induction ids with
  | nil => mvcgen [requeue]
  | cons id ids ih =>
    mvcgen [requeue, onCore, ih]
    exact Spared.modify ‹_› _

@[local spec]
theorem pumpLaps_spares (fuel : Nat) :
    ⦃fun s => ⌜s.Spares⌝⦄ (pumpLaps fuel : UpM Unit) ⦃Sparing⦄ := by
  induction fuel with
  | zero => mvcgen [pumpLaps]
  | succ fuel ih => mvcgen [pumpLaps, pumpLap, ih]

/-! ## A frame on an idle stream -/

/-- Whether a frame is in order, so that its stream is looked at. -/
def handles (s : Upstream) (w : WireFrame) : Bool :=
  match w.decode with
  | .ok (.frame f) =>
    w.header.length ≤ s.localSettings.maxFrameSize && (s.headerBlockError f).isNone
  | _ => false

/-- A frame on an idle stream that is dealt with as if it were none. -/
def Overlooks (s : Upstream) (w : WireFrame) : Prop := s.handles w ∧ s.misses w

theorem handleFrame_spares {frame : Frame} (other : frame.kind ≠ .windowUpdate) :
    ⦃fun s => ⌜s.Spares⌝⦄ (handleFrame frame : UpM Unit) ⦃Sparing⦄ := by
  cases frame with
  | windowUpdate => exact absurd rfl other
  | ping =>
    mvcgen [handleFrame]
    exact fun no => (by cases no)
  | _ => mvcgen [handleFrame]

/-- A frame that is not overlooked resets no stream but ours. -/
theorem recvWire_spares {s : Upstream} (h : s.Spares) {w : WireFrame} (heeds : ¬ s.Overlooks w) :
    Ends (recvWire w s) (fun _ t => t.Spares) fun _ t => t.Spares := by
  have heard : (s.withCore (s.toUpstreamCore.observe (.heard w))).Spares :=
    h.observe fun _ => rfl
  unfold recvWire
  rw [ends_bind, ends_onCore, ends_bind, ends_get, ends_ite]
  refine ⟨fun _ => heard, fun fits => ?_⟩
  cases decoded : w.decode with
  | error e => exact heard
  | ok d =>
    cases d with
    | ignored kind id =>
      dsimp only
      unfold rejectIfMidHeaderBlock
      rw [ends_bind, ends_get]
      cases (s.withCore (s.toUpstreamCore.observe (.heard w))).openHeaderBlock <;> exact heard
    | frame f =>
      cases f with
      | windowUpdate id increment =>
        dsimp only
        unfold handleFrame
        rw [ends_bind, ends_get]
        cases inOrder : (s.withCore (s.toUpstreamCore.observe (.heard w))).headerBlockError
          (.windowUpdate id increment) with
        | some e => exact heard
        | none =>
          refine triple_iff_ends.mp (recvWindowUpdate_spares id increment) _ ⟨heard, ?_⟩
          intro zero stream
          refine by_contra fun idle => heeds ⟨?_, ?_⟩
          · have inOrder : s.headerBlockError (.windowUpdate id increment) = none := inOrder
            have fits : w.header.length ≤ s.localSettings.maxFrameSize := Nat.not_lt.mp fits
            unfold handles
            rw [decoded]
            dsimp only
            rw [inOrder, decide_eq_true fits]
            rfl
          · have idle : s.streams.ours id = false := Bool.eq_false_iff.mpr idle
            unfold UpstreamCore.misses
            rw [decoded]
            dsimp only
            unfold UpstreamCore.idle
            rw [stream, idle, zero]
            rfl
      | _ =>
        refine triple_iff_ends.mp (handleFrame_spares ?_) _ heard
        exact fun no => (by cases no)

/-! ### What becomes of it -/

section Missed

variable {s t : Upstream} {w : WireFrame} {id : StreamId}

theorem not_overlooks (cut : s.handles w = false) : ¬ s.Overlooks w := by
  rintro ⟨handled, -⟩
  rw [cut] at handled
  cases handled

theorem recvData_idle {data : Bytes} {endStream : Bool} (streams : t.streams = s.streams)
    (window : t.connRecvWindow = s.connRecvWindow)
    (frame : w.decode = .ok (.frame (.data id data endStream))) (handled : s.handles w)
    (idle : s.idle id) (gone : s.streams.get? id = none) :
    Ends (recvData id data endStream t) (fun _ _ => s.Overlooks w) fun _ _ => ¬ s.Overlooks w := by
  have misses : s.misses w = (s.idle id && s.streams.seen id &&
      (s.connRecvWindow.record data.length).isOk) := by
    unfold UpstreamCore.misses
    rw [frame]
  unfold recvData
  dsimp only
  rw [ends_bind, ends_get, window]
  cases record : s.connRecvWindow.record data.length with
  | error code =>
    rintro ⟨-, missed⟩
    rw [misses, record] at missed
    simp [Except.isOk, Except.toBool] at missed
  | ok window' =>
    dsimp only
    rw [ends_bind, ends_onCore, ends_bind, ends_get]
    dsimp only [withCore]
    rw [streams]
    cases found : s.streams.lookup id with
    | live stream =>
      rw [StreamTable.lookup_live.mp found] at gone
      cases gone
    | idle =>
      rintro ⟨-, missed⟩
      rw [misses, (StreamTable.lookup_idle found).2] at missed
      simp at missed
    | closed =>
      have missed : s.Overlooks w := by
        refine ⟨handled, ?_⟩
        rw [misses, (StreamTable.lookup_closed found).2, record, idle]
        rfl
      dsimp only
      unfold releaseConnWindow
      rw [ends_bind, ends_get]
      dsimp only
      rw [ends_bind, ends_onCore]
      cases (window'.release data.length).2 with
      | none => exact missed
      | some increment =>
        have short : (Frame.windowUpdate .connection increment).payloadLen ≤ maxAllowedFrameSize :=
          show 4 ≤ maxAllowedFrameSize by decide
        exact (queueFrame_short _ short).ok fun _ _ _ => missed

theorem ignore_ok (x : UpM Unit) (s : Upstream) :
    Ends (ignore x s) (fun _ _ => True) fun _ _ => False := by
  rw [ends_ignore]
  cases x s <;> trivial

/-- A RST_STREAM ends in no error. -/
theorem recvRstStream_ok (s : Upstream) (id : StreamId) (code : ErrorCode) :
    Ends (recvRstStream id code s) (fun _ _ => True) fun _ _ => False := by
  have forgets : ∀ t : Upstream, Ends (forget id t) (fun _ _ => True) fun _ _ => False := by
    intro t
    unfold forget forgetWith
    rw [ends_bind, ends_onCore, ends_bind, ends_unready, ends_bind, ends_get]
    dsimp only
    cases (t.withCore (t.toUpstreamCore.retire id)).routes.lookup id with
    | none => exact ignore_ok drainPending _
    | some route =>
      simp only [ends_bind, ends_onCore, ends_ite]
      refine ⟨fun _ => (ignore_ok _ _).ok fun _ u _ => ?_, fun _ => ?_⟩
      · exact ignore_ok drainPending u
      · exact ignore_ok drainPending _
  unfold recvRstStream
  rw [ends_bind, ends_get]
  cases s.routes.lookup id with
  | none => exact forgets s
  | some route => exact forgets _

theorem recvWindowUpdate_idle {increment : Nat} (streams : t.streams = s.streams)
    (running : t.stop = none)
    (frame : w.decode = .ok (.frame (.windowUpdate id increment))) (handled : s.handles w)
    (idle : s.idle id) (gone : s.streams.get? id = none) :
    Ends (recvWindowUpdate id increment t) (fun _ u => s.Overlooks w ∧ u.stop = none)
      fun _ _ => ¬ s.Overlooks w := by
  have misses : s.misses w = (s.idle id && (increment = 0 || s.streams.seen id)) := by
    unfold UpstreamCore.misses
    rw [frame]
  have stream := UpstreamCore.idle_stream idle
  unfold recvWindowUpdate
  by_cases zero : increment = 0
  · have missed : s.Overlooks w := by
      refine ⟨handled, ?_⟩
      rw [misses, zero, idle]
      rfl
    rw [if_pos zero, stream, if_neg Bool.false_ne_true]
    unfold writeRstStream
    rw [ends_bind, ends_onCore, ends_bind, ends_unready]
    unfold queueFrame queueFields
    cases written : (Frame.rstStream id .protocolError).write with
    | error e => cases written
    | ok octets => exact ⟨missed, running⟩
  · rw [if_neg zero, stream, if_neg Bool.false_ne_true, ends_bind, ends_get, streams]
    cases found : s.streams.lookup id with
    | live stream =>
      rw [StreamTable.lookup_live.mp found] at gone
      cases gone
    | idle =>
      rintro ⟨-, missed⟩
      rw [misses, (StreamTable.lookup_idle found).2] at missed
      simp [zero] at missed
    | closed =>
      refine ⟨⟨handled, ?_⟩, running⟩
      rw [misses, (StreamTable.lookup_closed found).2, idle]
      simp

/-- A frame that needs a stream ends the connection on an idle one, unless it is overlooked. -/
theorem recvWire_idle (h : s.Spares) (needs : w.needsStream) (idle : s.idle w.header.streamId)
    (gone : s.streams.get? w.header.streamId = none) :
    Ends (recvWire w s) (fun _ t => s.Overlooks w ∧ t.stop = none) fun _ _ => ¬ s.Overlooks w := by
  have heard : (s.withCore (s.toUpstreamCore.observe (.heard w))).Spares :=
    h.observe fun _ => rfl
  unfold recvWire
  rw [ends_bind, ends_onCore, ends_bind, ends_get, ends_ite]
  refine ⟨fun long => not_overlooks ?_, fun fits => ?_⟩
  · have long : ¬ w.header.length ≤ s.localSettings.maxFrameSize := Nat.not_le.mpr long
    unfold handles
    split
    · rw [decide_eq_false long, Bool.false_and]
    · rfl
  have fits : w.header.length ≤ s.localSettings.maxFrameSize := Nat.not_lt.mp fits
  cases decoded : w.decode with
  | error e =>
    refine not_overlooks ?_
    unfold handles
    rw [decoded]
  | ok d =>
    have needy := WireFrame.needy needs decoded
    cases d with
    | ignored kind id => cases needy
    | frame f =>
      have order : (s.withCore (s.toUpstreamCore.observe (.heard w))).headerBlockError f =
        s.headerBlockError f := rfl
      dsimp only
      unfold handleFrame
      rw [ends_bind, ends_get, order]
      cases inOrder : s.headerBlockError f with
      | some e =>
        refine not_overlooks ?_
        unfold handles
        rw [decoded]
        dsimp only
        rw [inOrder, Option.isNone_some, Bool.and_false]
      | none =>
        have handled : s.handles w := by
          unfold handles
          rw [decoded]
          dsimp only
          rw [inOrder, decide_eq_true fits]
          rfl
        cases needy with
        | data data endStream =>
          have kept := triple_iff_ends.mp (recvData_spares w.header.streamId data endStream) _ heard
          refine Ends.mono (Ends.and (recvData_idle (s := s) ?_ ?_ decoded handled idle gone) kept)
            (fun _ _ ht => ⟨ht.1, ht.2.running⟩) fun _ _ ht => ht.1
          · rfl
          · rfl
        | rstStream code =>
          have missed : s.Overlooks w := by
            refine ⟨handled, ?_⟩
            unfold UpstreamCore.misses
            rw [decoded]
            exact idle
          have kept := triple_iff_ends.mp (recvRstStream_spares w.header.streamId code) _ heard
          exact ((recvRstStream_ok _ _ code).and kept).mono (fun _ _ ht => ⟨missed, ht.2.running⟩)
            fun _ _ ht => ht.1.elim
        | windowUpdate increment =>
          exact recvWindowUpdate_idle (by rfl) heard.running decoded handled idle gone

end Missed

/-! ## Steps -/

/-- No frame is overlooked. -/
def Heeds (s : Upstream) (i : Instant × UpInput) : Prop :=
  s.stop = none → ∀ w, i.2 = .frame w → ¬ s.Overlooks w

/-- What may not come on an idle stream is a connection error, and no idle stream is reset. -/
structure Strict (s : Upstream) (i : Instant × UpInput) : Prop where
  fatal : s.stop = none → ∀ w, i.2 = .frame w → w.needsStream → s.idle w.header.streamId →
    ∃ e, (step i s).stop = some (.failed e)
  spared : ∀ added, (step i s).log = s.log ++ added → ∀ o ∈ added, ∀ id, o.resets id →
    (step i s).idle id = false

theorem react_spares {s : Upstream} (h : s.Spares) {input : UpInput}
    (heeds : ∀ w, input = .frame w → ¬ s.Overlooks w) :
    Ends (react input s) (fun _ t => t.Spares) fun _ t => t.Spares := by
  cases input with
  | frame w =>
    unfold react
    dsimp only
    rw [ends_bind]
    exact (recvWire_spares h (heeds w rfl)).mono (fun _ _ ht => ht) fun _ _ ht => ht
  | probe =>
    refine triple_iff_ends.mp (?_ : ⦃fun s => ⌜s.Spares⌝⦄ (react .probe : UpM Next) ⦃Sparing⦄) s h
    mvcgen [react, probeTimer, onCore]
    exact fun no => (by cases no)
  | message m =>
    refine triple_iff_ends.mp
      (?_ : ⦃fun s => ⌜s.Spares⌝⦄ (react (.message m) : UpM Next) ⦃Sparing⦄) s h
    mvcgen [react]
  | pump =>
    refine triple_iff_ends.mp (?_ : ⦃fun s => ⌜s.Spares⌝⦄ (react .pump : UpM Next) ⦃Sparing⦄) s h
    mvcgen [react, pumpOutbound]
  | _ => exact h

/-- Every stream that was reset is ours. -/
def Ours (s : Upstream) : Prop := ∀ o ∈ s.log, ∀ id, o.resets id → s.streams.ours id

theorem Ours.grow {s t : Upstream} (h : s.Ours) (streams : t.streams = s.streams)
    {added : List UpObs} (log : t.log = s.log ++ added)
    (silent : ∀ o ∈ added, ∀ id, o.resets id = false) : t.Ours := by
  intro o ho id resets
  rw [log] at ho
  rw [streams]
  obtain ho | ho := List.mem_append.mp ho
  · exact h o ho id resets
  · rw [silent o ho id] at resets
    cases resets

theorem conclude_ours {s : Upstream} (stop : Stop) (h : s.Ours) : (conclude stop s).Ours := by
  have told : ∀ t : Upstream, t.Ours → ({ t.failAllRoutes with stop := some stop } : Upstream).Ours := by
    intro t ht
    refine ht.grow rfl (List.append_assoc ..) fun o ho id => ?_
    obtain ho | ho := List.mem_append.mp ho
    · obtain ⟨p, -, rfl⟩ := List.mem_map.mp ho
      rfl
    · obtain ⟨r, -, rfl⟩ := List.mem_map.mp ho
      rfl
  unfold conclude queueFrame queueFields
  cases stop with
  | quiet => exact told s h
  | failed e =>
    dsimp only
    cases (Frame.goAway s.streams.highestLocalId e.code (ascii e.debug)).write with
    | error e' => exact told s h
    | ok octets => exact told _ (h.grow rfl rfl fun o ho id => List.mem_singleton.mp ho ▸ rfl)

/-- In a run in which no frame is overlooked. -/
structure Minded (s : Upstream) : Prop where
  spares : s.stop = none → s.Spares
  ours : s.Ours

theorem Fresh.minded {s : Upstream} (h : Fresh s) : s.Minded := by
  obtain ⟨tuning, idle, timeout, now, -, -, rfl⟩ := h
  have silent : ∀ o ∈ (start tuning idle timeout now).log, ∀ id, o.resets id = false := by
    intro o ho id
    obtain rfl | ho := List.mem_cons.mp ho
    · rfl
    · obtain rfl := List.mem_singleton.mp ho
      rfl
  have ours : (start tuning idle timeout now).Ours := by
    intro o ho id resets
    rw [silent o ho id] at resets
    cases resets
  exact ⟨fun _ => ⟨fun _ live => (by cases live), ours, rfl⟩, ours⟩

theorem Minded.step {s : Upstream} (h : s.Minded) {i : Instant × UpInput} (heeds : s.Heeds i) :
    (step i s).Minded := by
  obtain ⟨now, input⟩ := i
  unfold Upstream.step
  split
  · rename_i stopped
    have stays : ∀ t : Upstream, t.stop = s.stop → t.Ours → t.Minded := by
      refine fun t same ours => ⟨fun running => ?_, ours⟩
      rw [← same, running] at stopped
      cases stopped
    dsimp only
    split
    · rename_i message
      cases message with
      | request =>
        exact stays _ rfl (h.ours.grow rfl rfl fun o ho id => List.mem_singleton.mp ho ▸ rfl)
      | _ => exact h
    · exact h
  · rename_i running
    have running : s.stop = none := Option.not_isSome_iff_eq_none.mp running
    have kept := react_spares (s := { s with now }) (h.spares running) (heeds running)
    dsimp only
    generalize react input { s with now } = res at kept
    cases res with
    | ok next t =>
      have kept : t.Spares := kept
      cases next with
      | continue_ => exact ⟨fun _ => kept, kept.reset⟩
      | close => exact ⟨fun no => (by cases no), conclude_ours .quiet kept.reset⟩
    | error e t =>
      have kept : t.Spares := kept
      exact ⟨fun no => (by cases no), conclude_ours (.failed e) kept.reset⟩

/-- What a frame on an idle stream does. -/
theorem Minded.idle {s : Upstream} (h : s.Minded) (running : s.stop = none) (now : Instant)
    {w : WireFrame} (needs : w.needsStream) (idle : s.idle w.header.streamId) :
    (∃ e, (Upstream.step (now, .frame w) s).stop = some (.failed e)) ↔ ¬ s.Overlooks w := by
  have spares := h.spares running
  have gone : s.streams.get? w.header.streamId = none := by
    refine Option.eq_none_iff_forall_ne_some.mpr fun st live => ?_
    have ours := spares.live w.header.streamId (by rw [live]; rfl)
    unfold UpstreamCore.idle at idle
    rw [ours] at idle
    simp at idle
  have ends : Ends (react (.frame w) { s with now })
      (fun next t => next = .continue_ ∧ s.Overlooks w ∧ t.stop = none)
      fun _ _ => ¬ s.Overlooks w := by
    unfold react
    dsimp only
    rw [ends_bind]
    exact (recvWire_idle (s := { s with now }) spares needs idle gone).mono (fun _ _ ht => ⟨rfl, ht⟩)
      fun _ _ ht => ht
  have going : ¬ s.stop.isSome := by
    rw [running]
    exact fun no => (by cases no)
  unfold Upstream.step
  rw [if_neg going]
  dsimp only
  generalize react (.frame w) { s with now } = res at ends
  cases res with
  | ok next t =>
    obtain ⟨rfl, overlooked, stop⟩ := ends
    refine ⟨?_, fun heeded => absurd overlooked heeded⟩
    rintro ⟨e, failed⟩
    rw [stop] at failed
    cases failed
  | error e t => exact ⟨fun _ => ends, fun _ => ⟨e, rfl⟩⟩

/-- A step is strict exactly when its frame is not overlooked. -/
theorem strict_iff {s : Upstream} (h : s.Minded) (i : Instant × UpInput) :
    s.Strict i ↔ s.Heeds i := by
  constructor
  · intro strict running w frame overlooked
    obtain ⟨now, input⟩ := i
    obtain rfl : input = .frame w := frame
    obtain ⟨needs, idle⟩ := UpstreamCore.misses_needs overlooked.2
    exact (h.idle running now needs idle).mp (strict.fatal running w rfl needs idle) overlooked
  · intro heeds
    constructor
    · intro running w frame needs idle
      obtain ⟨now, input⟩ := i
      obtain rfl : input = .frame w := frame
      exact (h.idle running now needs idle).mpr (heeds running w rfl)
    · intro added log o ho id resets
      have ours := (h.step heeds).ours o (log ▸ List.mem_append_right _ ho) id resets
      unfold UpstreamCore.idle
      rw [ours, Bool.not_true, Bool.and_false]

/-- A run is strict exactly when no frame of it is overlooked. -/
theorem strict_run_iff {s : Upstream} (h : Fresh s) (is : List (Instant × UpInput)) :
    machine.Meets Strict s is ↔ machine.Meets Heeds s is := by
  refine Machine.Reach.meets_iff (M := machine) (fun t ht i => ?_) (.init h) is
  have minded := ht.invariant (I := Minded) (fun _ fresh => Fresh.minded fresh)
    fun _ _ minded heeds => Minded.step minded heeds
  exact strict_iff minded i

end Upstream

/-! ## Both engines -/

/-- In every run of either engine, a frame that needs a stream ends the connection on an idle one
    and no idle stream is ever reset, exactly if no frame of the run is overlooked. -/
theorem idle_frames_strict_iff {σ μ : Type} [Service σ μ] :
    (∀ s : Conn σ μ, Conn.Fresh s → ∀ is,
      (Conn.machine σ μ).Meets Conn.Strict s is ↔ (Conn.machine σ μ).Meets Conn.Heeds s is) ∧
    ∀ s : Upstream, Upstream.Fresh s → ∀ is,
      Upstream.machine.Meets Upstream.Strict s is ↔ Upstream.machine.Meets Upstream.Heeds s is :=
  ⟨fun _ fresh is => Conn.strict_run_iff fresh is, fun _ fresh is => Upstream.strict_run_iff fresh is⟩

/-- RST_STREAM on stream 5. -/
def rstFive : WireFrame := .ofParts .rstStream 0 (.new 5) [0, 0, 0, 8] (show 4 < 2 ^ 24 by decide)

/-- WINDOW_UPDATE on stream 5. -/
def updateFive (increment : UInt8) : WireFrame :=
  .ofParts .windowUpdate 0 (.new 5) [0, 0, 0, increment] (show 4 < 2 ^ 24 by decide)

/-- A connection to a backend, as the daemon opens it. -/
def toBackend : Upstream := .start (.ofEnv none none none none none) 0 0 0

theorem toBackend_fresh : toBackend.Fresh :=
  ⟨.ofEnv none none none none none, 0, 0, 0, by decide, by decide, rfl⟩

/-- A RST_STREAM from the client and credit from the backend, on a stream that nobody opened. -/
theorem idle_frames_heeded :
    (Conn.machine Echo Empty).Meets Conn.Strict (.withService (.new 4)) [(0, .frame rstFive)] ∧
      Upstream.machine.Meets Upstream.Strict toBackend [(0, .frame (updateFive 1))] := by
  have heeds : (Conn.withService (.new 4) : Conn Echo Empty).Heeds (0, .frame rstFive) := by
    intro _ w frame overlooked
    obtain rfl := ConnInput.frame.inj frame
    cases overlooked with
    | missed handled missed =>
      rw [show (Conn.withService (.new 4) : Conn Echo Empty).misses rstFive = false by
        decide +kernel] at missed
      cases missed
    | refused completes =>
      have other : ((Conn.withService (.new 4) : Conn Echo Empty).completes rstFive).isNone := by
        decide +kernel
      rw [completes] at other
      cases other
  have heeds' : toBackend.Heeds (0, .frame (updateFive 1)) := by
    intro _ w frame overlooked
    obtain rfl := UpInput.frame.inj frame
    have missed := overlooked.2
    rw [show toBackend.misses (updateFive 1) = false by decide +kernel] at missed
    cases missed
  obtain ⟨conn, up⟩ := idle_frames_strict_iff (σ := Echo) (μ := Empty)
  exact ⟨(conn _ (Conn.fresh_withService _) _).mpr ⟨heeds, trivial⟩,
    (up _ toBackend_fresh _).mpr ⟨heeds', trivial⟩⟩

/-- A zero WINDOW_UPDATE and a RST_STREAM on idle streams leave either connection running. -/
theorem idle_frames_survived :
    ¬ (∀ s : Conn Echo Empty, Conn.Fresh s → ∀ is, (Conn.machine Echo Empty).Meets Conn.Strict s is) ∧
      ¬ ∀ s : Upstream, Upstream.Fresh s → ∀ is, Upstream.machine.Meets Upstream.Strict s is := by
  constructor
  · intro all
    obtain ⟨strict, -⟩ := all _ (Conn.fresh_withService (.new 4)) [(0, .frame (updateFive 0))]
    obtain ⟨e, failed⟩ := strict.fatal rfl _ rfl (by decide +kernel) (by decide +kernel)
    have goesOn : (Conn.step (0, .frame (updateFive 0))
      (Conn.withService (.new 4) : Conn Echo Empty)).stop = none := by decide +kernel
    rw [goesOn] at failed
    cases failed
  · intro all
    obtain ⟨strict, -⟩ := all _ toBackend_fresh [(0, .frame rstFive)]
    obtain ⟨e, failed⟩ := strict.fatal rfl _ rfl (by decide +kernel) (by decide +kernel)
    have goesOn : (Upstream.step (0, .frame rstFive) toBackend).stop = none := by decide +kernel
    rw [goesOn] at failed
    cases failed

end H2Proxy
