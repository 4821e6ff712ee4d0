import H2Proxy.Up.Trail

/-
  The queue of requests that wait for a stream.

  Where requests wait, no stream may be opened: whatever frees a stream starts what waits. The
  one way to free a stream that starts nothing is a WINDOW_UPDATE that the connection answers with
  a reset, and the one way to raise the limit is a SETTINGS frame, which starts nothing either;
  `Strands` says when the two leave requests waiting beside a free stream.

  A stream that has ended its half is forgotten in the same step, so between two steps the backend
  may still send on every live stream (`Awaiting`), and no frame of ours can close one.
-/

namespace H2Proxy

/-- What we send, and what the backend sends before its end. -/
def StreamEvent.mild : StreamEvent → Bool
  | .sendHeaders _ | .sendData _ | .recvHeaders false | .recvData false => true
  | _ => false

/-- A mild event leaves the backend's half open. -/
theorem StreamState.transition_mild {state next : StreamState} {event : StreamEvent}
    (hstate : state.peerCanSend = true) (hevent : event.mild = true)
    (h : state.transition event = .ok next) :
    next.peerCanSend = true ∧ next.isClosed = false := by
  unfold StreamEvent.mild at hevent
  split at hevent
  · rename_i endStream
    cases state with
    | open_ => cases endStream <;> cases h <;> exact ⟨rfl, rfl⟩
    | halfClosedLocal => cases h
    | _ => cases hstate
  · rename_i endStream
    cases state with
    | open_ => cases endStream <;> cases h <;> exact ⟨rfl, rfl⟩
    | halfClosedLocal => cases h
    | _ => cases hstate
  · cases state <;> cases h <;> exact ⟨rfl, rfl⟩
  · cases state <;> cases h <;> exact ⟨rfl, rfl⟩
  · cases hevent

namespace Upstream

open scoped List

variable {s t u : Upstream} {α β : Type}

/-- Where requests wait, no stream may be opened. -/
def Settled (s : Upstream) : Prop := s.pending ≠ [] → s.streams.canOpenLocal = false

/-- The backend may still send on every live stream, but perhaps on one. -/
def AwaitingBut (except : StreamId) (s : Upstream) : Prop :=
  ∀ id st, id ≠ except → s.streams.get? id = some st → st.state.peerCanSend = true

/-- The backend may still send on every live stream. -/
def Awaiting (s : Upstream) : Prop :=
  ∀ id st, s.streams.get? id = some st → st.state.peerCanSend = true

theorem Awaiting.but (h : s.Awaiting) (id : StreamId) : s.AwaitingBut id :=
  fun id' st _ => h id' st

/-- What is counted, and every head that waits fits a frame. -/
structure FittedBut (due : Option Frame) (s : Upstream) : Prop extends CountedBut due s where
  fits : ∀ p ∈ s.pending, p.head.fits = true

abbrev Fitted (s : Upstream) : Prop := s.FittedBut none

/-- Where no other request comes to wait, the heads that wait go on fitting. -/
theorem fits_of_waiting (h : t.waiting <+ s.waiting)
    (fits : ∀ p ∈ s.pending, p.head.fits = true) : ∀ p ∈ t.pending, p.head.fits = true := by
  intro p hp
  obtain ⟨p', hp', heq⟩ := List.mem_map.mp (h.mem (List.mem_map_of_mem hp))
  have hhead : p'.head = p.head := by
    unfold Pending.asked at heq
    cases p
    cases p'
    simp_all
  rw [← hhead]
  exact fits p' hp'

theorem FittedBut.tracked {due : Option Frame} (h : s.FittedBut due)
    (ht : Tracks s (· <+ s.waiting) t) : t.Fitted := by
  obtain ⟨os, -, hsub⟩ := ht.trail
  exact ⟨ht.counted, fits_of_waiting ((List.sublist_append_right _ _).trans hsub) h.fits⟩

structure WellBut (due : Option Frame) (s : Upstream) : Prop where
  counted : s.FittedBut due
  awaiting : s.Awaiting
  settled : s.Settled

abbrev Well (s : Upstream) : Prop := s.WellBut none

/-! ## The frames that start nothing -/

/-- The table under the limit of new settings. -/
def limited (s : Upstream) (params : List (UInt16 × UInt32)) : StreamTable :=
  match (s.peerSettings.apply params).1.maxConcurrentStreams with
  | some max => { s.streams with maxConcurrent := max }
  | none => s.streams

/-- How far new settings move the streams' windows. -/
def shift (s : Upstream) (params : List (UInt16 × UInt32)) : Int :=
  (s.peerSettings.apply params).1.initialWindowSize - s.peerSettings.initialWindowSize

/-- Whether new settings are taken. -/
def adopts (s : Upstream) (params : List (UInt16 × UInt32)) : Bool :=
  (s.peerSettings.apply params).2.isOk &&
    (s.shift params = 0 || (s.streams.applyInitialWindowDelta (s.shift params)).2.isOk)

/-- After the frame a stream may be opened, and nothing was started. -/
def strands (s : Upstream) : Frame → Bool
  | .windowUpdate id increment =>
    (s.streams.get? id).any (spoils id increment) && (s.streams.retire id).canOpenLocal
  | .settings false params => s.adopts params && (s.limited params).canOpenLocal
  | _ => false

theorem strands_settings (s : Upstream) (params : List (UInt16 × UInt32)) :
    s.strands (.settings false params) = (s.adopts params && (s.limited params).canOpenLocal) := rfl

theorem strands_windowUpdate (s : Upstream) (id : StreamId) (increment : Nat) :
    s.strands (.windowUpdate id increment) =
      ((s.streams.get? id).any (spoils id increment) && (s.streams.retire id).canOpenLocal) := rfl

/-- A frame comes that leaves requests waiting beside a free stream. -/
def Strands (s : Upstream) : UpInput → Bool
  | .frame w => s.pending ≠ [] && (s.handled w).any s.strands
  | _ => false

/-! ## What changes neither queue nor streams -/

/-- The streams stand where they stood, and as many requests wait. -/
structure Level (s t : Upstream) : Prop where
  states : ∀ id, (t.streams.get? id).map (·.state) = (s.streams.get? id).map (·.state)
  canOpen : t.streams.canOpenLocal = s.streams.canOpenLocal
  pending : t.pending.length = s.pending.length

instance : Std.Refl Level where
  refl _ := ⟨fun _ => rfl, rfl, rfl⟩

instance : IsTrans Upstream Level where
  trans _ _ _ h h' := ⟨fun id => (h'.states id).trans (h.states id), h'.canOpen.trans h.canOpen,
    h'.pending.trans h.pending⟩

namespace Level

theorem same (hstreams : t.streams = s.streams) (hpending : t.pending = s.pending) :
    Level s t :=
  ⟨fun id => by rw [hstreams], by rw [hstreams], by rw [hpending]⟩

theorem modifyStream (id : StreamId) (f : Stream → Stream)
    (h : ∀ st, s.streams.get? id = some st → (f st).state = st.state) :
    Level s (s.withCore (s.toUpstreamCore.modifyStream id f)) := by
  refine ⟨fun id' => ?_, StreamTable.canOpenLocal_modify _ _ _, rfl⟩
  show ((s.streams.modify id f).get? id').map _ = _
  rw [StreamTable.get?_modify]
  split
  · rename_i heq
    rw [heq]
    cases hid : s.streams.get? id with
    | none => rfl
    | some st => exact congrArg some (h st hid)
  · rfl

theorem modifyPending (request : RequestId) (f : Pending → Pending) :
    Level s (s.withCore (s.toUpstreamCore.modifyPending request f)) := by
  refine ⟨fun _ => rfl, rfl, ?_⟩
  exact List.length_replaceF

theorem was (h : Level s t) {id : StreamId} {st : Stream} (hid : t.streams.get? id = some st) :
    ∃ st', s.streams.get? id = some st' ∧ st.state = st'.state := by
  have hstate := h.states id
  rw [hid] at hstate
  cases hold : s.streams.get? id with
  | none =>
    rw [hold] at hstate
    cases hstate
  | some st' =>
    rw [hold] at hstate
    exact ⟨st', rfl, Option.some.inj hstate⟩

theorem awaiting (h : Level s t) (hs : s.Awaiting) : t.Awaiting := by
  intro id st hid
  obtain ⟨st', hold, hstate⟩ := h.was hid
  rw [hstate]
  exact hs id st' hold

theorem awaitingBut {except : StreamId} (h : Level s t) (hs : s.AwaitingBut except) :
    t.AwaitingBut except := by
  intro id st hne hid
  obtain ⟨st', hold, hstate⟩ := h.was hid
  rw [hstate]
  exact hs id st' hne hold

theorem settled (h : Level s t) (hs : s.Settled) : t.Settled := by
  intro hp
  rw [h.canOpen]
  refine hs fun hnil => hp ?_
  rw [← List.length_eq_zero_iff, h.pending, hnil]
  rfl

end Level

theorem level_modify {f : Upstream → Upstream} (hstreams : (f s).streams = s.streams)
    (hpending : (f s).pending = s.pending) :
    Follows Level s ((modify f : UpM Unit) s) := Level.same hstreams hpending

theorem level_onCore {f : UpstreamCore → UpstreamCore}
    (hstreams : (f s.toUpstreamCore).streams = s.streams)
    (hpending : (f s.toUpstreamCore).pending = s.pending) :
    Follows Level s (onCore f s) := Level.same hstreams hpending

theorem level_modifyStream (id : StreamId) (f : Stream → Stream)
    (h : ∀ st, s.streams.get? id = some st → (f st).state = st.state) :
    Follows Level s (onCore (.modifyStream id f) s) := Level.modifyStream id f h

theorem level_modifyPending (request : RequestId) (f : Pending → Pending) :
    Follows Level s (onCore (.modifyPending request f) s) := Level.modifyPending request f

theorem tell_level (s : Upstream) (request : RequestId) (events : Events) (event : ServiceEvent) :
    Follows Level s (tell request events event s) := level_onCore rfl rfl

theorem queueFields_level (s : Upstream) (frame : Frame) (fields : List Header) :
    Follows Level s (queueFields frame fields s) := by
  unfold queueFields
  cases frame.write with
  | error e => exact .throw _
  | ok octets => exact .get (.bind (level_onCore rfl rfl) fun _ t _ => level_modify rfl rfl)

theorem queueFrame_level (s : Upstream) (frame : Frame) : Follows Level s (queueFrame frame s) :=
  queueFields_level s frame []

theorem queueHeaders_level (s : Upstream) (id : StreamId) (fields : List Header)
    (endStream : Bool) : Follows Level s (queueHeaders id fields endStream s) := by
  refine .get (.bind (level_onCore rfl rfl) fun _ t _ => ?_)
  exact .bind (level_modify rfl rfl) fun _ u _ => queueFields_level u _ _

theorem enqueueReady_ends (s : Upstream) (id : StreamId) :
    Ends (enqueueReady id s) (fun _ => Level s) fun _ _ => False := by
  unfold enqueueReady
  rw [ends_bind, ends_get]
  cases s.streams.get? id with
  | none => exact Std.Refl.refl s
  | some stream =>
    rw [ends_ite]
    refine ⟨fun _ => Std.Refl.refl s, fun _ => ?_⟩
    rw [ends_bind, ends_onCore, ends_modify]
    have hlevel : Level s _ := .modifyStream id ({ · with queued := true }) fun _ _ => rfl
    exact ⟨hlevel.states, hlevel.canOpen, hlevel.pending⟩

theorem enqueueReady_level (s : Upstream) (id : StreamId) :
    Follows Level s (enqueueReady id s) := (enqueueReady_ends s id).ok fun _ _ h => h

theorem releaseConnWindow_level (s : Upstream) (len : Nat) :
    Follows Level s (releaseConnWindow len s) := by
  refine .get ?_
  rcases s.connRecvWindow.release len with ⟨window, increment⟩
  refine .bind (level_onCore rfl rfl) fun _ t _ => ?_
  cases increment with
  | none => exact .pure _
  | some increment => exact queueFrame_level t _

theorem releaseStream_level (s : Upstream) (id : StreamId) (n : Nat) :
    Follows Level s (releaseStream id n s) := by
  refine .get ?_
  cases s.streams.get? id with
  | none => exact .pure _
  | some stream =>
    dsimp only
    rcases stream.recvWindow.release n with ⟨window, increment⟩
    refine .bind (level_modifyStream id _ fun _ _ => rfl) fun _ t _ => ?_
    cases increment with
    | none => exact .pure _
    | some increment => exact queueFrame_level t _

theorem release_level (s : Upstream) (id : StreamId) (n : Nat) :
    Follows Level s (release id n s) := by
  refine .ite (fun _ => .pure _) fun _ => .bind (level_onCore rfl rfl) fun _ t _ => ?_
  exact .bind (releaseStream_level t id n) fun _ u _ => releaseConnWindow_level u n

theorem sendWaiting_ends (s : Upstream) (p : Pending) (id : StreamId) :
    Ends (sendWaiting p id s) (fun _ => Level s) fun _ _ => False := by
  unfold sendWaiting
  rw [ends_bind, ends_onCore]
  refine (enqueueReady_ends _ id).mono (fun _ t ht => ?_) fun _ _ h => h
  refine IsTrans.trans _ _ _ ?_ ht
  exact .modifyStream id _ fun _ _ => rfl

theorem spend_level (s : Upstream) (id : StreamId) (stream : Stream) (len : Nat) :
    Follows Level s (spend id stream len s) := by
  refine .ite (fun _ => ?_) fun _ => .pure _
  cases stream.sendWindow.consume len with
  | error code => exact .throw _
  | ok window =>
    refine .bind (level_modifyStream id _ fun _ _ => rfl) fun _ t _ => .get ?_
    cases t.connSendWindow.consume len with
    | error code => exact .throw _
    | ok window => exact level_modify rfl rfl

theorem reportAccepted_level (s : Upstream) (id : StreamId) (len : Nat) :
    Follows Level s (reportAccepted id len s) := by
  refine .get ?_
  cases s.routes.lookup id with
  | none => exact .pure _
  | some route => exact .ite (fun _ => tell_level s _ _ _) fun _ => .pure _

theorem requeue_level (s : Upstream) (ids : List StreamId) : Follows Level s (requeue ids s) := by
  induction ids generalizing s with
  | nil => exact .pure _
  | cons id ids ih => exact .bind (level_modifyStream id _ fun _ _ => rfl) fun _ t _ => ih t

/-! ## What frees streams -/

/-- Whatever the program does, it ends well or with an error. -/
abbrev Fares (r : EStateM.Result ConnectionError Upstream α) : Prop :=
  Ends r (fun _ => Well) fun _ _ => True

theorem Fares.bind {x : UpM β} {f : β → UpM α} (hx : Fares (x s))
    (hf : ∀ b t, t.Well → Fares (f b t)) : Fares ((x >>= f) s) := by
  rw [Fares, ends_bind]
  exact hx.mono hf fun _ _ h => h

theorem Fares.ite {c : Prop} [Decidable c] {x y : UpM α} (hx : c → Fares (x s))
    (hy : ¬c → Fares (y s)) : Fares ((if c then x else y) s) :=
  ends_ite.mpr ⟨hx, hy⟩

theorem Well.still (h : s.Well) (ht : Tracked s t) (hl : Level s t) : t.Well :=
  ⟨h.counted.tracked (ht h.counted.toCountedBut), hl.awaiting h.awaiting, hl.settled h.settled⟩

theorem Well.fares (h : s.Well) {r : EStateM.Result ConnectionError Upstream α}
    (ht : Follows Tracked s r) (hl : Follows Level s r) : Fares r :=
  (Ends.and ht hl).mono (fun _ _ hu => h.still hu.1 hu.2) fun _ _ _ => trivial

/-- Only one stream may have heard its end. -/
structure Nearly (id : StreamId) (s : Upstream) : Prop where
  counted : s.Fitted
  but : s.AwaitingBut id

theorem Nearly.still {id : StreamId} (h : s.Nearly id) (ht : Tracked s t) (hl : Level s t) :
    t.Nearly id :=
  ⟨h.counted.tracked (ht h.counted.toCountedBut), hl.awaitingBut h.but⟩

theorem Well.nearly (h : s.Well) (id : StreamId) : s.Nearly id := ⟨h.counted, h.awaiting.but id⟩

/-- A stream goes that may have heard its end. -/
theorem Nearly.retire {id : StreamId} (h : s.Nearly id) (ready : List StreamId) :
    Fitted { s with toUpstreamCore := s.toUpstreamCore.retire id, ready } ∧
      Awaiting { s with toUpstreamCore := s.toUpstreamCore.retire id, ready } := by
  have hcounted := h.counted.tracked ((Unmoved.retire id).tracked h.counted.toCountedBut)
  refine ⟨⟨⟨hcounted.limit, hcounted.next, hcounted.below, hcounted.heard⟩, hcounted.fits⟩, fun id' st hid => ?_⟩
  change (s.streams.retire id).get? id' = some st at hid
  rw [StreamTable.get?_retire] at hid
  split at hid
  · cases hid
  · rename_i hne
    exact h.but id' st hne hid

/-! ## Starting what waits -/

section Starting

variable (drain : UpM Unit)

/-- An event that closes nothing forgets nothing. -/
theorem applyStreamEventWith_of_ok {id : StreamId} {event : StreamEvent} {next : StreamState}
    (h : (s.streams.apply id event).2 = .ok next) (hopen : next.isClosed = false) :
    applyStreamEventWith drain id event s = .ok () (s.withCore
      { s.toUpstreamCore with streams := (s.streams.apply id event).1 }) := by
  unfold applyStreamEventWith
  show (EStateM.bind _ _ _) = _
  unfold EStateM.bind
  dsimp only [get, getThe, MonadStateOf.get, EStateM.get]
  generalize s.streams.apply id event = r at h
  obtain ⟨streams, result⟩ := r
  dsimp only at h ⊢
  rw [h]
  dsimp only
  rw [hopen]
  rfl

/-- A head that fits is queued without fail. -/
theorem queueHeaders_fits (s : Upstream) (id : StreamId) {head : RequestHead} (endStream : Bool)
    (hfits : head.fits = true) :
    Ends (queueHeaders id head.toHeaders endStream s)
      (fun _ => Announces s id head.toHeaders endStream) fun _ _ => False := by
  refine (queueHeaders_ends s id head.toHeaders endStream).mono (fun _ _ h => h) fun _ _ h => ?_
  have hlen := HpackEncoder.length_encode s.hpackEnc head.toHeaders
  have hshort : (head.toHeaders.map Header.listSize).sum + 11 ≤ maxAllowedFrameSize :=
    of_decide_eq_true hfits
  exact absurd h.2 (by omega)

/-- A request that is sent leaves the queue as it is where a stream is free, and else the
    streams. -/
theorem sendRequestWith_ends (hs : s.Counted) (ha : s.Awaiting) (request : RequestId)
    (clientId : StreamId) {head : RequestHead} (endStream : Bool) (events : Events)
    (hfits : head.fits = true) :
    Ends (sendRequestWith drain request clientId head endStream events s)
      (fun _ t => t.Awaiting ∧ (s.streams.canOpenLocal = true → t.pending = s.pending) ∧
        (s.streams.canOpenLocal = false → t.streams = s.streams) ∧
        ∀ p ∈ t.pending, p ∈ s.pending ∨ p.head = head)
      fun _ _ => False := by
  unfold sendRequestWith
  rw [ends_bind, ends_get]
  split
  · exact ⟨ha, fun _ => rfl, fun _ => rfl, fun _ => .inl⟩
  split
  · exact ⟨ha, fun _ => rfl, fun _ => rfl, fun _ => .inl⟩
  split
  · rename_i hfull
    have hfull : s.streams.canOpenLocal = false := by simpa using hfull
    have hcannot : s.streams.canOpenLocal ≠ true := by
      rw [hfull]
      exact Bool.false_ne_true
    split
    · exact ⟨ha, fun _ => rfl, fun _ => rfl, fun _ => .inl⟩
    · refine ⟨ha, fun h => absurd h hcannot, fun _ => rfl, fun p hp => ?_⟩
      obtain hp | hp := List.mem_append.mp hp
      · exact .inl hp
      · rw [List.mem_singleton.mp hp]
        exact .inr rfl
  · rename_i hcan
    have hcan : s.streams.canOpenLocal = true := by simpa using hcan
    obtain ⟨hopened, -, -⟩ := hs.openLocal hcan
    obtain ⟨-, -, -, htable⟩ := StreamTable.openLocal_ok hopened
    rw [ends_bind, ends_onCore, hopened, htable]
    dsimp only
    rw [ends_bind, ends_onCore, ends_bind, ends_onCore, ends_bind]
    refine (queueHeaders_fits _ _ endStream hfits).mono (fun _ t ht => ?_) fun _ _ h => h.elim
    have hstreams := ht.streams
    have hpending := ht.pending
    dsimp only [withCore, UpstreamCore.observe] at hstreams hpending
    have hnew : t.streams.get? (.new s.nextStreamId) =
        some (.new s.streams.initialSendWindow s.streams.initialRecvWindow) := by
      rw [hstreams, StreamTable.get?_insertNew, if_pos rfl]
    have hold : ∀ id st, id ≠ .new s.nextStreamId → t.streams.get? id = some st →
        s.streams.get? id = some st := by
      intro id st hne hid
      rwa [hstreams, StreamTable.get?_insertNew, if_neg hne] at hid
    have hopens : ((if endStream then .halfClosedLocal else .open_ : StreamState)).isClosed =
        false := by
      cases endStream <;> rfl
    have happly : (t.streams.apply (.new s.nextStreamId) (.sendHeaders endStream)).2 =
        .ok (if endStream then .halfClosedLocal else .open_) := by
      unfold StreamTable.apply
      rw [hnew]
      rfl
    rw [applyStreamEventWith_of_ok drain happly hopens]
    refine ⟨fun id st hid => ?_, fun _ => hpending, fun hfull => ?_, fun p hp => .inl (hpending ▸ hp)⟩
    · change (t.streams.apply _ _).1.get? id = some st at hid
      by_cases heq : id = .new s.nextStreamId
      · rw [StreamTable.get?_apply, if_pos heq, hnew] at hid
        have hstate : st.state = if endStream then .halfClosedLocal else .open_ := by
          simp only [Option.bind_some, Stream.new, StreamState.transition, hopens] at hid
          rw [← Option.some.inj hid]
        rw [hstate]
        cases endStream <;> rfl
      · rw [StreamTable.get?_apply_ne _ _ heq] at hid
        exact ha id st (hold id st heq hid)
    · rw [hcan] at hfull
      cases hfull

end Starting

/-- Waiting requests are started until no stream is free or none waits. -/
theorem drainPendingFrom_ends (fuel : Nat) (hs : s.Fitted) (ha : s.Awaiting)
    (hfuel : s.pending.length < fuel) :
    Ends (drainPendingFrom fuel s) (fun _ => Well) fun _ _ => False := by
  induction fuel generalizing s with
  | zero => exact absurd hfuel (Nat.not_lt_zero _)
  | succ fuel ih =>
    unfold drainPendingFrom
    rw [ends_bind, ends_get, ends_ite]
    refine ⟨fun hcan => ?_, fun hfull => ⟨hs, ha, fun _ => by simpa using hfull⟩⟩
    cases hp : s.pending with
    | nil =>
      exact ⟨⟨⟨hs.limit, hs.next, hs.below, hs.heard⟩, hs.fits⟩, ha, fun hne => absurd hp hne⟩
    | cons p pending =>
      dsimp only
      rw [ends_bind, ends_onCore, ends_bind]
      unfold syncQueued
      rw [ends_onCore]
      generalize ht : (s.withCore { s.toUpstreamCore with pending }).withCore _ = t
      have hunmoved : Unmoved s t := by
        rw [← ht]
        refine ⟨rfl, rfl, fun _ h => h, rfl, rfl, rfl, ?_, rfl⟩
        show (pending.map Pending.asked).Sublist (s.pending.map Pending.asked)
        rw [hp]
        exact List.sublist_cons_self _ _
      have hct : t.Fitted := hs.tracked (hunmoved.tracked hs.toCountedBut)
      have hat : t.Awaiting := by rw [← ht]; exact ha
      have hcant : t.streams.canOpenLocal = true := by rw [← ht]; exact hcan
      have hpt : t.pending = pending := by rw [← ht]; rfl
      have hfits : p.head.fits = true := hs.fits p (by rw [hp]; exact List.mem_cons_self)
      have hsend := Ends.and
        (sendRequestWith_ends (drainPendingFrom fuel) hct.toCountedBut hat p.request p.clientId p.endStream
          p.events hfits)
        (sendRequestWith_tracks (drainPendingFrom_tracked fuel) (q := fun _ => True)
          (fun _ _ _ _ => trivial) .refl hct.toCountedBut rfl rfl trivial (fun _ => trivial)
          fun _ => trivial)
      rw [ends_bind]
      refine hsend.mono (fun _ u hu => ?_) fun _ _ h => h.1.elim
      obtain ⟨⟨hau, hpu, -, -⟩, htracks⟩ := hu
      have hcu : u.Fitted := ⟨htracks.counted, hpu hcant ▸ hct.fits⟩
      have rest : ∀ v : Upstream, v.Fitted → v.Awaiting → v.pending.length = u.pending.length →
          Ends (drainPendingFrom fuel v) (fun _ => Well) fun _ _ => False := by
        intro v hcv hav hlen
        refine ih hcv hav ?_
        rw [hlen, hpu hcant, hpt]
        rw [hp] at hfuel
        exact Nat.lt_of_succ_lt_succ hfuel
      rw [ends_bind, ends_get]
      cases u.requests.lookup p.request with
      | none => exact rest u hcu hau rfl
      | some id =>
        dsimp only
        rw [ends_bind]
        have hwaiting := Ends.and (sendWaiting_ends u p id) (sendWaiting_tracked u p id)
        refine hwaiting.mono (fun _ v hv => ?_) fun _ _ h => h.1.elim
        exact rest v (hcu.tracked (hv.2 hcu.toCountedBut)) (hv.1.awaiting hau) hv.1.pending

theorem drainPending_ends (hs : s.Fitted) (ha : s.Awaiting) :
    Ends (drainPending s) (fun _ => Well) fun _ _ => False :=
  drainPendingFrom_ends _ hs ha (Nat.lt_succ_self _)

/-- Forgetting a stream starts what waits. -/
theorem forget_ends {id : StreamId} (h : s.Nearly id) :
    Ends (forget id s) (fun _ => Well) fun _ _ => False := by
  have rest : ∀ u : Upstream, u.Fitted → u.Awaiting →
      Ends (ignore drainPending u) (fun _ => Well) fun _ _ => False := fun u hcu hau =>
    ends_ignore.mpr ((drainPending_ends hcu hau).mono (fun _ _ h => h) fun _ _ h => h.elim)
  obtain ⟨hcu, hau⟩ := h.retire (s.ready.filter (· ≠ id))
  unfold forget forgetWith
  rw [ends_bind, ends_onCore, ends_bind, ends_unready, ends_bind, ends_get]
  have kept : (s.withCore (s.retire id)).routes = s.routes := rfl
  rw [kept]
  cases s.routes.lookup id with
  | none => exact rest _ hcu hau
  | some route =>
    dsimp only
    rw [ends_bind, ends_onCore]
    have hcv : Fitted { s with
        toUpstreamCore := { s.retire id with
          routes := s.routes.erase id, requests := s.requests.erase route.request }
        ready := s.ready.filter (· ≠ id) } :=
      ⟨⟨hcu.limit, hcu.next, hcu.below, hcu.heard⟩, hcu.fits⟩
    refine ends_ite.mpr ⟨fun _ => ?_, fun _ => rest _ hcv hau⟩
    rw [ends_bind, ends_ignore]
    refine (Ends.and (releaseConnWindow_tracked _ _) (releaseConnWindow_level _ _)).mono
      (fun _ w hw => ?_) fun _ w hw => ?_
    · exact rest w (hcv.tracked (hw.1 hcv.toCountedBut)) (hw.2.awaiting hau)
    · exact rest w (hcv.tracked (hw.1 hcv.toCountedBut)) (hw.2.awaiting hau)

/-! ## Streams that end -/

/-- A small frame is queued without fail. -/
theorem queueFrame_ends (s : Upstream) {frame : Frame}
    (h : frame.payloadLen ≤ maxAllowedFrameSize) :
    Ends (queueFrame frame s) (fun _ => Level s) fun _ _ => False := by
  obtain ⟨octets, hwrite, -⟩ := Frame.write_of_le h
  unfold queueFrame queueFields
  rw [hwrite]
  exact .same rfl rfl

theorem writeRstStream_ends {id : StreamId} (h : s.Nearly id) (code : ErrorCode) :
    Ends (writeRstStream id code s)
      (fun _ t => t.Fitted ∧ t.Awaiting ∧ t.pending.length = s.pending.length ∧
        t.streams.canOpenLocal = (s.streams.retire id).canOpenLocal)
      fun _ _ => False := by
  unfold writeRstStream
  rw [ends_bind, ends_onCore, ends_bind, ends_unready]
  obtain ⟨hct, hat⟩ := h.retire (s.ready.filter (· ≠ id))
  have hkind : (Frame.rstStream id code).kind ≠ .headers := nofun
  have hlen : (Frame.rstStream id code).payloadLen ≤ maxAllowedFrameSize := by
    show 4 ≤ 2 ^ 24 - 1
    decide
  refine (Ends.and (queueFrame_tracked _ hkind) (queueFrame_ends _ hlen)).mono (fun _ t ht => ?_)
    fun _ _ h => h.2
  exact ⟨hct.tracked (ht.1 hct.toCountedBut), ht.2.awaiting hat, ht.2.pending, ht.2.canOpen⟩

theorem forget_fares {id : StreamId} (h : s.Nearly id) : Fares (forget id s) :=
  (forget_ends h).ok fun _ _ h => h

/-- A stream that is reset and forgotten, or only forgotten. -/
theorem reset_fares {id : StreamId} (h : s.Nearly id) (code : ErrorCode) :
    Fares ((do
      if ((← get).streams.get? id).isSome then writeRstStream id code else pure ()
      forget id : UpM Unit) s) := by
  rw [Fares, ends_bind, ends_get]
  refine ends_ite.mpr ⟨fun _ => ?_, fun _ => forget_fares h⟩
  rw [ends_bind]
  refine (writeRstStream_ends h code).mono (fun _ t ht => ?_) fun _ _ h => h.elim
  exact forget_fares ⟨ht.1, ht.2.1.but id⟩

theorem failStream_fares {id : StreamId} (h : s.Nearly id) (status : Nat) :
    Fares (failStream id status s) := by
  unfold failStream failStreamWith
  rw [Fares, ends_bind, ends_get]
  cases s.routes.lookup id with
  | none => exact reset_fares h .cancel
  | some route =>
    exact reset_fares (h.still (follows_tell s _ _ _) (tell_level s _ _ _)) .cancel

/-! ## Events -/

/-- What an event does to the table of a connection that is well: a mild one frees nothing, any
    other touches its own stream. -/
theorem apply_ends (h : s.Well) (id : StreamId) (event : StreamEvent) :
    Ends (applyStreamEvent id event s)
      (fun _ t => t.Nearly id ∧ (event.mild = true → t.Well)) fun _ _ => True := by
  unfold applyStreamEvent applyStreamEventWith
  rw [ends_bind, ends_get]
  have hothers : (s.withCore { s.toUpstreamCore with
      streams := (s.streams.apply id event).1 }).AwaitingBut id := by
    intro id' st hne hid
    change (s.streams.apply id event).1.get? id' = some st at hid
    rw [StreamTable.get?_apply_ne _ _ hne] at hid
    exact h.awaiting id' st hid
  have hcounted := h.counted.tracked
    ((Unmoved.apply (s := s) id event).tracked h.counted.toCountedBut)
  have hmild : ∀ next, (s.streams.apply id event).2 = .ok next →
      event.mild = true → (s.withCore { s.toUpstreamCore with
        streams := (s.streams.apply id event).1 }).Well ∧ next.isClosed = false := by
    intro next hok hevent
    have hlive : ∃ st, s.streams.get? id = some st ∧ st.state.transition event = .ok next := by
      unfold StreamTable.apply at hok
      cases hid : s.streams.get? id with
      | none => rw [hid] at hok; cases hok
      | some st =>
        refine ⟨st, rfl, ?_⟩
        rw [hid] at hok
        dsimp only at hok
        cases htr : st.state.transition event with
        | error code => rw [htr] at hok; cases hok
        | ok next' =>
          rw [htr] at hok
          exact congrArg _ (Except.ok.inj hok)
    obtain ⟨st, hid, htr⟩ := hlive
    obtain ⟨hpeer, hopen⟩ := StreamState.transition_mild (h.awaiting id st hid) hevent htr
    refine ⟨⟨hcounted, fun id' st' hid' => ?_, fun hp => ?_⟩, hopen⟩
    · by_cases heq : id' = id
      · change (s.streams.apply id event).1.get? id' = some st' at hid'
        rw [StreamTable.get?_apply, if_pos heq, hid, Option.bind_some, htr] at hid'
        dsimp only at hid'
        rw [if_neg (by rw [hopen]; exact Bool.false_ne_true)] at hid'
        rw [← Option.some.inj hid']
        exact hpeer
      · exact hothers id' st' heq hid'
    · show (s.streams.apply id event).1.canOpenLocal = false
      rw [StreamTable.canOpenLocal_apply hok hopen]
      exact h.settled hp
  have herror : ∀ e, (s.streams.apply id event).2 = .error e → (s.withCore { s.toUpstreamCore with
      streams := (s.streams.apply id event).1 }).Well := by
    intro e he
    have hsame := StreamTable.apply_error he
    rw [hsame]
    exact ⟨⟨⟨h.counted.limit, h.counted.next, h.counted.below, h.counted.heard⟩, h.counted.fits⟩,
      h.awaiting, h.settled⟩
  generalize s.streams.apply id event = r at hothers hcounted hmild herror
  obtain ⟨streams, result⟩ := r
  dsimp only at hothers hcounted hmild herror ⊢
  rw [ends_bind, ends_onCore]
  cases result with
  | ok next =>
    refine ends_ite.mpr ⟨fun hclosed => ?_, fun _ => ⟨⟨hcounted, hothers⟩, fun hevent =>
      (hmild next rfl hevent).1⟩⟩
    refine ⟨⟨⟨⟨hcounted.limit, hcounted.next, hcounted.below, hcounted.heard⟩, hcounted.fits⟩,
      hothers⟩, fun hevent => ?_⟩
    rw [(hmild next rfl hevent).2] at hclosed
    cases hclosed
  | error e =>
    refine ends_ite.mpr ⟨fun _ => trivial, fun _ => ?_⟩
    exact (failStream_fares ((herror e rfl).nearly id) 502).mono
      (fun _ t ht => ⟨ht.nearly id, fun _ => ht⟩) fun _ _ h => h

theorem applyStreamEvent_fares (h : s.Well) (id : StreamId) {event : StreamEvent}
    (hevent : event.mild = true) : Fares (applyStreamEvent id event s) :=
  (apply_ends h id event).mono (fun _ _ ht => ht.2 hevent) fun _ _ h => h

/-- What the backend sends, and what is done where it was the end. -/
theorem heard_fares (h : s.Well) (id : StreamId) (event : Bool → StreamEvent)
    (hevent : (event false).mild = true) (endStream : Bool) :
    Fares ((do
      applyStreamEvent id (event endStream)
      if endStream then forget id else pure () : UpM Unit) s) := by
  rw [Fares, ends_bind]
  refine (apply_ends h id (event endStream)).mono (fun _ t ht => ?_) fun _ _ h => h
  cases endStream with
  | true => exact forget_fares ht.1
  | false => exact ht.2 hevent

/-! ## Messages -/

/-- A request that comes joins the queue only where no stream is free. -/
theorem sendRequest_fares (h : s.Well) {request : RequestId} {clientId : StreamId}
    {head : RequestHead} {endStream : Bool} {events : Events} (hfits : head.fits = true) :
    Fares (sendRequest request clientId head endStream events s) := by
  have hsend := Ends.and
    (sendRequestWith_ends drainPending h.counted.toCountedBut h.awaiting request clientId endStream events
      hfits)
    (sendRequestWith_tracks drainPending_tracked (q := fun _ => True) (fun _ _ _ _ => trivial) .refl
      h.counted.toCountedBut rfl rfl trivial (fun _ => trivial) fun _ => trivial)
  refine hsend.mono (fun _ t ht => ?_) fun _ _ _ => trivial
  obtain ⟨⟨hawaiting, hfree, hfull, hheads⟩, htracks⟩ := ht
  have hfits' : ∀ p ∈ t.pending, p.head.fits = true := by
    intro p hp
    obtain hold | hnew := hheads p hp
    · exact h.counted.fits p hold
    · rw [hnew]
      exact hfits
  refine ⟨⟨htracks.counted, hfits'⟩, hawaiting, fun hp => ?_⟩
  cases hcan : s.streams.canOpenLocal with
  | true =>
    rw [hfree hcan] at hp
    rw [h.settled hp] at hcan
    cases hcan
  | false =>
    rw [hfull hcan]
    exact hcan

theorem handleMessage_fares (h : s.Well) {m : ToUpstream} (hfits : (UpInput.message m).fits = true) :
    Fares (handleMessage m s) := by
  unfold handleMessage
  rw [Fares, ends_bind, ends_onCore]
  have hb : (s.withCore (s.toUpstreamCore.observe (.took m))).Well :=
    ⟨⟨⟨h.counted.limit, h.counted.next, h.counted.below, h.counted.quiet (.one rfl)⟩, h.counted.fits⟩, h.awaiting, h.settled⟩
  generalize s.withCore (s.toUpstreamCore.observe (.took m)) = b at hb
  cases m with
  | request id clientId head endStream events => exact sendRequest_fares hb hfits
  | body request data endStream =>
    rw [ends_bind, ends_get]
    cases b.requests.lookup request with
    | none =>
      exact hb.fares (follows_onCore (.modifyPending request _ fun _ => rfl))
        (level_modifyPending request _)
    | some id =>
      exact hb.fares (.bind (follows_onCore (.modifyStream id _)) fun _ t _ =>
        enqueueReady_tracked t id) (.bind (level_modifyStream id _ fun _ _ => rfl) fun _ t _ =>
        enqueueReady_level t id)
  | trailers request fields =>
    rw [ends_bind, ends_get]
    cases b.requests.lookup request with
    | none =>
      exact hb.fares (follows_onCore (.modifyPending request _ fun _ => rfl))
        (level_modifyPending request _)
    | some id =>
      exact hb.fares (.bind (follows_onCore (.modifyStream id _)) fun _ t _ =>
        enqueueReady_tracked t id) (.bind (level_modifyStream id _ fun _ _ => rfl) fun _ t _ =>
        enqueueReady_level t id)
  | released request n =>
    rw [ends_bind, ends_get]
    cases b.requests.lookup request with
    | none => exact hb
    | some id => exact hb.fares (release_tracked b id n) (release_level b id n)
  | cancel request code =>
    rw [ends_bind, ends_get]
    cases b.requests.lookup request with
    | none =>
      dsimp only
      rw [ends_bind, ends_onCore, ends_bind]
      unfold syncQueued
      rw [ends_onCore, ends_onCore]
      have hfewer : Unmoved b (b.withCore { b.toUpstreamCore with
          pending := b.pending.filter (·.request ≠ request) }) :=
        .pending (List.filter_sublist.map _)
      have hcounted := hb.counted.tracked (hfewer.tracked hb.counted.toCountedBut)
      refine ⟨⟨⟨hcounted.limit, hcounted.next, hcounted.below, hcounted.heard⟩, hcounted.fits⟩,
        hb.awaiting, fun hp => hb.settled fun hnil => hp ?_⟩
      show b.pending.filter _ = []
      rw [hnil]
      rfl
    | some id => exact reset_fares (hb.nearly id) code

/-! ## Frames -/

theorem recvResponse_fares (h : s.Well) (id : StreamId) (headers : List Header)
    (endStream : Bool) : Fares (recvResponse id headers endStream s) := by
  have finish : ∀ t : Upstream, t.Well → Fares ((do
      applyStreamEvent id (.recvHeaders endStream)
      if endStream then forget id else pure () : UpM Unit) t) := fun t ht =>
    heard_fares ht id .recvHeaders rfl endStream
  have told : ∀ t : Upstream, t.Well → ∀ request events event,
      Fares (tell request events event t) := fun t ht _ _ _ =>
    ht.fares (follows_tell t _ _ _) (tell_level t _ _ _)
  have routed : ∀ route : Route, Fares (passSection id headers endStream route s) := by
    refine fun route => .ite (fun _ => ?_) fun _ => ?_
    · cases validateTrailers headers with
      | error => exact finish s h
      | ok => exact .bind (told s h _ _ _) fun _ t ht => finish t ht
    · cases ResponseHead.fromHeaders headers with
      | error => exact failStream_fares (h.nearly id) 502
      | ok head =>
        refine .ite (fun _ => applyStreamEvent_fares h id rfl) fun _ => ?_
        refine .bind (h.fares (follows_onCore (.same rfl rfl rfl rfl rfl rfl))
          (level_onCore rfl rfl)) fun _ t ht => ?_
        exact .bind (told t ht _ _ _) fun _ u hu => finish u hu
  unfold recvResponse
  rw [Fares, ends_bind, ends_get]
  cases s.streams.lookup id with
  | idle => trivial
  | closed | live =>
    cases s.routes.lookup id with
    | none => exact h
    | some route => exact routed route

theorem readHeaderBlock_fares (h : s.Well) (id : StreamId) (fragment : Bytes)
    (endHeaders : Bool) : Fares (readHeaderBlock id fragment endHeaders s) := by
  have kept : ∀ (t : Upstream) (f : Upstream → Upstream), t.Well → (f t).streams = t.streams →
      (f t).pending = t.pending → (f t).nextStreamId = t.nextStreamId →
      (f t).peerSettings = t.peerSettings → (f t).peerDraining = t.peerDraining →
      (f t).log = t.log → (f t).Well := fun t f ht h1 h2 h3 h4 h5 h6 =>
    ht.still (Unmoved.same h1 h2 h3 h4 h5 h6).tracked (.same h1 h2)
  unfold readHeaderBlock
  rw [Fares, ends_bind, ends_get]
  refine ends_ite.mpr ⟨fun _ => trivial, fun _ => ends_ite.mpr ⟨fun _ => ?_, fun _ => ?_⟩⟩
  · exact kept s ({ · with headerBlock := _ }) h rfl rfl rfl rfl rfl rfl
  · rw [ends_bind, ends_modify, ends_bind, ends_get]
    have ht := kept s ({ · with headerBlock := [] }) h rfl rfl rfl rfl rfl rfl
    generalize ({ s with headerBlock := [] } : Upstream) = t at ht
    rcases t.hpackDec.decode (s.headerBlock ++ fragment) with ⟨hpackDec, result⟩
    dsimp only
    rw [ends_bind, ends_modify]
    have hu := kept t ({ · with hpackDec }) ht rfl rfl rfl rfl rfl rfl
    cases result with
    | ok headers => exact recvResponse_fares hu id headers _
    | error e =>
      cases e with
      | headerListTooLarge => exact failStream_fares (hu.nearly id) 502
      | _ => trivial

theorem recvData_fares (h : s.Well) (id : StreamId) (data : Bytes) (endStream : Bool) :
    Fares (recvData id data endStream s) := by
  have finish : ∀ t : Upstream, t.Well → Fares ((do
      applyStreamEvent id (.recvData endStream)
      if endStream then forget id else pure () : UpM Unit) t) := fun t ht =>
    heard_fares ht id .recvData rfl endStream
  unfold recvData
  rw [Fares, ends_bind, ends_get]
  cases s.connRecvWindow.record data.length with
  | error code => trivial
  | ok window =>
    refine Fares.bind (h.fares (follows_onCore (.same rfl rfl rfl rfl rfl rfl))
      (level_onCore rfl rfl)) fun _ t ht => ?_
    rw [Fares, ends_bind, ends_get]
    cases t.streams.lookup id with
    | idle => trivial
    | closed => exact ht.fares (releaseConnWindow_tracked t _) (releaseConnWindow_level t _)
    | live stream =>
      dsimp only
      cases stream.recvWindow.record data.length with
      | error =>
        dsimp only
        rw [ends_bind]
        refine (writeRstStream_ends (ht.nearly id) _).mono (fun _ u hu => ?_) fun _ _ h => h.elim
        exact failStream_fares ⟨hu.1, hu.2.1.but id⟩ 502
      | ok recvWindow =>
        refine Fares.bind (ht.fares (follows_onCore (.modifyStream id _))
          (level_modifyStream id _ fun _ _ => rfl)) fun _ u hu => ?_
        rw [Fares, ends_bind, ends_get]
        cases u.routes.lookup id with
        | none => exact finish u hu
        | some route =>
          refine Fares.bind (hu.fares (follows_onCore (.same rfl rfl rfl rfl rfl rfl))
            (level_onCore rfl rfl)) fun _ v hv => ?_
          exact .bind (hv.fares (follows_tell v _ _ _) (tell_level v _ _ _)) fun _ w hw => finish w hw

theorem recvRstStream_fares (h : s.Well) (id : StreamId) (code : ErrorCode) :
    Fares (recvRstStream id code s) := by
  unfold recvRstStream
  rw [Fares, ends_bind, ends_get]
  cases s.routes.lookup id with
  | none => exact forget_fares (h.nearly id)
  | some route =>
    exact Fares.bind (h.fares (follows_tell s _ _ _) (tell_level s _ _ _)) fun _ t ht =>
      forget_fares (ht.nearly id)

theorem beginPeerDrain_fares (h : s.Well) (last : StreamId) : Fares (beginPeerDrain last s) := by
  have abandoned : ∀ (ids : List StreamId) (t : Upstream), t.Well → Fares (abandon ids t) := by
    intro ids
    induction ids with
    | nil => exact fun t ht => ht
    | cons id ids ih =>
      intro t ht
      have rest : ∀ t : Upstream, t.Well → Fares ((do forget id; abandon ids : UpM Unit) t) :=
        fun t ht => .bind (forget_fares (ht.nearly id)) fun _ u hu => ih u hu
      unfold abandon
      rw [Fares, ends_bind, ends_get]
      cases t.routes.lookup id with
      | none => exact rest t ht
      | some route =>
        exact Fares.bind (ht.fares (follows_tell t _ _ _) (tell_level t _ _ _)) fun _ u hu =>
          rest u hu
  have refused : ∀ (ps : List Pending) (t : Upstream), t.Well → Fares (refusePending ps t) := by
    intro ps
    induction ps with
    | nil => exact fun t ht => ht
    | cons p ps ih =>
      exact fun t ht => .bind (ht.fares (follows_tell t _ _ _) (tell_level t _ _ _)) fun _ u hu =>
        ih u hu
  have rest : ∀ (t : Upstream) (ps : List Pending) (ids : List StreamId), t.Well →
      Fares ((do refusePending ps; abandon ids : UpM Unit) t) := fun t ps ids ht =>
    .bind (refused ps t ht) fun _ u hu => abandoned ids u hu
  refine rest _ s.pending (s.routes.keys.filter (last < ·)) ?_
  exact ⟨⟨⟨h.counted.limit, h.counted.next, h.counted.below, h.counted.heard⟩, fun p hp =>
    absurd hp List.not_mem_nil⟩, h.awaiting, fun hp => absurd rfl hp⟩

/-! ## The frames that start nothing, again -/

/-- Nothing was started, and where requests wait a stream is free if `room`. -/
structure Parked (room : Bool) (s t : Upstream) : Prop where
  counted : t.Fitted
  awaiting : t.Awaiting
  pending : t.pending.length = s.pending.length
  room : s.pending ≠ [] → t.streams.canOpenLocal = room

theorem Level.parked (h : Level s t) (ht : Tracked s t) (hs : s.Well) : Parked false s t :=
  ⟨hs.counted.tracked (ht hs.counted.toCountedBut), h.awaiting hs.awaiting, h.pending, fun hp =>
    h.canOpen.trans (hs.settled hp)⟩

theorem recvWindowUpdate_parked (h : s.Well) (id : StreamId) (increment : Nat) :
    Ends (recvWindowUpdate id increment s)
      (fun _ => Parked (s.strands (.windowUpdate id increment)) s)
      fun _ _ => s.strands (.windowUpdate id increment) = false := by
  -- A reset of a stream that is not live frees nothing.
  have reset : ∀ code, (∀ st, s.streams.get? id = some st → spoils id increment st = true) →
      Ends (writeRstStream id code s)
        (fun _ => Parked (s.strands (.windowUpdate id increment)) s) fun _ _ =>
          s.strands (.windowUpdate id increment) = false := by
    intro code hspoils
    refine (writeRstStream_ends (h.nearly id) code).mono (fun _ t ht => ?_) fun _ _ h => h.elim
    obtain ⟨hcounted, hawaiting, hpending, hroom⟩ := ht
    refine ⟨hcounted, hawaiting, hpending, fun hp => ?_⟩
    rw [hroom, strands_windowUpdate]
    cases hid : s.streams.get? id with
    | none =>
      rw [StreamTable.retire_of_none hid]
      exact h.settled hp
    | some st =>
      rw [Option.any_some, hspoils st hid, Bool.true_and]
  have calm : ∀ {x : UpM Unit}, s.strands (.windowUpdate id increment) = false →
      Follows Tracked s (x s) → Follows Level s (x s) → Ends (x s)
        (fun _ => Parked (s.strands (.windowUpdate id increment)) s) fun _ _ =>
          s.strands (.windowUpdate id increment) = false := by
    intro x hcalm ht hl
    rw [hcalm]
    exact (Ends.and ht hl).mono (fun _ t ht => ht.2.parked ht.1 h) fun _ _ _ => rfl
  have ofConnection : id.isConnection = true → s.strands (.windowUpdate id increment) = false := by
    intro hid
    rw [strands_windowUpdate]
    unfold spoils
    simp [hid]
  unfold recvWindowUpdate
  refine ends_ite.mpr ⟨fun hzero => ends_ite.mpr ⟨fun hid => ofConnection hid, fun hid => ?_⟩,
    fun hpos => ends_ite.mpr ⟨fun hid => ?_, fun hid => ?_⟩⟩
  · refine reset _ fun st _ => ?_
    unfold spoils
    simp [hid, hzero]
  · rw [ends_bind, ends_get]
    cases s.connSendWindow.increase increment with
    | error code => exact ofConnection hid
    | ok window =>
      exact calm (ofConnection hid) (follows_modify (.same rfl rfl rfl rfl rfl rfl))
        (level_modify rfl rfl)
  · rw [ends_bind, ends_get]
    cases hlook : s.streams.lookup id with
    | idle =>
      show s.strands _ = false
      rw [strands_windowUpdate, (StreamTable.lookup_idle hlook).1]
      rfl
    | closed =>
      refine calm ?_ (.pure _) (.pure _)
      rw [strands_windowUpdate, (StreamTable.lookup_closed hlook).1]
      rfl
    | live stream =>
      have hlive := StreamTable.lookup_live.mp hlook
      dsimp only
      cases hinc : stream.sendWindow.increase increment with
      | error code =>
        refine reset _ fun st hst => ?_
        obtain rfl : stream = st := Option.some.inj (hlive.symm.trans hst)
        unfold spoils
        simp [hinc, hid, Except.isOk, Except.toBool]
      | ok window =>
        refine calm ?_ (.bind (follows_onCore (.modifyStream id _)) fun _ t _ =>
          enqueueReady_tracked t id) (.bind (level_modifyStream id _ fun _ _ => rfl) fun _ t _ =>
          enqueueReady_level t id)
        rw [strands_windowUpdate, hlive]
        unfold spoils
        simp [hinc, hpos, Except.isOk, Except.toBool]

theorem canOpenLocal_shifted (streams : StreamTable) (delta : Int) :
    (streams.applyInitialWindowDelta delta).1.canOpenLocal = streams.canOpenLocal := by
  unfold StreamTable.canOpenLocal StreamTable.liveCount StreamTable.applyInitialWindowDelta
  rw [AList.length_updateAll]

/-- A shift of the windows leaves the streams' states. -/
theorem get?_shifted {streams : StreamTable} {delta : Int} {id : StreamId} {st : Stream}
    (h : (streams.applyInitialWindowDelta delta).1.get? id = some st) :
    ∃ st', streams.get? id = some st' ∧ st.state = st'.state := by
  unfold StreamTable.get? StreamTable.applyInitialWindowDelta at h
  rcases AList.lookup_updateAll (fun s : Stream =>
    (s.sendWindow.applyDelta delta).map fun w => { s with sendWindow := w }) streams.live id with
    ⟨st', w, hold, hmap, hnew⟩ | hsame
  · rw [hnew] at h
    obtain rfl := Option.some.inj h
    refine ⟨st', hold, ?_⟩
    cases hd : st'.sendWindow.applyDelta delta with
    | error code =>
      rw [hd] at hmap
      cases hmap
    | ok w =>
      rw [hd] at hmap
      rw [← Except.ok.inj hmap]
  · rw [hsame] at h
    exact ⟨st, h, rfl⟩

/-- New settings that are taken put their limit on the table and start nothing. -/
theorem recvSettings_room (s : Upstream) (params : List (UInt16 × UInt32)) :
    Ends (recvSettings params s)
      (fun _ t => (∀ id st, t.streams.get? id = some st →
          ∃ st', s.streams.get? id = some st' ∧ st.state = st'.state) ∧
        t.pending.length = s.pending.length ∧
        t.streams.canOpenLocal = (s.limited params).canOpenLocal ∧ s.adopts params = true)
      fun _ _ => s.adopts params = false := by
  have acked : ∀ t : Upstream, Ends (queueFrame (.settings true []) t) (fun _ => Level t)
      fun _ _ => False := fun t => queueFrame_ends t (Nat.zero_le _)
  have rest : ∀ (t : Upstream), t.streams.live = s.streams.live → t.pending = s.pending →
      t.streams.canOpenLocal = (s.limited params).canOpenLocal →
      (s.peerSettings.apply params).2.isOk = true → Ends (shiftWindows (s.shift params) t)
      (fun _ t => (∀ id st, t.streams.get? id = some st →
          ∃ st', s.streams.get? id = some st' ∧ st.state = st'.state) ∧
        t.pending.length = s.pending.length ∧
        t.streams.canOpenLocal = (s.limited params).canOpenLocal ∧ s.adopts params = true)
      fun _ _ => s.adopts params = false := by
    intro t hlive hpending hroom hok
    have hget : ∀ id, t.streams.get? id = s.streams.get? id := fun id => by
      unfold StreamTable.get?
      rw [hlive]
    refine ends_ite.mpr ⟨fun hshift => ?_, fun hshift => ?_⟩
    · have hsame : (t.streams.applyInitialWindowDelta (s.shift params)).2 =
          (s.streams.applyInitialWindowDelta (s.shift params)).2 := by
        unfold StreamTable.applyInitialWindowDelta
        rw [hlive]
      have hstates := @get?_shifted t.streams (s.shift params)
      have hopen := canOpenLocal_shifted t.streams (s.shift params)
      rw [ends_bind, ends_get]
      unfold adopts
      rw [hok, ← hsame]
      generalize t.streams.applyInitialWindowDelta (s.shift params) = r at hstates hopen
      obtain ⟨streams, shifted⟩ := r
      dsimp only at hstates hopen ⊢
      rw [ends_bind, ends_onCore]
      cases shifted with
      | error code =>
        show (true && (decide (s.shift params = 0) || false)) = false
        simpa using hshift
      | ok =>
        refine (acked _).mono (fun _ u hu => ⟨fun id st hid => ?_, hu.pending.trans ?_,
          hu.canOpen.trans (hopen.trans hroom), ?_⟩) fun _ _ h => h.elim
        · obtain ⟨st', hid', hstate⟩ := hu.was hid
          obtain ⟨st'', hid'', hstate'⟩ := hstates hid'
          rw [hget] at hid''
          exact ⟨st'', hid'', hstate.trans hstate'⟩
        · exact congrArg List.length hpending
        · simp [Except.isOk, Except.toBool]
    · refine (acked t).mono (fun _ u hu => ⟨fun id st hid => ?_, ?_, hu.canOpen.trans hroom, ?_⟩)
        fun _ _ h => h.elim
      · obtain ⟨st', hid', hstate⟩ := hu.was hid
        rw [hget] at hid'
        exact ⟨st', hid', hstate⟩
      · rw [hu.pending, hpending]
      · unfold adopts
        rw [hok]
        simpa using Or.inl (not_not.mp hshift)
  unfold recvSettings
  rw [ends_bind, ends_get, ends_bind, ends_get]
  unfold limited shift at rest
  unfold limited
  cases hr : s.peerSettings.apply params with
  | mk peerSettings applied =>
    rw [hr] at rest
    rw [ends_bind, ends_modify]
    cases applied with
    | error e =>
      show s.adopts params = false
      unfold adopts
      rw [hr]
      rfl
    | ok =>
      dsimp only at rest ⊢
      rw [ends_bind, ends_modify]
      cases hmax : peerSettings.maxConcurrentStreams with
      | some max =>
        rw [hmax] at rest
        dsimp only at rest ⊢
        rw [ends_bind, ends_onCore]
        exact rest _ rfl rfl rfl rfl
      | none =>
        rw [hmax] at rest
        exact rest _ rfl rfl rfl rfl

theorem recvSettings_parked {params : List (UInt16 × UInt32)}
    (h : s.WellBut (some (.settings false params))) :
    Ends (recvSettings params s) (fun _ => Parked (s.strands (.settings false params)) s)
      fun _ _ => s.strands (.settings false params) = false := by
  refine (Ends.and (recvSettings_ends s params) (recvSettings_room s params)).mono
    (fun _ t ht => ?_) fun _ t ht => ?_
  · obtain ⟨htracks, hstates, hpending, hroom, hadopts⟩ := ht
    refine ⟨h.counted.tracked (htracks h.counted.toCountedBut), fun id st hid => ?_, hpending, fun _ => ?_⟩
    · obtain ⟨st', hid', hstate⟩ := hstates id st hid
      rw [hstate]
      exact h.awaiting id st' hid'
    · rw [strands_settings, hadopts, Bool.true_and]
      exact hroom
  · rw [strands_settings, ht.2]
    rfl

/-! ## Steps -/

/-- The connection is well but for `room`: a free stream beside requests that wait. -/
structure Fallen (room : Bool) (t : Upstream) : Prop where
  counted : t.Fitted
  awaiting : t.Awaiting
  settled : t.Settled ↔ room = false

theorem Well.fallen (h : s.Well) : Fallen false s :=
  ⟨h.counted, h.awaiting, ⟨fun _ => rfl, fun _ => h.settled⟩⟩

theorem Fares.fallen {r : EStateM.Result ConnectionError Upstream α} (h : Fares r) {room : Bool}
    (hroom : room = false) : Ends r (fun _ => Fallen room) fun _ _ => room = false := by
  rw [hroom]
  exact Ends.mono h (fun _ _ ht => ht.fallen) fun _ _ _ => rfl

theorem Parked.fallen {room : Bool} (h : Parked room s t) :
    Fallen (s.pending ≠ [] && room) t := by
  refine ⟨h.counted, h.awaiting, ?_⟩
  have hnil : t.pending = [] ↔ s.pending = [] := by
    rw [← List.length_eq_zero_iff, h.pending, List.length_eq_zero_iff]
  unfold Settled
  rw [Ne, hnil]
  by_cases hp : s.pending = []
  · simp [hp]
  · rw [h.room hp]
    simp [hp]

theorem WellBut.acted {frame : Frame} (h : s.WellBut (some frame))
    (same : ∀ settings, frame.settle settings = settings) : s.Well :=
  ⟨⟨h.counted.settled same, h.counted.fits⟩, h.awaiting, h.settled⟩

/-- A frame leaves requests waiting beside a free stream where it strands them, and only there. -/
theorem handleFrame_fallen {frame : Frame} (h : s.WellBut (some frame))
    (hblock : s.headerBlockError frame = none) :
    Ends (handleFrame frame s) (fun _ => Fallen (s.pending ≠ [] && s.strands frame))
      fun _ _ => (s.pending ≠ [] && s.strands frame) = false := by
  have parked : ∀ {x : UpM Unit}, Ends (x s) (fun _ => Parked (s.strands frame) s)
      (fun _ _ => s.strands frame = false) →
      Ends (x s) (fun _ => Fallen (s.pending ≠ [] && s.strands frame))
        fun _ _ => (s.pending ≠ [] && s.strands frame) = false := by
    intro x hx
    refine hx.mono (fun _ t ht => ht.fallen) fun _ _ ht => ?_
    rw [ht, Bool.and_false]
  have fares : ∀ {x : UpM Unit}, s.strands frame = false → Fares (x s) →
      Ends (x s) (fun _ => Fallen (s.pending ≠ [] && s.strands frame))
        fun _ _ => (s.pending ≠ [] && s.strands frame) = false := by
    intro x hcalm hx
    exact hx.fallen (by rw [hcalm, Bool.and_false])
  have kept : ∀ (t : Upstream) (f : Upstream → Upstream), t.Well → (∀ t, (f t).streams = t.streams) →
      (∀ t, (f t).pending = t.pending) → (∀ t, Unmoved t (f t)) →
      Fares ((modify f : UpM Unit) t) := fun t f ht hstreams hpending hf =>
    ht.fares (follows_modify (hf t)) (level_modify (hstreams t) (hpending t))
  unfold handleFrame
  rw [ends_bind, ends_get, hblock]
  cases frame with
  | settings ack params =>
    cases ack with
    | true => exact fares rfl (h.acted fun _ => rfl)
    | false => exact parked (recvSettings_parked h)
  | ping data ack =>
    have h := h.acted fun _ => rfl
    refine fares rfl (.ite (fun _ => ?_) fun _ => .ite (fun _ => ?_) fun _ => h)
    · exact h.fares (queueFrame_tracked s nofun) (queueFrame_level s _)
    · exact h.fares (follows_modify (.same rfl rfl rfl rfl rfl rfl)) (level_modify rfl rfl)
  | goAway last code debug => exact fares rfl (beginPeerDrain_fares (h.acted fun _ => rfl) last)
  | windowUpdate id increment =>
    exact parked (recvWindowUpdate_parked (h.acted fun _ => rfl) id increment)
  | headers id block endStream endHeaders =>
    have h := h.acted fun _ => rfl
    refine fares rfl (.bind (kept s _ h (fun _ => rfl) (fun _ => rfl) fun _ =>
      .same rfl rfl rfl rfl rfl rfl) fun _ t ht => ?_)
    refine .bind (readHeaderBlock_fares ht id block endHeaders) fun _ u hu => ?_
    exact kept u _ hu (fun _ => rfl) (fun _ => rfl) fun _ => .same rfl rfl rfl rfl rfl rfl
  | continuation id block endHeaders =>
    have h := h.acted fun _ => rfl
    refine fares rfl (.bind (readHeaderBlock_fares h id block endHeaders) fun _ t ht => ?_)
    exact kept t _ ht (fun _ => rfl) (fun _ => rfl) fun _ => .same rfl rfl rfl rfl rfl rfl
  | data id data endStream => exact fares rfl (recvData_fares (h.acted fun _ => rfl) id data endStream)
  | rstStream id code => exact fares rfl (recvRstStream_fares (h.acted fun _ => rfl) id code)

theorem recvWire_fallen (h : s.Well) (w : WireFrame) :
    Ends (recvWire w s) (fun _ => Fallen (s.Strands (.frame w)))
      fun _ _ => s.Strands (.frame w) = false := by
  have ht : (s.withCore (s.toUpstreamCore.observe (.heard w))).WellBut w.frame? :=
    ⟨⟨(Counted.hear h.counted.toCountedBut w).2, h.counted.fits⟩, h.awaiting, h.settled⟩
  have hsame : (s.withCore (s.toUpstreamCore.observe (.heard w))).Strands (.frame w) =
      s.Strands (.frame w) := rfl
  unfold recvWire
  rw [ends_bind, ends_onCore, ends_bind, ends_get, ← hsame]
  generalize s.withCore (s.toUpstreamCore.observe (.heard w)) = t at ht
  have calm : t.handled w = none → t.Strands (.frame w) = false := by
    intro hnone
    show (_ && (t.handled w).any _) = false
    rw [hnone, Option.any_none, Bool.and_false]
  unfold handled at calm
  refine ends_ite.mpr ⟨fun hlong => calm (if_pos hlong), fun hshort => ?_⟩
  rw [if_neg hshort] at calm
  cases hw : w.decode with
  | error e => exact calm (by rw [hw])
  | ok decoded =>
    rw [hw] at calm
    cases decoded with
    | ignored kind id =>
      have hnone : w.frame? = none := by
        unfold WireFrame.frame?
        rw [hw]
      rw [hnone] at ht
      have hrejects : Fares (rejectIfMidHeaderBlock kind id t) := by
        unfold rejectIfMidHeaderBlock
        rw [Fares, ends_bind, ends_get]
        cases t.openHeaderBlock with
        | none => exact ht
        | some open_ => trivial
      exact hrejects.fallen (calm rfl)
    | frame frame =>
      cases hblock : t.headerBlockError frame with
      | some e =>
        have hthrows : Fares (handleFrame frame t) := by
          unfold handleFrame
          rw [Fares, ends_bind, ends_get, hblock]
          trivial
        exact hthrows.fallen (calm (by dsimp only; rw [hblock]; rfl))
      | none =>
        have hhandled := handled_of hshort hw hblock
        have hstrands : t.Strands (.frame w) = (t.pending ≠ [] && t.strands frame) := by
          show (_ && (t.handled w).any _) = _
          rw [hhandled, Option.any_some]
        rw [hstrands]
        rw [WireFrame.frame?_of_decode hw] at ht
        exact handleFrame_fallen ht hblock

/-! ### The scheduler -/

theorem transmit_fares (h : s.Well) (id : StreamId) (turn : Stream.Turn) :
    Fares (transmit id turn s) := by
  refine .ite (fun _ => ?_) fun _ => h
  refine .bind (h.fares (queueFrame_tracked s nofun) (queueFrame_level s _)) fun _ t ht => ?_
  exact applyStreamEvent_fares ht id rfl

/-- A stream that was opened stays so. -/
theorem Fares.used {r : EStateM.Result ConnectionError Upstream α} {id : StreamId} (h : s.Well)
    (hid : s.Used id) (hr : Fares r) (ht : Follows Tracked s r) :
    Ends r (fun _ t => t.Well ∧ t.Used id) fun _ _ => True :=
  (Ends.and hr ht).mono (fun _ _ hu => ⟨hu.1, (hu.2 h.counted.toCountedBut).used hid⟩) fun _ _ _ => trivial

theorem transmitTrailers_fares (h : s.Well) {id : StreamId} (hid : s.Used id)
    (fields : List Header) : Fares (transmitTrailers id fields s) := by
  refine .bind (h.fares (queueHeaders_tracked s fields true fun _ => hid)
    (queueHeaders_level s id fields true)) fun _ t ht => ?_
  exact applyStreamEvent_fares ht id rfl

theorem visitReadyStream_fares (h : s.Well) (id : StreamId) : Fares (visitReadyStream id s) := by
  unfold visitReadyStream
  rw [Fares, ends_bind, ends_get]
  cases hid : s.streams.get? id with
  | none => exact h
  | some stream =>
    have hused : s.Used id := h.counted.below id (by rw [hid]; rfl)
    refine Fares.ite (fun _ => ?_) fun _ => ?_
    · exact .bind (h.fares (follows_onCore (.modifyStream id _))
        (level_modifyStream id _ fun _ _ => rfl)) fun _ t ht => ht
    have hstate : ∀ st, s.streams.get? id = some st →
        (stream.turn (s.budget stream)).rest.state = st.state := by
      intro st hst
      rw [Stream.turn_state, ← Option.some.inj (hid.symm.trans hst)]
    have hturn := follows_onCore (s := s) (.modifyStream id fun _ =>
      (stream.turn (s.budget stream)).rest)
    refine ends_bind.mpr ((h.fares hturn (level_modifyStream id _ hstate)).used h hused hturn |>.mono
      (fun _ t ht => ?_) fun _ _ h => h)
    refine Fares.ite (fun _ => ht.1) fun _ => ?_
    have hspend := spend_tracked t id stream (stream.turn (s.budget stream)).chunk.length
    refine ends_bind.mpr ((ht.1.fares hspend (spend_level t id stream _)).used ht.1 ht.2 hspend |>.mono
      (fun _ u hu => ?_) fun _ _ h => h)
    refine ends_bind.mpr ((transmit_fares hu.1 id _).used hu.1 hu.2 (transmit_tracked u id _) |>.mono
      (fun _ v hv => ?_) fun _ _ h => h)
    have hreport := reportAccepted_tracked v id (stream.turn (s.budget stream)).chunk.length
    refine ends_bind.mpr ((hv.1.fares hreport (reportAccepted_level v id _)).used hv.1 hv.2 hreport
      |>.mono (fun _ w hw => ?_) fun _ _ h => h)
    cases (stream.turn (s.budget stream)).trailers with
    | none => exact hw.1
    | some fields => exact Fares.bind (transmitTrailers_fares hw.1 hw.2 fields) fun _ x hx => hx

theorem visitLap_fares (h : s.Well) (lap : List StreamId) : Fares (visitLap lap s) := by
  induction lap generalizing s with
  | nil => exact h
  | cons id lap ih =>
    refine .bind (visitReadyStream_fares h id) fun _ t ht => ?_
    exact .bind (ih ht) fun _ u hu => hu

theorem pumpLap_fares (h : s.Well) : Fares (pumpLap s) := by
  unfold pumpLap
  rw [Fares, ends_bind, ends_get]
  refine Fares.bind (h.fares (follows_modify (.same rfl rfl rfl rfl rfl rfl)) (level_modify rfl rfl))
    fun _ t ht => ?_
  refine .bind (visitLap_fares ht _) fun _ u hu => ?_
  refine .bind (hu.fares (requeue_tracked u _) (requeue_level u _)) fun _ v hv => ?_
  exact .bind (hv.fares (follows_modify (.same rfl rfl rfl rfl rfl rfl)) (level_modify rfl rfl))
    fun _ w hw => hw

theorem pumpLaps_fares (fuel : Nat) (h : s.Well) : Fares (pumpLaps fuel s) := by
  induction fuel generalizing s with
  | zero => exact h
  | succ fuel ih =>
    unfold pumpLaps
    rw [Fares, ends_bind, ends_get]
    refine Fares.ite (fun _ => h) fun _ => .bind (pumpLap_fares h) fun wrote t ht => ?_
    exact .ite (fun _ => ih ht) fun _ => ht

theorem probeTimer_fares (h : s.Well) : Fares (probeTimer s) := by
  unfold probeTimer
  rw [Fares, ends_bind, ends_get]
  rcases s.probe.due s.now with ⟨probe, action⟩
  refine Fares.bind (h.fares (follows_modify (.same rfl rfl rfl rfl rfl rfl)) (level_modify rfl rfl))
    fun _ t ht => ?_
  cases action with
  | nothing => exact ht
  | send nonce =>
    exact .bind (ht.fares (queueFrame_tracked t nofun) (queueFrame_level t _)) fun _ u hu => hu
  | expired =>
    refine .bind (ht.fares (follows_modify (.same rfl rfl rfl rfl rfl rfl)) (level_modify rfl rfl))
      fun _ u hu => ?_
    exact .bind (hu.fares (follows_onCore (.same rfl rfl rfl rfl rfl rfl)) (level_onCore rfl rfl))
      fun _ v hv => hv

/-! ### Inputs -/

theorem react_fallen (h : s.Well) {i : UpInput} (hfits : i.fits = true) :
    Ends (react i s)
      (fun next t => Fallen (s.Strands i) t ∧ (next = .close → s.Strands i = false))
      fun _ _ => s.Strands i = false := by
  have fares : ∀ {x : UpM Next}, s.Strands i = false → Fares (x s) → Ends (x s)
      (fun next t => Fallen (s.Strands i) t ∧ (next = .close → s.Strands i = false))
      fun _ _ => s.Strands i = false := fun hcalm hx =>
    (hx.fallen hcalm).mono (fun _ _ ht => ⟨ht, fun _ => hcalm⟩) fun _ _ h => h
  unfold react
  cases i with
  | frame w =>
    refine ends_bind.mpr ((recvWire_fallen h w).mono (fun _ t ht => ?_) fun _ _ h => h)
    exact ⟨ht, nofun⟩
  | message m => exact fares rfl (.bind (handleMessage_fares h hfits) fun _ t ht => ht)
  | pump =>
    have hpump : Fares (pumpOutbound s) := pumpLaps_fares _ h
    exact fares rfl (.bind hpump fun _ t ht => ht)
  | wrote n =>
    exact fares rfl (.bind (h.fares (follows_modify (.same rfl rfl rfl rfl rfl rfl))
      (level_modify rfl rfl)) fun _ t ht => ht)
  | heard =>
    exact fares rfl (.bind (h.fares (follows_modify (.same rfl rfl rfl rfl rfl rfl))
      (level_modify rfl rfl)) fun _ t ht => ht)
  | probe => exact fares rfl (probeTimer_fares h)
  | drained => exact ⟨h.fallen, fun _ => rfl⟩
  | hangup => exact ⟨h.fallen, fun _ => rfl⟩

/-- What one step does to the queue of a connection that goes on. -/
theorem step_fallen (h : s.Well) {i : Instant × UpInput} (hfits : i.2.fits = true)
    (hlive : s.stop = none) :
    ((step i s).Settled ↔ s.Strands i.2 = false) ∧
      ((step i s).stop = none → (step i s).Fitted ∧ (step i s).Awaiting) := by
  have hticked : Well { s with now := i.1 } :=
    ⟨⟨⟨h.counted.limit, h.counted.next, h.counted.below, h.counted.heard⟩, h.counted.fits⟩,
      h.awaiting, h.settled⟩
  have concluded : ∀ stop t, s.Strands i.2 = false →
      ((conclude stop t).Settled ↔ s.Strands i.2 = false) ∧
        ((conclude stop t).stop = none → (conclude stop t).Fitted ∧ (conclude stop t).Awaiting) := by
    intro stop t hcalm
    have hnone : (conclude stop t).pending = [] :=
      List.map_eq_nil_iff.mp (conclude_quiet stop t).2.2
    exact ⟨⟨fun _ => hcalm, fun _ hp => absurd hnone hp⟩, nofun⟩
  have hreact := react_fallen hticked hfits
  have hsame : Strands { s with now := i.1 } i.2 = s.Strands i.2 := rfl
  rw [hsame] at hreact
  unfold step
  rw [if_neg (by rw [hlive]; exact Bool.false_ne_true)]
  generalize react i.2 { s with now := i.1 } = r at hreact
  cases r with
  | ok next t =>
    cases next with
    | continue_ => exact ⟨hreact.1.settled, fun _ => ⟨hreact.1.counted, hreact.1.awaiting⟩⟩
    | close => exact concluded _ t (hreact.2 rfl)
  | error e t => exact concluded _ t hreact

/-! ## Every run -/

/-- A step leaves requests waiting beside a free stream. -/
def Neglects (s : Upstream) (i : Instant × UpInput) : Prop := s.stop = none ∧ s.Strands i.2 = true

instance (s : Upstream) (i : Instant × UpInput) : Decidable (s.Neglects i) :=
  inferInstanceAs (Decidable (_ ∧ _))

/-- Where requests wait no stream may be opened, and those that were started, and then those that
    wait, stand in the order in which they came. -/
def Disciplined (b s : Upstream) : Prop := s.Settled ∧ Served b List.Sublist s

/-- What a run that neglects nothing keeps. -/
structure Kept (b s : Upstream) : Prop where
  disciplined : Disciplined b s
  running : s.stop = none → s.Fitted ∧ s.Awaiting

theorem settled_stopped {i : Instant × UpInput} (h : s.Settled) (hstop : s.stop.isSome = true) :
    (step i s).Settled := by
  unfold step
  rw [if_pos hstop]
  cases i.2 with
  | message m =>
    cases m with
    | _ => exact h
  | _ => exact h

/-- A step keeps the discipline exactly where it neglects nothing. -/
theorem Kept.step {b : Upstream} (h : Kept b s) {i : Instant × UpInput}
    (hfits : i.2.fits = true) :
    (Disciplined b (step i s) ↔ ¬ s.Neglects i) ∧ (¬ s.Neglects i → Kept b (step i s)) := by
  obtain ⟨⟨hsettled, hserved⟩, hrunning⟩ := h
  -- Where a stream may be opened nobody waits, so nobody is overtaken.
  have hopen : ∀ os : List Opening, (os.map (·.request) ++ s.waiting).Sublist (arrivals s.log) →
      ∀ m, s.streams.canOpenLocal = true →
        (os.map (·.request) ++ m :: s.waiting).Sublist (arrivals s.log ++ [m]) := by
    intro os hrs m hcan
    have hnil : s.pending = [] := by
      by_contra hp
      rw [hsettled hp] at hcan
      cases hcan
    have hwaiting : s.waiting = [] := congrArg (List.map Pending.asked) hnil
    rw [hwaiting, List.append_nil] at hrs
    rw [hwaiting]
    exact hrs.append (.refl _)
  have hwait : ∀ (os : List Opening) (m : ToUpstream),
      (os.map Opening.request ++ s.waiting).Sublist (arrivals s.log) →
        (os.map Opening.request ++ (s.waiting ++ [m])).Sublist (arrivals s.log ++ [m]) := by
    intro os m hrs
    rw [← List.append_assoc]
    exact hrs.append (.refl _)
  obtain ⟨hserved', -⟩ := hserved.step (r := List.Sublist) (i := i) (fun l l' a hl hla => hl.trans hla)
    (fun l a a' hla => hla.trans (List.sublist_append_left a a'))
    hopen hwait fun hlive => (hrunning hlive).1.toCountedBut
  have hsteps : ((Upstream.step i s).Settled ↔ ¬ s.Neglects i) ∧
      ((Upstream.step i s).stop = none →
        (Upstream.step i s).Fitted ∧ (Upstream.step i s).Awaiting) := by
    cases hstop : s.stop with
    | some stop =>
      have hsome : s.stop.isSome = true := by rw [hstop]; rfl
      have hcalm : ¬ s.Neglects i := fun hn => by
        rw [hn.1] at hstop
        cases hstop
      refine ⟨⟨fun _ => hcalm, fun _ => settled_stopped hsettled hsome⟩, fun hnone => ?_⟩
      rw [(step_stopped i hsome).2.2.2, hstop] at hnone
      cases hnone
    | none =>
      have hwell : s.Well := ⟨(hrunning hstop).1, (hrunning hstop).2, hsettled⟩
      obtain ⟨hiff, hrun⟩ := step_fallen hwell hfits hstop
      refine ⟨hiff.trans ⟨fun hcalm hn => ?_, fun hn => ?_⟩, hrun⟩
      · exact Bool.false_ne_true (hcalm.symm.trans hn.2)
      · by_contra hstrands
        exact hn ⟨hstop, by simpa using hstrands⟩
  refine ⟨⟨fun hd => hsteps.1.mp hd.1, fun hn => ⟨hsteps.1.mpr hn, hserved'⟩⟩, fun hn => ?_⟩
  exact ⟨⟨hsteps.1.mpr hn, hserved'⟩, hsteps.2⟩

theorem Fresh.kept {b : Upstream} (h : b.Fresh) : Kept b b := by
  have hcounted := h.counted
  obtain ⟨tuning, idle, timeout, now, -, -, rfl⟩ := h
  exact ⟨⟨fun hp => absurd rfl hp, [], .refl, .refl _⟩, fun _ => ⟨⟨hcounted, nofun⟩, nofun⟩⟩

/-- A run in which every head that is asked for fits is disciplined throughout if and only if no
    step of it neglects the queue. -/
theorem disciplined_iff {b : Upstream} (hb : b.Fresh) (is : List (Instant × UpInput))
    (hfits : ∀ i ∈ is, i.2.fits = true) :
    machine.Meets (fun s i => ¬ s.Neglects i) b is ↔
      ∀ js, js <+: is → Disciplined b (machine.run b js) := by
  have runs : ∀ s, Kept b s → (machine.Meets (fun s i => ¬ s.Neglects i) s is ↔
      ∀ js, js <+: is → Disciplined b (machine.run s js)) := by
    induction is with
    | nil =>
      refine fun s hs => ⟨fun _ js hjs => ?_, fun _ => trivial⟩
      rw [List.prefix_nil.mp hjs]
      exact hs.disciplined
    | cons i is ih =>
      intro s hs
      obtain ⟨hiff, hkeep⟩ := hs.step (hfits i List.mem_cons_self)
      have hrest := ih fun i hi => hfits i (List.mem_cons_of_mem _ hi)
      constructor
      · rintro ⟨hok, hmeets⟩ js hjs
        cases js with
        | nil => exact hs.disciplined
        | cons j js =>
          obtain ⟨rfl, hrun⟩ := List.cons_prefix_cons.mp hjs
          exact (hrest _ (hkeep hok)).mp hmeets js hrun
      · intro hall
        have hok : ¬ s.Neglects i :=
          hiff.mp (hall [i] (List.cons_prefix_cons.mpr ⟨rfl, List.nil_prefix⟩))
        refine ⟨hok, (hrest _ (hkeep hok)).mpr fun js hjs => ?_⟩
        exact hall (i :: js) (List.cons_prefix_cons.mpr ⟨rfl, hjs⟩)
  exact runs b hb.kept

theorem disciplined_oneWaits :
    Disciplined (.start .default 0 0 0) (machine.run (.start .default 0 0 0) openAndWaiting) :=
  (disciplined_iff ⟨.default, 0, 0, 0, by decide, by decide, rfl⟩ openAndWaiting
    (by decide +kernel)).mp (by decide +kernel) _ (List.prefix_refl _)

/-- Then the stream is reset for a WINDOW_UPDATE of zero, or the backend allows a second one: in
    both cases a stream is free and the request waits. -/
theorem waits_beside_free :
    ¬ (∀ b is, Fresh b → (∀ i ∈ is, i.2.fits = true) → Disciplined b (machine.run b is)) ∧
      ∀ w ∈ ([.ofParts .windowUpdate ⟨0⟩ (.new 1) [0, 0, 0, 0] (by decide),
          .ofParts .settings ⟨0⟩ .connection [0, 3, 0, 0, 0, 2] (by decide)] : List WireFrame),
        ¬ (machine.run (.start .default 0 0 0) (openAndWaiting ++ [(0, .frame w)])).Settled := by
  have unsettled : ∀ w ∈ ([.ofParts .windowUpdate ⟨0⟩ (.new 1) [0, 0, 0, 0] (by decide),
      .ofParts .settings ⟨0⟩ .connection [0, 3, 0, 0, 0, 2] (by decide)] : List WireFrame),
      (machine.run (.start .default 0 0 0) (openAndWaiting ++ [(0, .frame w)])).pending.length = 1 ∧
        (machine.run (.start .default 0 0 0)
          (openAndWaiting ++ [(0, .frame w)])).streams.canOpenLocal = true := by
    decide +kernel
  have waiting : ∀ s : Upstream, s.pending.length = 1 ∧ s.streams.canOpenLocal = true →
      ¬ s.Settled := by
    rintro s ⟨hp, hcan⟩ hs
    rw [hs fun hnil => by rw [hnil] at hp; cases hp] at hcan
    cases hcan
  refine ⟨fun h => ?_, fun w hw => waiting _ (unsettled w hw)⟩
  refine waiting _ (unsettled _ List.mem_cons_self) (h _ _ ⟨.default, 0, 0, 0, by decide, by decide,
    rfl⟩ ?_).1
  decide +kernel

end Upstream

end H2Proxy
