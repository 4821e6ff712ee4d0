import H2Proxy.Up.Steps
import H2Proxy.Ring

/-
  An upstream connection keeps its ring, where its clients keep to an order: body, then an
  end or trailers, then nothing (`UpstreamCore.ended`).

  The order matters. An event that is illegal in the state of a stream fails the stream in
  the middle of a lap; failing it starts waiting requests, and what they put on the ring is
  lost when the lap is over. `Orderly` therefore keeps, beside the ring, that a stream with
  something left to send may still send it, and what that takes of the queue of waiting
  requests and of the ids.
-/

namespace H2Proxy

/-- The states in which a stream still has its own end before it. -/
def StreamState.maySend (s : StreamState) : Bool := s == .idle || s.weCanSend

/-- Receiving leaves us able to send, and so does sending what is not the end. -/
def StreamEvent.sparing : StreamEvent → Bool
  | .recvHeaders _ | .recvData _ | .sendHeaders false | .sendData false => true
  | _ => false

/-- The end of what we send was asked for, or has gone out. -/
def Stream.ended (s : Stream) : Bool :=
  s.sendEndStream || s.pendingTrailers.isSome || !s.state.maySend

/-- The end of the request has arrived while it waits. -/
def Pending.ended (p : Pending) : Bool :=
  p.endStream || p.body.any Prod.snd || p.trailers.isSome

/-- The end of a request has arrived. -/
def UpstreamCore.ended (r : RequestId) (c : UpstreamCore) : Bool :=
  match c.requests.lookup r with
  | some id => (c.streams.get? id).any Stream.ended
  | none => (c.pending.find? (·.request = r)).any Pending.ended

namespace Upstream

/-- Body and trailers come before the end of their request. -/
def inOrder (s : Upstream) : UpInput → Bool
  | .message (.body r ..) | .message (.trailers r _) => !s.ended r
  | _ => true

variable {α β : Type} {s t u : Upstream} {id : StreamId}

/-! ## What is kept beside the ring -/

/-- The queue of waiting requests and the ids, as starting a request needs them. -/
structure Startable (s : Upstream) : Prop where
  complete : ∀ p ∈ s.pending, p.endStream = true → p.body = [] ∧ p.trailers = none
  uncancelled : ∀ p ∈ s.pending, p.request ∉ s.cancelled
  draining : s.peerDraining.isSome → s.pending = []
  odd : s.nextStreamId % 2 = 1
  next : s.streams.highestLocalId.get < s.nextStreamId ∧
    s.nextStreamId ≤ s.streams.highestLocalId.get + 2
  known : ∀ id, (s.streams.get? id).isSome → id ≤ s.streams.highestLocalId

/-- A stream with something left to send may send it. -/
def Able (s : Upstream) : Prop :=
  ∀ id st, s.streams.get? id = some st → st.hasPendingSend = true → st.state.maySend = true

structure Orderly (s : Upstream) : Prop extends Startable s where
  ring : Ring s.streams s.ready
  able : Able s

/-- Nothing has changed in what `Orderly` is about. -/
structure Still (s t : Upstream) : Prop where
  ready : t.ready = s.ready
  streams : s.streams.SameSending t.streams
  pending : t.pending = s.pending
  cancelled : t.cancelled = s.cancelled
  peerDraining : t.peerDraining = s.peerDraining
  nextStreamId : t.nextStreamId = s.nextStreamId
  highestLocalId : t.streams.highestLocalId = s.streams.highestLocalId

theorem Still.refl (s : Upstream) : Still s s := ⟨rfl, .refl _, rfl, rfl, rfl, rfl, rfl⟩

theorem Still.trans (h : Still s t) (h' : Still t u) : Still s u :=
  ⟨h'.ready.trans h.ready, h.streams.trans h'.streams, h'.pending.trans h.pending,
    h'.cancelled.trans h.cancelled, h'.peerDraining.trans h.peerDraining, h'.nextStreamId.trans h.nextStreamId,
    h'.highestLocalId.trans h.highestLocalId⟩

theorem Startable.still (h : s.Startable) (still : Still s t) : t.Startable := by
  refine ⟨?_, ?_, ?_, ?_, ?_, fun id live => ?_⟩
  · rw [still.pending]
    exact h.complete
  · rw [still.pending, still.cancelled]
    exact h.uncancelled
  · rw [still.peerDraining, still.pending]
    exact h.draining
  · rw [still.nextStreamId]
    exact h.odd
  · rw [still.nextStreamId, still.highestLocalId]
    exact h.next
  · obtain ⟨st, hst⟩ := Option.isSome_iff_exists.mp live
    obtain ⟨st₀, hst₀, -⟩ := still.streams.live hst
    rw [still.highestLocalId]
    exact h.known id (by rw [hst₀]; rfl)

theorem Able.still (h : s.Able) (still : Still s t) : t.Able := by
  intro id st hst busy
  obtain ⟨st₀, hst₀, eq⟩ := still.streams.live hst
  rw [Stream.hasPendingSend_congr eq] at busy
  rw [Stream.state_congr eq]
  exact h id st₀ hst₀ busy

theorem Orderly.still (h : s.Orderly) (still : Still s t) : t.Orderly := by
  refine ⟨h.toStartable.still still, ?_, h.able.still still⟩
  rw [still.ready]
  exact h.ring.sameSending still.streams

/-- The connection is left as it was, whether the program fails or not. -/
abbrev Stays (s : Upstream) (r : EStateM.Result ConnectionError Upstream α) : Prop :=
  Ends r (fun _ => Still s) fun _ => Still s

/-- The connection is in order, whether the program fails or not. -/
abbrev Orders (r : EStateM.Result ConnectionError Upstream α) : Prop :=
  Ends r (fun _ => Orderly) fun _ => Orderly

/-- The connection is in order where the program ends with a value. -/
abbrev Keeps (r : EStateM.Result ConnectionError Upstream α) : Prop :=
  Ends r (fun _ => Orderly) fun _ _ => True

theorem Stays.orders {r : EStateM.Result ConnectionError Upstream α} (h : Stays s r)
    (hs : s.Orderly) : Orders r :=
  h.mono (fun _ _ still => hs.still still) fun _ _ still => hs.still still

theorem Orders.keeps {r : EStateM.Result ConnectionError Upstream α} (h : Orders r) : Keeps r :=
  h.mono (fun _ _ ht => ht) fun _ _ _ => trivial

theorem Orders.bind {x : UpM β} {f : β → UpM α} (hx : Orders (x s))
    (hf : ∀ b t, t.Orderly → Orders (f b t)) : Orders ((x >>= f) s) := by
  rw [Orders, ends_bind]
  exact hx.mono hf fun _ _ h => h

theorem Keeps.bind {x : UpM β} {f : β → UpM α} (hx : Keeps (x s))
    (hf : ∀ b t, t.Orderly → Keeps (f b t)) : Keeps ((x >>= f) s) := by
  rw [Keeps, ends_bind]
  exact hx.mono hf fun _ _ h => h

/-! ## Writing and credit -/

theorem queueFields_stays (s : Upstream) (frame : Frame) (fields : List Header) :
    Stays s (queueFields frame fields s) := by
  unfold queueFields
  cases frame.write with
  | error e => exact .refl s
  | ok octets =>
    simp only [ends_bind, ends_get, ends_onCore, ends_modify]
    exact ⟨rfl, .refl _, rfl, rfl, rfl, rfl, rfl⟩

theorem queueFrame_stays (s : Upstream) (frame : Frame) : Stays s (queueFrame frame s) :=
  queueFields_stays s frame []

/-- A step that is still, before a program that is. -/
theorem Still.stays {r : EStateM.Result ConnectionError Upstream α} (h : Still s t)
    (hr : Stays t r) : Stays s r :=
  hr.mono (fun _ _ ht => h.trans ht) fun _ _ ht => h.trans ht

theorem queueHeaders_stays (s : Upstream) (id : StreamId) (fields : List Header)
    (endStream : Bool) : Stays s (queueHeaders id fields endStream s) := by
  unfold queueHeaders
  simp only [ends_bind, ends_get, ends_onCore, ends_modify]
  refine Still.stays ?_ (queueFields_stays _ _ _)
  exact ⟨rfl, .refl _, rfl, rfl, rfl, rfl, rfl⟩

theorem releaseConnWindow_stays (s : Upstream) (n : Nat) : Stays s (releaseConnWindow n s) := by
  unfold releaseConnWindow
  simp only [ends_bind, ends_get, ends_onCore]
  have first : Still s (s.withCore
      { s.toUpstreamCore with connRecvWindow := (s.connRecvWindow.release n).1 }) :=
    ⟨rfl, .refl _, rfl, rfl, rfl, rfl, rfl⟩
  cases (s.connRecvWindow.release n).2 with
  | none => exact first
  | some increment => exact first.stays (queueFrame_stays _ _)

theorem Still.modify (id : StreamId) {f : Stream → Stream}
    (h : ∀ st, s.streams.get? id = some st → (f st).sending = st.sending) :
    Still s (s.withCore (s.modifyStream id f)) :=
  ⟨rfl, .modify _ _ h, rfl, rfl, rfl, rfl, rfl⟩

theorem releaseStream_stays (s : Upstream) (id : StreamId) (n : Nat) :
    Stays s (releaseStream id n s) := by
  unfold releaseStream
  simp only [ends_bind, ends_get]
  cases s.streams.get? id with
  | none => exact .refl s
  | some stream =>
    simp only [ends_bind, ends_onCore]
    have first := Still.modify (s := s) id
      (f := ({ · with recvWindow := (stream.recvWindow.release n).1 })) fun _ _ => rfl
    cases (stream.recvWindow.release n).2 with
    | none => exact first
    | some increment => exact first.stays (queueFrame_stays _ _)

theorem release_stays (s : Upstream) (id : StreamId) (n : Nat) : Stays s (release id n s) := by
  unfold release
  simp only [ends_ite, ends_pure, ends_bind, ends_onCore]
  refine ⟨fun _ => .refl s, fun _ => ?_⟩
  have first : Still s (s.withCore (s.modifyRoute id fun r =>
      { r with pendingConnRelease := r.pendingConnRelease - n })) :=
    ⟨rfl, .refl _, rfl, rfl, rfl, rfl, rfl⟩
  refine (releaseStream_stays _ id n).mono (fun _ t ht => ?_) fun _ t ht => first.trans ht
  exact (first.trans ht).stays (releaseConnWindow_stays t n)

/-! ## Ending a stream -/

/-- A stream goes, and its place in the ring with it. -/
theorem Orderly.gone (h : s.Orderly) {c : UpstreamCore} {ready : List StreamId}
    (hready : ready = s.ready.filter (· ≠ id)) (gone : c.streams.get? id = none)
    (others : ∀ id', id' ≠ id → c.streams.get? id' = s.streams.get? id')
    (pending : c.pending = s.pending) (cancelled : c.cancelled = s.cancelled)
    (peerDraining : c.peerDraining = s.peerDraining) (next : c.nextStreamId = s.nextStreamId)
    (top : c.streams.highestLocalId = s.streams.highestLocalId) :
    Orderly { s with toUpstreamCore := c, ready } := by
  have here : ∀ id' st, c.streams.get? id' = some st → s.streams.get? id' = some st := by
    intro id' st hst
    by_cases other : id' = id
    · rw [other, gone] at hst
      cases hst
    · rw [others id' other] at hst
      exact hst
  refine ⟨⟨?_, ?_, ?_, ?_, ?_, fun id' live => ?_⟩, ?_, fun id' st hst => ?_⟩
  · rw [pending]
    exact h.complete
  · rw [pending, cancelled]
    exact h.uncancelled
  · rw [pending, peerDraining]
    exact h.draining
  · rw [next]
    exact h.odd
  · rw [next, top]
    exact h.next
  · obtain ⟨st, hst⟩ := Option.isSome_iff_exists.mp live
    rw [top]
    exact h.known id' (by rw [here id' st hst]; rfl)
  · rw [hready]
    exact h.ring.retired gone others
  · exact h.able id' st (here id' st hst)

theorem Orderly.retired (h : s.Orderly) (id : StreamId) :
    Orderly { s with toUpstreamCore := s.retire id, ready := s.ready.filter (· ≠ id) } :=
  h.gone rfl ((UpstreamCore.get?_retire ..).trans (if_pos rfl))
    (fun _ other => (UpstreamCore.get?_retire ..).trans (if_neg other)) rfl rfl rfl rfl
    (StreamTable.retire_highestLocalId _ _)

theorem writeRstStream_orders (h : s.Orderly) (id : StreamId) (code : ErrorCode) :
    Orders (writeRstStream id code s) := by
  unfold writeRstStream
  simp only [ends_bind, ends_onCore, ends_unready]
  exact (queueFrame_stays _ _).orders (h.retired id)

/-- A program that keeps the connection in order, whether it fails or not. -/
abbrev Settles (drain : UpM Unit) : Prop := ∀ s, s.Orderly → Orders (drain s)

variable {drain : UpM Unit}

theorem forgetWith_orders (hd : Settles drain) (h : s.Orderly) (id : StreamId) :
    Orders (forgetWith drain id s) := by
  have last : ∀ t : Upstream, t.Orderly → Ends (drain t) (fun _ => Orderly) fun _ => Orderly :=
    fun t ht => hd t ht
  have retired := h.retired id
  unfold forgetWith
  simp only [ends_bind, ends_onCore, ends_unready, ends_get]
  have kept : (s.withCore (s.retire id)).routes = s.routes := rfl
  rw [kept]
  cases s.routes.lookup id with
  | none => exact ends_ignore.mpr (last _ retired)
  | some route =>
    simp only [ends_bind, ends_onCore, ends_ite, ends_ignore]
    have unrouted : Orderly { s with
        toUpstreamCore := { s.retire id with
          routes := s.routes.erase id, requests := s.requests.erase route.request }
        ready := s.ready.filter (· ≠ id) } :=
      retired.still ⟨rfl, .refl _, rfl, rfl, rfl, rfl, rfl⟩
    refine ⟨fun _ => ?_, fun _ => last _ unrouted⟩
    exact ((releaseConnWindow_stays _ _).orders unrouted).mono (fun _ t ht => last t ht)
      fun _ t ht => last t ht

theorem failStreamWith_keeps (hd : Settles drain) (h : s.Orderly) (id : StreamId) (status : Nat) :
    Keeps (failStreamWith drain id status s) := by
  have last : ∀ t : Upstream, t.Orderly → Keeps ((do
      if ((← get).streams.get? id).isSome then writeRstStream id .cancel else pure ()
      forgetWith drain id : UpM Unit) t) := by
    intro t ht
    simp only [ends_bind, ends_get, ends_ite]
    refine ⟨fun _ => ?_, fun _ => (forgetWith_orders hd ht id).keeps⟩
    refine (writeRstStream_orders ht id .cancel).keeps.mono (fun _ u hu => ?_) fun _ _ h => h
    exact (forgetWith_orders hd hu id).keeps
  unfold failStreamWith
  simp only [ends_bind, ends_get]
  cases s.routes.lookup id with
  | none => exact last s h
  | some route =>
    refine last _ ?_
    exact h.still ⟨rfl, .refl _, rfl, rfl, rfl, rfl, rfl⟩

/-- A stream goes on in a state of its own, and nothing else changes. -/
theorem Orderly.advanced (h : s.Orderly) (id : StreamId) (next : StreamState)
    (able : ∀ st, s.streams.get? id = some st → st.hasPendingSend = true → next.maySend = true) :
    Orderly (s.withCore { s.toUpstreamCore with
      streams := s.streams.modify id ({ · with state := next }) }) := by
  have here : ∀ id' st, (s.streams.modify id ({ · with state := next })).get? id' = some st →
      ∃ st₀, s.streams.get? id' = some st₀ ∧ st.hasPendingSend = st₀.hasPendingSend ∧
        (id' = id ∧ st.state = next ∨ st.state = st₀.state) := by
    intro id' st hst
    rw [StreamTable.get?_modify] at hst
    split at hst
    · rename_i heq
      obtain ⟨st₀, hst₀, rfl⟩ := Option.map_eq_some_iff.mp hst
      exact ⟨st₀, heq ▸ hst₀, rfl, .inl ⟨heq, rfl⟩⟩
    · exact ⟨st, hst, rfl, .inr rfl⟩
  refine ⟨⟨h.complete, h.uncancelled, h.draining, h.odd, h.next, fun id' live => ?_⟩, ?_, ?_⟩
  · obtain ⟨st, hst⟩ := Option.isSome_iff_exists.mp live
    obtain ⟨st₀, hst₀, -⟩ := here id' st hst
    exact h.known id' (by rw [hst₀]; rfl)
  · exact h.ring.modified id fun _ => ⟨rfl, rfl, rfl⟩
  · intro id' st hst busy
    obtain ⟨st₀, hst₀, eq, ⟨heq, state⟩ | state⟩ := here id' st hst
    · rw [state]
      exact able st₀ (heq ▸ hst₀) (eq ▸ busy)
    · rw [state]
      exact h.able id' st₀ hst₀ (eq ▸ busy)

theorem transition_sparing {state next : StreamState} {event : StreamEvent}
    (sparing : event.sparing = true) (h : state.transition event = .ok next)
    (may : state.maySend = true) : next.maySend = true := by
  cases event with
  | sendRstStream => cases sparing
  | recvRstStream => cases sparing
  | sendHeaders e | sendData e =>
    cases e with
    | true => cases sparing
    | false => cases state <;> cases h <;> exact may
  | recvHeaders e | recvData e =>
    cases state <;> cases e <;> cases h <;> exact may

theorem applyStreamEventWith_keeps (hd : Settles drain) (h : s.Orderly) (id : StreamId)
    {event : StreamEvent} (sparing : event.sparing = true) :
    Keeps (applyStreamEventWith drain id event s) := by
  have others : ∀ id', id' ≠ id → (s.streams.apply id event).1.get? id' = s.streams.get? id' :=
    fun id' other => s.streams.get?_apply_ne event other
  unfold applyStreamEventWith
  simp only [ends_bind, ends_get, ends_onCore]
  cases hr : (s.streams.apply id event).2 with
  | ok next =>
    simp only [ends_ite, ends_unready, ends_pure]
    refine ⟨fun closed => ?_, fun goesOn => ?_⟩
    · exact h.gone rfl (StreamTable.apply_closed hr closed) others rfl rfl rfl rfl
        (StreamTable.apply_highestLocalId _ _ _)
    · have goesOn : next.isClosed = false := by simpa using goesOn
      rw [StreamTable.apply_ok hr goesOn]
      refine h.advanced id next fun st hst busy => ?_
      have legal : st.state.transition event = .ok next := by
        unfold StreamTable.apply at hr
        rw [hst] at hr
        dsimp only at hr
        cases ht : st.state.transition event with
        | error code => rw [ht] at hr; cases hr
        | ok next' => rw [ht] at hr; rw [Except.ok.inj hr]
      exact transition_sparing sparing legal (h.able id st hst busy)
  | error e =>
    simp only [ends_ite, ends_fail]
    refine ⟨fun _ => trivial, fun _ => failStreamWith_keeps hd ?_ id 502⟩
    rw [StreamTable.apply_error hr]
    exact h

/-! ## Putting a stream on the ring -/

/-- A stream is changed in what the ids and the queue do not depend on. -/
theorem Startable.modify (h : s.Startable) (id : StreamId) (f : Stream → Stream)
    (ready : List StreamId) : Startable { s with
      toUpstreamCore := s.modifyStream id f, ready } := by
  refine ⟨h.complete, h.uncancelled, h.draining, h.odd, h.next, fun id' live => h.known id' ?_⟩
  show (s.streams.live.lookup id').isSome = true
  rw [← AList.lookup_modify_isSome s.streams.live id id' f]
  exact live

/-- A stream that may send is given more to send. -/
theorem Able.modify (h : s.Able) {f : Stream → Stream} {c : UpstreamCore}
    (hc : c.streams = s.streams.modify id f)
    (keeps : ∀ st, s.streams.get? id = some st → (f st).state = st.state)
    (able : ∀ st, s.streams.get? id = some st → (f st).hasPendingSend = true →
      st.state.maySend = true) (ready : List StreamId) :
    Able { s with toUpstreamCore := c, ready } := by
  intro id' st hst busy
  replace hst : c.streams.get? id' = some st := hst
  rw [hc, StreamTable.get?_modify] at hst
  split at hst
  · obtain ⟨st₀, hst₀, rfl⟩ := Option.map_eq_some_iff.mp hst
    rw [keeps st₀ hst₀]
    exact able st₀ hst₀ busy
  · exact h id' st hst busy

/-- A change that only adds to what a live stream has to send, and what follows it. -/
theorem enqueueReady_orders (h : s.Orderly) {f : Stream → Stream}
    (gives : ∀ st, s.streams.get? id = some st → Lap.Gives st f)
    (keeps : ∀ st, s.streams.get? id = some st → (f st).state = st.state)
    (able : ∀ st, s.streams.get? id = some st → (f st).hasPendingSend = true →
      st.state.maySend = true) :
    Orders (enqueueReady id (s.withCore (s.modifyStream id f))) := by
  have here : (s.withCore (s.modifyStream id f)).streams.get? id = (s.streams.get? id).map f := by
    show (s.streams.modify id f).get? id = _
    rw [StreamTable.get?_modify, if_pos rfl]
  have given := Able.modify (c := s.modifyStream id f) h.able rfl keeps able
  unfold enqueueReady
  simp only [ends_bind, ends_get]
  rw [here]
  cases hs : s.streams.get? id with
  | none =>
    refine ⟨h.toStartable.modify id f s.ready, ?_, given s.ready⟩
    show Ring (s.streams.modify id f) s.ready
    rw [StreamTable.modify_of_none f hs]
    exact h.ring
  | some st =>
    simp only [Option.map_some, ends_ite, ends_pure, ends_bind, ends_onCore, ends_modify]
    refine ⟨fun stays => ⟨h.toStartable.modify id f s.ready, ?_, given s.ready⟩,
      fun goes => ⟨?_, ?_, ?_⟩⟩
    · exact Lap.settled h.ring hs (gives st hs) stays
    · exact (h.toStartable.modify id f s.ready).modify id ({ · with queued := true }) _
    · exact Lap.waiting h.ring hs (gives st hs) (by simpa using goes)
    · refine Able.modify (f := fun st => { f st with queued := true }) h.able ?_ keeps able _
      exact StreamTable.modify_modify _ _ _ _

theorem sendWaiting_orders (h : s.Orderly) {p : Pending} {st : Stream}
    (hst : s.streams.get? id = some st) (empty : st.sendQueue = []) (noEnd : st.sendEndStream = false)
    (may : p.endStream = false → st.state.maySend = true)
    (complete : p.endStream = true → p.body = [] ∧ p.trailers = none)
    (noTrailers : st.pendingTrailers = none) : Orders (sendWaiting p id s) := by
  unfold sendWaiting
  simp only [ends_bind, ends_onCore]
  refine enqueueReady_orders h (fun st' hst' => ⟨fun _ => ?_, rfl, fun busy => ?_⟩) (fun _ _ => rfl)
    fun st' hst' busy => ?_
  all_goals obtain rfl : st = st' := Option.some.inj (hst.symm.trans hst')
  · show [] ∉ st.sendQueue ++ (p.body.map Prod.fst).filter (· ≠ [])
    rw [empty, List.nil_append]
    simp
  · unfold Stream.hasPendingSend at busy
    rw [empty, noEnd, noTrailers] at busy
    simp at busy
  · refine may ?_
    by_contra he
    obtain ⟨noBody, noFields⟩ := complete (by simpa using he)
    unfold Stream.hasPendingSend at busy
    rw [noBody, noFields, empty, noEnd, noTrailers] at busy
    simp at busy

/-! ## Starting a request -/

/-- A stream with nothing to send, whose end has not gone out where `endStream` is false. -/
def Begun (endStream : Bool) (st : Stream) : Prop :=
  st.sendQueue = [] ∧ st.sendEndStream = false ∧ st.pendingTrailers = none ∧
    (endStream = false → st.state.maySend = true)

/-- While streams may be opened, the next id opens one. -/
theorem Startable.opens (h : s.Startable) (room : s.streams.canOpenLocal = true) :
    (StreamId.new s.nextStreamId).get = s.nextStreamId ∧ s.nextStreamId + 2 ≤ u32Max ∧
      s.streams.openLocal (.new s.nextStreamId) =
        ({ s.streams with highestLocalId := .new s.nextStreamId }.insertNew (.new s.nextStreamId),
          .ok ()) := by
  unfold StreamTable.canOpenLocal maxLocalStreamId at room
  rw [Bool.and_eq_true, decide_eq_true_eq, decide_eq_true_eq] at room
  have odd := h.odd
  obtain ⟨above, close⟩ := h.next
  have fits : s.nextStreamId < 2 ^ 31 := by omega
  have here : (StreamId.new s.nextStreamId).get = s.nextStreamId := Nat.mod_eq_of_lt fits
  refine ⟨here, by unfold u32Max; omega, ?_⟩
  have client : (StreamId.new s.nextStreamId).isClientInitiated = true := by
    unfold StreamId.isClientInitiated
    rw [here, odd]
    simp
    omega
  have fresh : ¬ StreamId.new s.nextStreamId ≤ s.streams.highestLocalId := by
    rw [StreamId.le_def, here]
    omega
  unfold StreamTable.openLocal
  rw [if_neg (by simp [client]), if_neg fresh, if_neg (by omega)]

/-- A new stream enters, under the next id. -/
theorem Orderly.opened (h : s.Orderly) (room : s.streams.canOpenLocal = true)
    {c : UpstreamCore} (streams : c.streams = (s.streams.openLocal (.new s.nextStreamId)).1)
    (next : c.nextStreamId = satAdd32 s.nextStreamId 2) (pending : c.pending = s.pending)
    (cancelled : c.cancelled = s.cancelled) (peerDraining : c.peerDraining = s.peerDraining) :
    Orderly (s.withCore c) := by
  obtain ⟨here, small, opens⟩ := h.opens room
  rw [opens] at streams
  have fresh : s.streams.get? (.new s.nextStreamId) = none := by
    by_contra live
    have := h.known _ (Option.isSome_iff_ne_none.mpr live)
    rw [StreamId.le_def, here] at this
    have := h.next.1
    omega
  have get : ∀ id, c.streams.get? id = if id = .new s.nextStreamId then
      some (.new s.streams.initialSendWindow s.streams.initialRecvWindow) else s.streams.get? id := by
    intro id
    rw [streams, StreamTable.get?_insertNew]
    rfl
  have top : c.streams.highestLocalId = .new s.nextStreamId := by
    rw [streams]
    rfl
  have number : c.nextStreamId = s.nextStreamId + 2 := by rw [next, satAdd32_eq small]
  refine ⟨⟨?_, ?_, ?_, ?_, ?_, fun id live => ?_⟩, ?_, fun id st hst busy => ?_⟩
  · exact pending ▸ h.complete
  · intro p hp
    rw [show (s.withCore c).cancelled = s.cancelled from cancelled]
    exact h.uncancelled p (pending ▸ hp)
  · rw [show (s.withCore c).peerDraining = s.peerDraining from peerDraining,
      show (s.withCore c).pending = s.pending from pending]
    exact h.draining
  · show c.nextStreamId % 2 = 1
    rw [number, Nat.add_mod_right]
    exact h.odd
  · show c.streams.highestLocalId.get < c.nextStreamId ∧ c.nextStreamId ≤ c.streams.highestLocalId.get + 2
    rw [top, number, here]
    omega
  · replace live : (c.streams.get? id).isSome := live
    show id ≤ c.streams.highestLocalId
    rw [top, StreamId.le_def, here]
    rw [get] at live
    split at live
    · rename_i heq
      rw [heq, here]
    · have := StreamId.le_def.mp (h.known id live)
      have := h.next.1
      omega
  · refine Lap.opened h.ring fresh ((get _).trans (if_pos rfl)) (fun id' other => ?_) rfl rfl rfl
    exact (get id').trans (if_neg other)
  · replace hst : c.streams.get? id = some st := hst
    rw [get] at hst
    split at hst
    · cases hst
      cases busy
    · exact h.able id st hst busy

/-- The HEADERS of a request go out on the stream that was opened for it. -/
theorem sendHeaders_orders (h : s.Orderly) {st : Stream} {endStream : Bool}
    (hst : s.streams.get? id = some st) (idle : st.state = .idle) (fresh : Begun false st) :
    Ends (applyStreamEventWith drain id (.sendHeaders endStream) s)
      (fun _ t => t.Orderly ∧ t.requests = s.requests ∧
        ∃ st, t.streams.get? id = some st ∧ Begun endStream st)
      fun _ => Orderly := by
  have legal : st.state.transition (.sendHeaders endStream) =
      .ok (if endStream then .halfClosedLocal else .open_) := by
    rw [idle]
    rfl
  have goesOn : (if endStream then StreamState.halfClosedLocal else .open_).isClosed = false := by
    cases endStream <;> rfl
  have hr : (s.streams.apply id (.sendHeaders endStream)).2 =
      .ok (if endStream then .halfClosedLocal else .open_) := by
    unfold StreamTable.apply
    rw [hst]
    dsimp only
    rw [legal]
  unfold applyStreamEventWith
  simp only [ends_bind, ends_get, ends_onCore, hr, ends_ite, ends_unready, ends_pure]
  refine ⟨fun closed => absurd closed (by simp [goesOn]), fun _ => ?_⟩
  rw [StreamTable.apply_ok hr goesOn]
  refine ⟨h.advanced id _ fun st' hst' busy => ?_, rfl,
    { st with state := if endStream then .halfClosedLocal else .open_ }, ?_, ?_⟩
  · obtain rfl : st = st' := Option.some.inj (hst.symm.trans hst')
    unfold Stream.hasPendingSend at busy
    rw [fresh.1, fresh.2.1, fresh.2.2.1] at busy
    simp at busy
  · show (s.streams.modify id _).get? id = _
    rw [StreamTable.get?_modify, if_pos rfl, hst]
    rfl
  · refine ⟨fresh.1, fresh.2.1, fresh.2.2.1, fun goes => ?_⟩
    rw [goes]
    rfl

/-- A request that may be started gets a stream of its own. -/
theorem sendRequestWith_starts (h : s.Orderly) {request : RequestId} {clientId : StreamId}
    {head : RequestHead} {endStream : Bool} {events : Events} (wanted : request ∉ s.cancelled)
    (steady : s.peerDraining = none) (room : s.streams.canOpenLocal = true) :
    Ends (sendRequestWith drain request clientId head endStream events s)
      (fun _ t => t.Orderly ∧ ∃ id st, t.requests.lookup request = some id ∧
        t.streams.get? id = some st ∧ Begun endStream st)
      fun _ => Orderly := by
  obtain ⟨-, -, opens⟩ := h.opens room
  unfold sendRequestWith
  simp only [ends_bind, ends_get]
  rw [if_neg wanted, if_neg (by simp [steady]), if_neg (by simp [room])]
  simp only [ends_bind, ends_onCore]
  rw [show (s.streams.openLocal (.new s.nextStreamId)).2 = .ok () from congrArg Prod.snd opens]
  simp only [ends_bind, ends_onCore]
  have opened : Orderly (s.withCore { s.toUpstreamCore with
      nextStreamId := satAdd32 s.nextStreamId 2
      streams := (s.streams.openLocal (.new s.nextStreamId)).1
      routes := s.routes.insert (.new s.nextStreamId) ⟨clientId, events, request, false, 0⟩
      requests := s.requests.insert request (.new s.nextStreamId)
      log := s.log ++ [.opened (.new s.nextStreamId) s.streams.liveCount] }) :=
    h.opened room rfl rfl rfl rfl rfl
  refine ((queueHeaders_stays _ _ _ _).and (queueHeaders_notes _ _ _ _)).mono ?_
    fun _ t ht => opened.still ht.1
  rintro - t ⟨still, noted⟩
  have hst : t.streams.get? (.new s.nextStreamId) =
      some (.new s.streams.initialSendWindow s.streams.initialRecvWindow) := by
    rw [noted.streams]
    show (s.streams.openLocal (.new s.nextStreamId)).1.get? _ = _
    rw [opens, StreamTable.get?_insertNew, if_pos rfl]
  have requests : t.requests = s.requests.insert request (.new s.nextStreamId) := by
    obtain ⟨notes, -, ht⟩ := noted
    rw [ht]
    rfl
  refine (sendHeaders_orders (opened.still still) hst rfl ⟨rfl, rfl, rfl, fun _ => rfl⟩).mono ?_
    fun _ _ hu => hu
  rintro - u ⟨hu, same, st, here, begun⟩
  refine ⟨hu, _, st, ?_, here, begun⟩
  rw [same, requests]
  exact AList.lookup_insert _

theorem sendRequestWith_orders (h : s.Orderly) (request : RequestId) (clientId : StreamId)
    (head : RequestHead) (endStream : Bool) (events : Events) :
    Orders (sendRequestWith drain request clientId head endStream events s) := by
  by_cases wanted : request ∈ s.cancelled
  · unfold sendRequestWith
    simp only [ends_bind, ends_get, if_pos wanted]
    refine ⟨⟨h.complete, fun p hp => ?_, h.draining, h.odd, h.next, h.known⟩, h.ring, h.able⟩
    exact fun member => h.uncancelled p hp (List.mem_filter.mp member).1
  by_cases draining : s.peerDraining.isSome = true
  · unfold sendRequestWith
    simp only [ends_bind, ends_get, if_neg wanted, if_pos draining]
    exact h.still ⟨rfl, .refl _, rfl, rfl, rfl, rfl, rfl⟩
  by_cases room : s.streams.canOpenLocal = true
  · exact (sendRequestWith_starts h wanted (by simpa using draining) room).mono
      (fun _ _ ht => ht.1) fun _ _ ht => ht
  · unfold sendRequestWith
    simp only [ends_bind, ends_get, if_neg wanted, if_neg draining]
    rw [if_pos (by simpa using room)]
    simp only [ends_ite]
    refine ⟨fun _ => ?_, fun _ => ?_⟩
    · exact h.still ⟨rfl, .refl _, rfl, rfl, rfl, rfl, rfl⟩
    · refine ⟨⟨fun p hp => ?_, fun p hp => ?_, fun some => absurd some draining, h.odd, h.next,
        h.known⟩, h.ring, h.able⟩
      all_goals obtain hp | hp := List.mem_append.mp hp
      · exact h.complete p hp
      · rw [List.mem_singleton.mp hp]
        exact fun _ => ⟨rfl, rfl⟩
      · exact h.uncancelled p hp
      · rw [List.mem_singleton.mp hp]
        exact wanted

theorem drainPendingFrom_orders (fuel : Nat) : Settles (drainPendingFrom fuel) := by
  induction fuel with
  | zero => exact fun s h => h
  | succ fuel ih =>
    intro s h
    unfold drainPendingFrom
    rw [Orders, ends_bind, ends_get, ends_ite]
    refine ⟨fun room => ?_, fun _ => h⟩
    cases hp : s.pending with
    | nil => exact h.still ⟨rfl, .refl _, rfl, rfl, rfl, rfl, rfl⟩
    | cons p pending =>
      dsimp only
      rw [ends_bind, ends_onCore, ends_bind, syncQueued, ends_onCore]
      have first : p ∈ s.pending := hp ▸ List.mem_cons_self
      have rest : ∀ q ∈ pending, q ∈ s.pending := fun q hq => hp ▸ List.mem_cons_of_mem p hq
      have steady : s.peerDraining = none := by
        by_contra draining
        have := h.draining (Option.isSome_iff_ne_none.mpr draining)
        rw [hp] at this
        cases this
      generalize ht : (s.withCore { s.toUpstreamCore with pending }).withCore _ = t
      have taken : t.Orderly := by
        rw [← ht]
        exact ⟨⟨fun q hq => h.complete q (rest q hq), fun q hq => h.uncancelled q (rest q hq),
          fun draining => absurd draining (by
            show ¬ s.peerDraining.isSome
            rw [steady]
            exact Bool.false_ne_true), h.odd, h.next, h.known⟩, h.ring, h.able⟩
      rw [ends_bind]
      refine (sendRequestWith_starts taken ?_ ?_ ?_).mono ?_ fun _ _ hu => hu
      · rw [← ht]
        exact h.uncancelled p first
      · rw [← ht]
        exact steady
      · rw [← ht]
        exact room
      · rintro - u ⟨hu, id, st, requests, hst, begun⟩
        rw [ends_bind, ends_get, requests]
        refine Orders.bind (sendWaiting_orders hu hst begun.1 begun.2.1 begun.2.2.2
          (h.complete p first) begun.2.2.1) fun _ v hv => ih v hv

theorem drainPending_orders : Settles drainPending := by
  intro s h
  unfold drainPending
  rw [Orders, ends_bind, ends_get]
  exact drainPendingFrom_orders _ s h

theorem forget_orders (h : s.Orderly) (id : StreamId) : Orders (forget id s) :=
  forgetWith_orders drainPending_orders h id

theorem failStream_keeps (h : s.Orderly) (id : StreamId) (status : Nat) :
    Keeps (failStream id status s) :=
  failStreamWith_keeps drainPending_orders h id status

theorem applyStreamEvent_keeps (h : s.Orderly) (id : StreamId) {event : StreamEvent}
    (sparing : event.sparing = true) : Keeps (applyStreamEvent id event s) :=
  applyStreamEventWith_keeps drainPending_orders h id sparing

/-! ## Messages -/

theorem mem_modifyPending {r : RequestId} {f : Pending → Pending} {p : Pending}
    (h : p ∈ (s.modifyPending r f).pending) :
    p ∈ s.pending ∨ ∃ q, s.pending.find? (·.request = r) = some q ∧ p = f q := by
  replace h : p ∈ s.pending.replaceF fun p => if p.request = r then some (f p) else none := h
  generalize s.pending = pending at h ⊢
  induction pending with
  | nil => cases h
  | cons q pending ih =>
    by_cases own : q.request = r
    · simp only [List.replaceF, if_pos own] at h
      obtain rfl | h := List.mem_cons.mp h
      · exact .inr ⟨q, by rw [List.find?_cons_of_pos (by simpa using own)], rfl⟩
      · exact .inl (List.mem_cons_of_mem _ h)
    · simp only [List.replaceF, if_neg own] at h
      rw [List.find?_cons_of_neg (by simpa using own)]
      obtain rfl | h := List.mem_cons.mp h
      · exact .inl List.mem_cons_self
      · exact (ih h).imp (List.mem_cons_of_mem _) id

/-- A request that waits, and whose end has not arrived, is given more of its message. -/
theorem Orderly.amended (h : s.Orderly) {r : RequestId} {f : Pending → Pending}
    (keeps : ∀ p, (f p).request = p.request ∧ (f p).endStream = p.endStream)
    (goes : (s.pending.find? (·.request = r)).any Pending.ended = false) :
    Orderly (s.withCore (s.modifyPending r f)) := by
  refine ⟨⟨fun p hp => ?_, fun p hp => ?_, fun draining => ?_, h.odd, h.next, h.known⟩, h.ring,
    h.able⟩
  · obtain hp | ⟨q, hq, rfl⟩ := mem_modifyPending hp
    · exact h.complete p hp
    · rw [hq] at goes
      intro ended
      rw [(keeps q).2] at ended
      replace goes : q.ended = false := goes
      unfold Pending.ended at goes
      rw [ended] at goes
      cases goes
  · obtain hp | ⟨q, hq, rfl⟩ := mem_modifyPending hp
    · exact h.uncancelled p hp
    · rw [(keeps q).1]
      exact h.uncancelled q (List.mem_of_find?_eq_some hq)
  · show s.pending.replaceF _ = []
    rw [h.draining draining]
    rfl

theorem maySend_of_not_ended {st : Stream} (h : st.ended = false) : st.state.maySend = true := by
  unfold Stream.ended at h
  simp_all

theorem handleMessage_keeps (h : s.Orderly) {m : ToUpstream} (inOrder : s.inOrder (.message m) = true) :
    Keeps (handleMessage m s) := by
  unfold handleMessage
  rw [Keeps, ends_bind, ends_onCore]
  have took : Orderly (s.withCore (s.toUpstreamCore.observe (.took m))) :=
    h.still ⟨rfl, .refl _, rfl, rfl, rfl, rfl, rfl⟩
  have kept : (s.withCore (s.observe (.took m))).requests = s.requests := rfl
  cases m with
  | request id clientId head endStream events =>
    exact (sendRequestWith_orders took id clientId head endStream events).keeps
  | body request data endStream =>
    have goes : s.ended request = false := by simpa [Upstream.inOrder] using inOrder
    unfold UpstreamCore.ended at goes
    dsimp only
    rw [ends_bind, ends_get]
    rw [kept]
    cases hr : s.requests.lookup request with
    | none =>
      rw [hr] at goes
      exact took.amended (fun _ => ⟨rfl, rfl⟩) goes
    | some id =>
      rw [hr] at goes
      dsimp only at goes ⊢
      rw [ends_bind, ends_onCore]
      refine (enqueueReady_orders took (fun st _ => .body st data endStream) (fun _ _ => rfl)
        fun st hst _ => maySend_of_not_ended ?_).keeps
      rw [show s.streams.get? id = some st from hst] at goes
      exact goes
  | trailers request fields =>
    have goes : s.ended request = false := by simpa [Upstream.inOrder] using inOrder
    unfold UpstreamCore.ended at goes
    dsimp only
    rw [ends_bind, ends_get]
    rw [kept]
    cases hr : s.requests.lookup request with
    | none =>
      rw [hr] at goes
      exact took.amended (fun _ => ⟨rfl, rfl⟩) goes
    | some id =>
      rw [hr] at goes
      dsimp only at goes ⊢
      rw [ends_bind, ends_onCore]
      refine (enqueueReady_orders took (fun st _ => .ending st fun _ => some fields)
        (fun _ _ => rfl) fun st hst _ => maySend_of_not_ended ?_).keeps
      rw [show s.streams.get? id = some st from hst] at goes
      exact goes
  | released request n =>
    dsimp only
    rw [ends_bind, ends_get]
    rw [kept]
    cases s.requests.lookup request with
    | none => exact took
    | some id => exact ((release_stays _ id n).orders took).keeps
  | cancel request code =>
    dsimp only
    rw [ends_bind, ends_get]
    rw [kept]
    cases s.requests.lookup request with
    | none =>
      rw [ends_bind, ends_onCore, ends_bind, syncQueued, ends_onCore, ends_onCore]
      have kept : ∀ p ∈ s.pending.filter (·.request ≠ request), p ∈ s.pending ∧ p.request ≠ request :=
        fun p hp => by simpa using List.mem_filter.mp hp
      refine ⟨⟨fun p hp => h.complete p (kept p hp).1, fun p hp member => ?_, fun draining => ?_,
        h.odd, h.next, h.known⟩, h.ring, h.able⟩
      · obtain same | member := List.mem_insert_iff.mp member
        · exact (kept p hp).2 same
        · exact h.uncancelled p (kept p hp).1 member
      · show s.pending.filter _ = []
        rw [h.draining draining]
        rfl
    | some id =>
      dsimp only
      rw [ends_bind, ends_get, ends_ite]
      refine ⟨fun _ => ?_, fun _ => (forget_orders took id).keeps⟩
      rw [ends_bind]
      exact (writeRstStream_orders took id code).mono (fun _ t ht => (forget_orders ht id).keeps)
        fun _ _ _ => trivial

/-! ## Frames -/

theorem refusePending_orders (h : s.Orderly) (ps : List Pending) : Orders (refusePending ps s) := by
  induction ps generalizing s with
  | nil => exact h
  | cons p ps ih =>
    unfold refusePending
    rw [Orders, ends_bind, ends_tell]
    exact ih (h.still ⟨rfl, .refl _, rfl, rfl, rfl, rfl, rfl⟩)

theorem abandon_orders (h : s.Orderly) (ids : List StreamId) : Orders (abandon ids s) := by
  induction ids generalizing s with
  | nil => exact h
  | cons id ids ih =>
    unfold abandon
    rw [Orders, ends_bind, ends_get]
    have rest : ∀ t : Upstream, t.Orderly → Orders ((do forget id; abandon ids : UpM Unit) t) :=
      fun t ht => Orders.bind (forget_orders ht id) fun _ u hu => ih hu
    cases s.routes.lookup id with
    | none => exact rest s h
    | some route => exact rest _ (h.still ⟨rfl, .refl _, rfl, rfl, rfl, rfl, rfl⟩)

theorem beginPeerDrain_orders (h : s.Orderly) (last : StreamId) :
    Orders (beginPeerDrain last s) := by
  unfold beginPeerDrain
  rw [Orders, ends_bind, ends_get, ends_bind, ends_onCore]
  refine Orders.bind (refusePending_orders ?_ _) fun _ t ht => abandon_orders ht _
  exact ⟨⟨nofun, nofun, fun _ => rfl, h.odd, h.next, h.known⟩, h.ring, h.able⟩

theorem recvResponse_keeps (h : s.Orderly) (id : StreamId) (headers : List Header)
    (endStream : Bool) : Keeps (recvResponse id headers endStream s) := by
  have finish : ∀ t : Upstream, t.Orderly → Keeps ((do
      applyStreamEvent id (.recvHeaders endStream)
      if endStream then forget id else pure () : UpM Unit) t) := by
    intro t ht
    refine Keeps.bind (applyStreamEvent_keeps ht id rfl) fun _ u hu => ?_
    cases endStream with
    | true => exact (forget_orders hu id).keeps
    | false => exact hu
  have still : ∀ t : Upstream, t.Orderly → ∀ c : UpstreamCore, Still t (t.withCore c) →
      Orderly (t.withCore c) := fun t ht c same => ht.still same
  unfold recvResponse
  rw [Keeps, ends_bind, ends_get]
  cases s.streams.lookup id with
  | idle => trivial
  | live stream | closed =>
    cases s.routes.lookup id with
    | none => exact h
    | some route =>
      dsimp only
      unfold passSection
      rw [ends_ite]
      refine ⟨fun _ => ?_, fun _ => ?_⟩
      · cases validateTrailers headers with
        | error code => exact finish s h
        | ok =>
          dsimp only
          rw [ends_bind, ends_tell]
          exact finish _ (h.still ⟨rfl, .refl _, rfl, rfl, rfl, rfl, rfl⟩)
      · cases ResponseHead.fromHeaders headers with
        | error code => exact failStream_keeps h id 502
        | ok head =>
          dsimp only
          rw [ends_ite]
          refine ⟨fun _ => applyStreamEvent_keeps h id rfl, fun _ => ?_⟩
          rw [ends_bind, ends_onCore, ends_bind, ends_tell]
          exact finish _ (h.still ⟨rfl, .refl _, rfl, rfl, rfl, rfl, rfl⟩)

theorem readHeaderBlock_keeps (h : s.Orderly) (id : StreamId) (fragment : Bytes)
    (endHeaders : Bool) : Keeps (readHeaderBlock id fragment endHeaders s) := by
  unfold readHeaderBlock
  simp only [ends_bind, ends_get, ends_ite, ends_modify]
  have read : ∀ hpackDec, Orderly { s with headerBlock := [], hpackDec } := fun _ =>
    h.still ⟨rfl, .refl _, rfl, rfl, rfl, rfl, rfl⟩
  refine ⟨fun _ => trivial, fun _ => ⟨fun _ => ?_, fun _ => ?_⟩⟩
  · exact h.still ⟨rfl, .refl _, rfl, rfl, rfl, rfl, rfl⟩
  · cases (s.hpackDec.decode (s.headerBlock ++ fragment)).2 with
    | ok headers =>
      simp only [ends_bind, ends_get]
      exact recvResponse_keeps (read _) id headers _
    | error e =>
      cases e with
      | headerListTooLarge size limit => exact failStream_keeps (read _) id 502
      | _ => trivial

theorem recvData_keeps (h : s.Orderly) (id : StreamId) (data : Bytes) (endStream : Bool) :
    Keeps (recvData id data endStream s) := by
  have finish : ∀ t : Upstream, t.Orderly → Keeps ((do
      applyStreamEvent id (.recvData endStream)
      if endStream then forget id else pure () : UpM Unit) t) := by
    intro t ht
    refine Keeps.bind (applyStreamEvent_keeps ht id rfl) fun _ u hu => ?_
    cases endStream with
    | true => exact (forget_orders hu id).keeps
    | false => exact hu
  unfold recvData
  simp only [ends_bind, ends_get]
  cases s.connRecvWindow.record data.length with
  | error code => trivial
  | ok window =>
    simp only [ends_bind, ends_get, ends_onCore]
    have ht : Orderly (s.withCore { s.toUpstreamCore with connRecvWindow := window }) :=
      h.still ⟨rfl, .refl _, rfl, rfl, rfl, rfl, rfl⟩
    generalize s.withCore { s.toUpstreamCore with connRecvWindow := window } = t at ht ⊢
    cases t.streams.lookup id with
    | idle => trivial
    | closed => exact ((releaseConnWindow_stays t _).orders ht).keeps
    | live stream =>
      dsimp only
      cases stream.recvWindow.record data.length with
      | error code =>
        exact Keeps.bind (writeRstStream_orders ht id _).keeps fun _ u hu => failStream_keeps hu id 502
      | ok recvWindow =>
        dsimp only
        rw [ends_bind, ends_onCore]
        have hu : Orderly (t.withCore (t.modifyStream id ({ · with recvWindow }))) :=
          ht.still (.modify id fun _ _ => rfl)
        generalize t.withCore (t.modifyStream id ({ · with recvWindow })) = u at hu ⊢
        rw [ends_bind, ends_get]
        cases u.routes.lookup id with
        | none => exact finish u hu
        | some route =>
          dsimp only
          rw [ends_bind, ends_onCore, ends_bind, ends_tell]
          exact finish _ (hu.still ⟨rfl, .refl _, rfl, rfl, rfl, rfl, rfl⟩)

theorem recvWindowUpdate_keeps (h : s.Orderly) (id : StreamId) (increment : Nat) :
    Keeps (recvWindowUpdate id increment s) := by
  unfold recvWindowUpdate
  simp only [ends_ite, ends_bind, ends_get]
  refine ⟨fun _ => ⟨fun _ => trivial, fun _ => (writeRstStream_orders h id _).keeps⟩,
    fun _ => ⟨fun _ => ?_, fun _ => ?_⟩⟩
  · cases s.connSendWindow.increase increment with
    | error code => trivial
    | ok window => exact h.still ⟨rfl, .refl _, rfl, rfl, rfl, rfl, rfl⟩
  · cases hl : s.streams.lookup id with
    | idle => trivial
    | closed => exact h
    | live stream =>
      dsimp only
      cases stream.sendWindow.increase increment with
      | error code => exact (writeRstStream_orders h id _).keeps
      | ok sendWindow =>
        simp only [ends_bind, ends_onCore]
        refine Orders.keeps ?_
        exact enqueueReady_orders h (fun st _ => ⟨fun chunks => chunks, rfl, fun busy => busy⟩)
          (fun _ _ => rfl) fun st hst busy => h.able id st hst busy

theorem recvRstStream_keeps (h : s.Orderly) (id : StreamId) (code : ErrorCode) :
    Keeps (recvRstStream id code s) := by
  unfold recvRstStream
  rw [Keeps, ends_bind, ends_get]
  cases s.routes.lookup id with
  | none => exact (forget_orders h id).keeps
  | some route =>
    dsimp only
    rw [ends_bind, ends_tell]
    refine (forget_orders ?_ id).keeps
    exact h.still ⟨rfl, .refl _, rfl, rfl, rfl, rfl, rfl⟩

theorem recvSettings_keeps (h : s.Orderly) (params : List (UInt16 × UInt32)) :
    Keeps (recvSettings params s) := by
  have shift : ∀ t : Upstream, t.Orderly → ∀ delta : Int, Keeps (shiftWindows delta t) := by
    intro t ht delta
    rw [Keeps, shiftWindows, ends_ite]
    refine ⟨fun _ => ?_, fun _ => ((queueFrame_stays t _).orders ht).keeps⟩
    simp only [ends_bind, ends_get, ends_onCore]
    cases (t.streams.applyInitialWindowDelta delta).2 with
    | error code => trivial
    | ok =>
      refine ((queueFrame_stays _ _).orders (ht.still ?_)).keeps
      exact ⟨rfl, .applyInitialWindowDelta _ _, rfl, rfl, rfl, rfl, rfl⟩
  unfold recvSettings
  simp only [ends_bind, ends_get, ends_modify]
  cases (s.peerSettings.apply params).2 with
  | error e => trivial
  | ok =>
    simp only [ends_bind, ends_modify]
    cases (s.peerSettings.apply params).1.maxConcurrentStreams with
    | none =>
      dsimp only
      refine shift _ ?_ _
      exact h.still ⟨rfl, .refl _, rfl, rfl, rfl, rfl, rfl⟩
    | some max =>
      simp only [ends_bind, ends_onCore]
      refine shift _ ?_ _
      exact h.still ⟨rfl, .of_get? fun _ => rfl, rfl, rfl, rfl, rfl, rfl⟩

theorem handleFrame_keeps (h : s.Orderly) (frame : Frame) : Keeps (handleFrame frame s) := by
  unfold handleFrame
  rw [Keeps, ends_bind, ends_get]
  cases s.headerBlockError frame with
  | some e => trivial
  | none =>
    cases frame with
    | settings ack params =>
      cases ack with
      | true => exact h
      | false => exact recvSettings_keeps h params
    | ping data ack =>
      cases ack with
      | false => exact ((queueFrame_stays s _).orders h).keeps
      | true =>
        dsimp only
        simp only [ends_ite, ends_modify, ends_pure]
        refine ⟨nofun, fun _ => ⟨fun _ => ?_, fun _ => h⟩⟩
        exact h.still ⟨rfl, .refl _, rfl, rfl, rfl, rfl, rfl⟩
    | goAway last code debug => exact (beginPeerDrain_orders h last).keeps
    | windowUpdate id increment => exact recvWindowUpdate_keeps h id increment
    | headers id block endStream endHeaders =>
      simp only [ends_bind, ends_modify]
      have read : Orderly { s with openHeaderEndStream := endStream } :=
        h.still ⟨rfl, .refl _, rfl, rfl, rfl, rfl, rfl⟩
      refine (readHeaderBlock_keeps read id block endHeaders).mono (fun _ t ht => ?_) fun _ _ h => h
      exact ht.still ⟨rfl, .refl _, rfl, rfl, rfl, rfl, rfl⟩
    | continuation id block endHeaders =>
      simp only [ends_bind, ends_modify]
      refine (readHeaderBlock_keeps h id block endHeaders).mono (fun _ t ht => ?_) fun _ _ h => h
      exact ht.still ⟨rfl, .refl _, rfl, rfl, rfl, rfl, rfl⟩
    | data id data endStream => exact recvData_keeps h id data endStream
    | rstStream id code => exact recvRstStream_keeps h id code

theorem recvWire_keeps (h : s.Orderly) (w : WireFrame) : Keeps (recvWire w s) := by
  unfold recvWire
  simp only [ends_bind, ends_onCore, ends_get, ends_ite]
  have ht : Orderly (s.withCore (s.toUpstreamCore.observe (.heard w))) :=
    h.still ⟨rfl, .refl _, rfl, rfl, rfl, rfl, rfl⟩
  generalize s.withCore (s.toUpstreamCore.observe (.heard w)) = t at ht ⊢
  refine ⟨fun _ => trivial, fun _ => ?_⟩
  cases w.decode with
  | error e => trivial
  | ok decoded =>
    cases decoded with
    | frame frame => exact handleFrame_keeps ht frame
    | ignored kind id =>
      unfold rejectIfMidHeaderBlock
      dsimp only
      rw [ends_bind, ends_get]
      cases t.openHeaderBlock with
      | none => exact ht
      | some open_ => trivial

/-! ## A visit -/

/-- Between two visits of a lap. -/
structure InLap (s : Upstream) (rest kept : List StreamId) : Prop extends Startable s where
  lap : Lap s.streams rest kept
  able : Able s

/-- Only one stream is touched, and it is flagged only with something left that it may send. -/
structure Visits (id : StreamId) (s t : Upstream) : Prop where
  others : ∀ id', id' ≠ id →
    (t.streams.get? id').map Stream.sending = (s.streams.get? id').map Stream.sending
  live : (t.streams.get? id).isSome → (s.streams.get? id).isSome
  chunks : ∀ st, t.streams.get? id = some st → [] ∉ st.sendQueue
  flag : ∀ st, t.streams.get? id = some st → st.queued = true → st.hasPendingSend = true
  able : ∀ st, t.streams.get? id = some st → st.hasPendingSend = true → st.state.maySend = true
  pending : t.pending = s.pending
  cancelled : t.cancelled = s.cancelled
  peerDraining : t.peerDraining = s.peerDraining
  nextStreamId : t.nextStreamId = s.nextStreamId
  highestLocalId : t.streams.highestLocalId = s.streams.highestLocalId

namespace Visits

theorem still (h : Visits id s t) (same : Still t u) : Visits id s u := by
  refine ⟨fun id' other => (same.streams id').trans (h.others id' other), fun live => ?_,
    fun st hst => ?_, fun st hst => ?_, fun st hst => ?_, same.pending.trans h.pending,
    same.cancelled.trans h.cancelled, same.peerDraining.trans h.peerDraining,
    same.nextStreamId.trans h.nextStreamId, same.highestLocalId.trans h.highestLocalId⟩
  · obtain ⟨st, hst⟩ := Option.isSome_iff_exists.mp live
    obtain ⟨st₀, hst₀, -⟩ := same.streams.live hst
    exact h.live (by rw [hst₀]; rfl)
  all_goals obtain ⟨st₀, hst₀, eq⟩ := same.streams.live hst
  · rw [Stream.sendQueue_congr eq]
    exact h.chunks st₀ hst₀
  · rw [Stream.queued_congr eq, Stream.hasPendingSend_congr eq]
    exact h.flag st₀ hst₀
  · rw [Stream.hasPendingSend_congr eq, Stream.state_congr eq]
    exact h.able st₀ hst₀

/-- The stream that is visited changes. -/
theorem modify (h : Visits id s t) {f : Stream → Stream}
    (chunks : ∀ st, t.streams.get? id = some st → [] ∉ (f st).sendQueue)
    (flag : ∀ st, t.streams.get? id = some st → (f st).queued = true →
      (f st).hasPendingSend = true)
    (able : ∀ st, t.streams.get? id = some st → (f st).hasPendingSend = true →
      (f st).state.maySend = true) : Visits id s (t.withCore (t.modifyStream id f)) := by
  have here : ∀ st, (t.streams.modify id f).get? id = some st →
      ∃ st₀, t.streams.get? id = some st₀ ∧ f st₀ = st := by
    intro st hst
    rw [StreamTable.get?_modify, if_pos rfl] at hst
    exact Option.map_eq_some_iff.mp hst
  refine ⟨fun id' other => ?_, fun live => h.live ?_, fun st hst => ?_, fun st hst => ?_,
    fun st hst => ?_, h.pending, h.cancelled, h.peerDraining, h.nextStreamId, h.highestLocalId⟩
  · rw [← h.others id' other]
    show ((t.streams.modify id f).get? id').map _ = _
    rw [StreamTable.get?_modify, if_neg other]
  · obtain ⟨st, hst⟩ := Option.isSome_iff_exists.mp live
    obtain ⟨st₀, hst₀, -⟩ := here st hst
    rw [hst₀]
    rfl
  all_goals obtain ⟨st₀, hst₀, rfl⟩ := here st hst
  · exact chunks st₀ hst₀
  · exact flag st₀ hst₀
  · exact able st₀ hst₀

/-- The stream that is visited goes. -/
theorem gone (h : Visits id s t) {c : UpstreamCore} (ready : List StreamId)
    (gone : c.streams.get? id = none)
    (others : ∀ id', id' ≠ id → c.streams.get? id' = t.streams.get? id')
    (hc : ∃ streams, c = { t.toUpstreamCore with streams })
    (top : c.streams.highestLocalId = t.streams.highestLocalId) :
    Visits id s { t with toUpstreamCore := c, ready } := by
  obtain ⟨streams, rfl⟩ := hc
  have nobody : ∀ {P : Stream → Prop} st, streams.get? id = some st → P st := fun st hst => by
    rw [show streams.get? id = none from gone] at hst
    cases hst
  refine ⟨fun id' other => ?_, fun live => ?_, nobody, nobody, nobody, h.pending, h.cancelled,
    h.peerDraining, h.nextStreamId, top.trans h.highestLocalId⟩
  · rw [← h.others id' other]
    exact congrArg (Option.map Stream.sending) (others id' other)
  · rw [show (({ t with toUpstreamCore := { t.toUpstreamCore with streams }, ready } :
      Upstream).streams.get? id) = none from gone] at live
    cases live

variable {rest kept : List StreamId}

theorem start (h : s.InLap (id :: rest) kept) : Visits id s s := by
  have notKept : id ∉ kept := fun member =>
    (List.nodup_cons.mp h.lap.inStep.nodup).1 (List.mem_append_right rest member)
  refine ⟨fun _ _ => rfl, fun live => live, h.lap.chunks id, fun st hst queued => ?_, h.able id, rfl,
    rfl, rfl, rfl, rfl⟩
  rw [← h.lap.flags id st hst notKept]
  exact queued

/-- After a visit the stream stays in the lap exactly where it has something left to send. -/
theorem inLap (h : Visits id s t) (lap : s.InLap (id :: rest) kept) {more : Bool}
    (busy : (t.streams.get? id).any Stream.hasPendingSend = more) :
    t.InLap rest (if more then id :: kept else kept) := by
  have others : ∀ id' st, id' ≠ id → t.streams.get? id' = some st →
      ∃ st₀, s.streams.get? id' = some st₀ ∧ st.sending = st₀.sending := fun id' st other hst =>
    StreamTable.live_of_sending (hst ▸ h.others id' other)
  refine ⟨⟨?_, ?_, ?_, ?_, ?_, fun id' live => ?_⟩, lap.lap.visited h.others busy h.chunks h.flag,
    fun id' st hst hbusy => ?_⟩
  · rw [h.pending]
    exact lap.complete
  · rw [h.pending, h.cancelled]
    exact lap.uncancelled
  · rw [h.peerDraining, h.pending]
    exact lap.draining
  · rw [h.nextStreamId]
    exact lap.odd
  · rw [h.nextStreamId, h.highestLocalId]
    exact lap.next
  · rw [h.highestLocalId]
    by_cases other : id' = id
    · exact lap.known id' (other ▸ h.live (other ▸ live))
    · obtain ⟨st, hst⟩ := Option.isSome_iff_exists.mp live
      obtain ⟨st₀, hst₀, -⟩ := others id' st other hst
      exact lap.known id' (by rw [hst₀]; rfl)
  · by_cases other : id' = id
    · exact h.able st (other ▸ hst) hbusy
    · obtain ⟨st₀, hst₀, eq⟩ := others id' st other hst
      rw [Stream.hasPendingSend_congr eq] at hbusy
      rw [Stream.state_congr eq]
      exact lap.able id' st₀ hst₀ hbusy

end Visits

/-- An event on the stream that is visited, legal wherever the stream is not idle. -/
theorem applyStreamEvent_visits (h : Visits id s t) {st : Stream} (hst : t.streams.get? id = some st)
    {event : StreamEvent}
    (legal : ∀ code, st.state.transition event = .error code → code = .protocolError)
    (able : ∀ next, st.state.transition event = .ok next → st.hasPendingSend = true →
      next.maySend = true) :
    Ends (applyStreamEvent id event t)
      (fun _ u => Visits id s u ∧ ∃ next, st.state.transition event = .ok next ∧
        (next.isClosed = false → u.streams.get? id = some { st with state := next }))
      fun _ _ => True := by
  have others : ∀ id', id' ≠ id → (t.streams.apply id event).1.get? id' = t.streams.get? id' :=
    fun id' other => t.streams.get?_apply_ne event other
  have result : (t.streams.apply id event).2 =
      (st.state.transition event).mapError fun code => ⟨id, code⟩ := by
    unfold StreamTable.apply
    rw [hst]
    dsimp only
    cases st.state.transition event <;> rfl
  unfold applyStreamEvent applyStreamEventWith
  simp only [ends_bind, ends_get, ends_onCore]
  rw [result]
  cases ht : st.state.transition event with
  | error code =>
    rw [legal code ht]
    simp only [Except.mapError, ends_ite, ends_fail]
    exact ⟨fun _ => trivial, fun other => absurd trivial other⟩
  | ok next =>
    rw [ht] at result
    simp only [Except.mapError, ends_ite, ends_unready, ends_pure]
    refine ⟨fun closed => ⟨?_, next, rfl, fun goesOn => ?_⟩, fun goesOn => ?_⟩
    · exact h.gone _ (StreamTable.apply_closed result closed) others ⟨_, rfl⟩
        (StreamTable.apply_highestLocalId _ _ _)
    · rw [closed] at goesOn
      cases goesOn
    · have moved := h.modify (f := ({ · with state := next })) (fun st' hst' => h.chunks st' hst')
        (fun st' hst' => h.flag st' hst') fun st' hst' busy => by
          obtain rfl : st = st' := Option.some.inj (hst.symm.trans hst')
          exact able next ht busy
      rw [StreamTable.apply_ok result (by simpa using goesOn)]
      refine ⟨moved, next, rfl, fun _ => ?_⟩
      show (t.streams.modify id _).get? id = _
      rw [StreamTable.get?_modify, if_pos rfl, hst]
      rfl

/-- Sending from a state that may send is legal, but for DATA on an idle stream. -/
theorem sendData_legal {state : StreamState} (may : state.maySend = true) (endStream : Bool) :
    ∀ code, state.transition (.sendData endStream) = .error code → code = .protocolError := by
  cases state <;> intro code h <;> cases h <;> first | rfl | cases may

theorem sendHeaders_legal {state : StreamState} (may : state.maySend = true) (endStream : Bool) :
    ∀ code, state.transition (.sendHeaders endStream) = .error code → code = .protocolError := by
  cases state <;> intro code h <;> cases h <;> first | rfl | cases may

theorem spend_visits (h : Visits id s t) {st : Stream} (hst : t.streams.get? id = some st)
    (stream : Stream) (len : Nat) :
    Ends (spend id stream len t)
      (fun _ u => Visits id s u ∧ ∃ st', u.streams.get? id = some st' ∧ st'.sending = st.sending)
      fun _ _ => True := by
  unfold spend
  rw [ends_ite]
  refine ⟨fun _ => ?_, fun _ => ⟨h, st, hst, rfl⟩⟩
  cases stream.sendWindow.consume len with
  | error code => trivial
  | ok sendWindow =>
    simp only [ends_bind, ends_onCore, ends_get]
    cases (t.withCore (t.modifyStream id ({ · with sendWindow }))).connSendWindow.consume len with
    | error code => trivial
    | ok connSendWindow =>
      have moved : Still t (t.withCore (t.modifyStream id ({ · with sendWindow }))) :=
        .modify id fun _ _ => rfl
      refine ⟨h.still (moved.trans ⟨rfl, .refl _, rfl, rfl, rfl, rfl, rfl⟩),
        { st with sendWindow }, ?_, rfl⟩
      show (t.streams.modify id _).get? id = _
      rw [StreamTable.get?_modify, if_pos rfl, hst]
      rfl

/-- The DATA frame of a visit goes out; where it does not end the stream, the stream is as it
    was. -/
theorem transmit_visits (h : Visits id s t) {st : Stream} (hst : t.streams.get? id = some st)
    (turn : Stream.Turn) (may : st.state.maySend = true)
    (spent : turn.endStream = true → st.hasPendingSend = false) :
    Ends (transmit id turn t)
      (fun _ u => Visits id s u ∧ (turn.endStream = false →
        ∃ st', u.streams.get? id = some st' ∧ st'.sending = st.sending))
      fun _ _ => True := by
  unfold transmit
  rw [ends_ite]
  refine ⟨fun _ => ?_, fun _ => ⟨h, fun _ => ⟨st, hst, rfl⟩⟩⟩
  rw [ends_bind]
  refine (queueFrame_stays t _).mono (fun _ u hu => ?_) fun _ _ _ => trivial
  obtain ⟨st₁, hst₁, eq⟩ : ∃ st₁, u.streams.get? id = some st₁ ∧ st₁.sending = st.sending := by
    have same := hu.streams id
    rw [hst] at same
    obtain ⟨st₁, hst₁, eq⟩ := StreamTable.live_of_sending same.symm
    exact ⟨st₁, hst₁, eq.symm⟩
  have state := Stream.state_congr eq
  refine (applyStreamEvent_visits (h.still hu) hst₁ (state ▸ sendData_legal may _) ?_).mono ?_
    fun _ _ _ => trivial
  · intro next ht busy
    rw [Stream.hasPendingSend_congr eq] at busy
    cases he : turn.endStream with
    | true =>
      rw [spent he] at busy
      cases busy
    | false =>
      rw [he] at ht
      exact transition_sparing rfl ht (state ▸ may)
  · rintro - v ⟨hv, next, ht, here⟩
    refine ⟨hv, fun he => ⟨st₁, ?_, eq⟩⟩
    rw [he] at ht
    have stays : next = st₁.state ∧ next.isClosed = false := by
      cases hstate : st₁.state <;> rw [hstate] at ht <;> cases ht <;> exact ⟨rfl, rfl⟩
    obtain ⟨rfl, goesOn⟩ := stays
    exact here goesOn

theorem reportAccepted_stays (s : Upstream) (id : StreamId) (len : Nat) :
    Stays s (reportAccepted id len s) := by
  unfold reportAccepted
  rw [Stays, ends_bind, ends_get]
  cases s.routes.lookup id with
  | none => exact .refl s
  | some route =>
    dsimp only
    rw [ends_ite]
    exact ⟨fun _ => ⟨rfl, .refl _, rfl, rfl, rfl, rfl, rfl⟩, fun _ => .refl s⟩

theorem transmitTrailers_visits (h : Visits id s t) {st : Stream}
    (hst : t.streams.get? id = some st) (fields : List Header) (may : st.state.maySend = true)
    (spent : st.hasPendingSend = false) :
    Ends (transmitTrailers id fields t) (fun _ u => Visits id s u) fun _ _ => True := by
  unfold transmitTrailers
  rw [ends_bind]
  refine (queueHeaders_stays t id _ _).mono (fun _ u hu => ?_) fun _ _ _ => trivial
  have same := hu.streams id
  rw [hst] at same
  obtain ⟨st₁, hst₁, eq⟩ := StreamTable.live_of_sending same.symm
  have eq := eq.symm
  refine (applyStreamEvent_visits (h.still hu) hst₁
    (Stream.state_congr eq ▸ sendHeaders_legal may _) fun next _ busy => ?_).mono
      (fun _ _ hv => hv.1) fun _ _ _ => trivial
  rw [Stream.hasPendingSend_congr eq, spent] at busy
  cases busy

/-- Whether a stream that was visited stays in the ring. -/
def staysInRing : Option Bool → Bool
  | none => true
  | some more => more

variable {rest kept : List StreamId}

/-- A visit ends with one stream less to visit, and keeps it where it has more to send. -/
theorem visitReadyStream_inLap (h : s.InLap (id :: rest) kept) :
    Ends (visitReadyStream id s)
      (fun visit t => t.InLap rest (if staysInRing visit then id :: kept else kept))
      fun _ _ => True := by
  have start := Visits.start h
  unfold visitReadyStream
  simp only [ends_bind, ends_get]
  cases hs : s.streams.get? id with
  | none => exact start.inLap h (by rw [hs]; rfl)
  | some st =>
    have chunks := h.lap.chunks id st hs
    simp only [ends_ite, ends_bind, ends_onCore, ends_pure]
    refine ⟨fun blocked => ?_, fun credit => ⟨fun nothing => ?_, fun something => ?_⟩⟩
    · have octets : st.pendingSend > 0 := by simp_all
      have parked := start.modify (f := ({ · with queued := false }))
        (fun st' hst' => h.lap.chunks id st' hst') (fun _ _ => nofun) fun st' hst' => h.able id st' hst'
      refine parked.inLap h ?_
      show ((s.streams.modify id _).get? id).any _ = true
      rw [StreamTable.get?_modify, if_pos rfl, hs]
      exact Stream.hasPendingSend_of_pendingSend octets
    · simp only [Bool.and_eq_true, decide_eq_true_eq, Bool.not_eq_true', Option.isNone_iff_eq_none]
        at nothing credit
      have idle := Stream.turn_idle chunks credit nothing.1.1 nothing.1.2 nothing.2
      have turned := start.modify (f := fun _ => (st.turn (s.budget st)).rest)
        (fun _ _ => Stream.turn_chunks chunks) (fun _ _ => nofun) fun _ _ busy => by
          rw [idle] at busy
          cases busy
      refine turned.inLap h ?_
      show ((s.streams.modify id _).get? id).any _ = false
      rw [StreamTable.get?_modify, if_pos rfl, hs]
      exact idle
    · have busy : st.hasPendingSend = true := by
        by_contra idle
        obtain ⟨noChunk, noEnd, noTrailers⟩ : (st.turn (s.budget st)).chunk = [] ∧
            (st.turn (s.budget st)).endStream = false ∧ (st.turn (s.budget st)).trailers = none :=
          Stream.turn_of_idle (by simpa using idle)
        exact something (by simp [noChunk, noEnd, noTrailers])
      have may := h.able id st hs busy
      have turned := start.modify (f := fun _ => (st.turn (s.budget st)).rest)
        (fun _ _ => Stream.turn_chunks chunks) (fun _ _ => nofun) fun _ _ _ => may
      have hst : (s.withCore (s.modifyStream id fun _ => (st.turn (s.budget st)).rest)).streams.get?
          id = some (st.turn (s.budget st)).rest := by
        show (s.streams.modify id _).get? id = _
        rw [StreamTable.get?_modify, if_pos rfl, hs]
        rfl
      have spent : (st.turn (s.budget st)).endStream = true ∨
          (st.turn (s.budget st)).trailers.isSome →
            (st.turn (s.budget st)).rest.hasPendingSend = false := Stream.turn_spent
      have noEnd : ∀ fields, (st.turn (s.budget st)).trailers = some fields →
          (st.turn (s.budget st)).endStream = false :=
        fun _ hf => (Stream.turn_trailers st (s.budget st) hf).2.2.1
      have state : (st.turn (s.budget st)).rest.state = st.state := rfl
      generalize st.turn (s.budget st) = turn at *
      refine (spend_visits turned hst st _).mono ?_ fun _ _ _ => trivial
      rintro - u ⟨hu, st₁, hst₁, eq₁⟩
      have may₁ : st₁.state.maySend = true := by
        rw [Stream.state_congr eq₁, state]
        exact may
      refine (transmit_visits hu hst₁ turn may₁ fun he => ?_).mono ?_ fun _ _ _ => trivial
      · rw [Stream.hasPendingSend_congr eq₁]
        exact spent (.inl he)
      rintro - v ⟨hv, here⟩
      refine (reportAccepted_stays v id _).mono (fun _ w hw => ?_) fun _ _ _ => trivial
      cases htrailers : turn.trailers with
      | none => exact (hv.still hw).inLap h rfl
      | some fields =>
        obtain ⟨st₂, hst₂, eq₂⟩ := here (noEnd fields htrailers)
        have same := hw.streams id
        rw [hst₂] at same
        obtain ⟨st₃, hst₃, eq₃⟩ := StreamTable.live_of_sending same.symm
        have eq := eq₃.symm.trans (eq₂.trans eq₁)
        dsimp only
        rw [ends_bind]
        refine (transmitTrailers_visits (hv.still hw) hst₃ fields ?_ ?_).mono (fun _ x hx => ?_)
          fun _ _ _ => trivial
        · rw [Stream.state_congr eq, state]
          exact may
        · rw [Stream.hasPendingSend_congr eq]
          exact spent (.inr (by rw [htrailers]; rfl))
        · exact hx.inLap h rfl

/-! ## A lap -/

/-- The streams of a lap are visited in order; those that stay are kept. -/
theorem visitLap_inLap {lap : List StreamId} (h : s.InLap lap kept) :
    Ends (visitLap lap s) (fun r t => t.InLap [] (r.1 ++ r.2.1 ++ kept)) fun _ _ => True := by
  induction lap generalizing s kept with
  | nil => exact h
  | cons id lap ih =>
    unfold visitLap
    rw [ends_bind]
    refine (visitReadyStream_inLap h).mono (fun visit t ht => ?_) fun _ _ h => h
    rw [ends_bind]
    refine (ih ht).mono (fun r u hu => ?_) fun _ _ h => h
    obtain ⟨stalled, served, wrote⟩ := r
    cases visit with
    | none => exact ⟨hu.toStartable, hu.lap.perm List.perm_middle, hu.able⟩
    | some more =>
      cases more with
      | false => exact hu
      | true =>
        refine ⟨hu.toStartable, hu.lap.perm ?_, hu.able⟩
        show (stalled ++ served ++ id :: kept).Perm (stalled ++ id :: served ++ kept)
        rw [List.append_assoc, List.append_assoc]
        exact List.Perm.append_left stalled List.perm_middle

theorem requeue_inLap {ids : List StreamId} (h : s.InLap rest ids) :
    Ends (requeue ids s) (fun _ t => t.InLap (rest ++ ids) []) fun _ _ => True := by
  induction ids generalizing s rest with
  | nil =>
    rw [List.append_nil]
    exact h
  | cons id ids ih =>
    unfold requeue
    rw [ends_bind, ends_onCore]
    have able : Able { s with
        toUpstreamCore := s.modifyStream id ({ · with queued := true }), ready := s.ready } :=
      Able.modify h.able (f := ({ · with queued := true })) rfl (fun _ _ => rfl)
        (fun st hst busy => h.able id st hst busy) _
    have flagged : InLap (s.withCore (s.modifyStream id ({ · with queued := true }))) (rest ++ [id])
        ids := ⟨h.toStartable.modify id _ _, h.lap.flagged, able⟩
    have := ih flagged
    rw [List.append_assoc] at this
    exact this

theorem pumpLap_keeps (h : s.Orderly) : Keeps (pumpLap s) := by
  unfold pumpLap
  simp only [ends_bind, ends_get, ends_modify, ends_pure]
  have taken : InLap { s with ready := [] } s.ready [] :=
    ⟨⟨h.complete, h.uncancelled, h.draining, h.odd, h.next, h.known⟩, h.ring, h.able⟩
  refine (visitLap_inLap taken).mono (fun r t ht => ?_) fun _ _ h => h
  obtain ⟨stalled, served, wrote⟩ := r
  rw [List.append_nil] at ht
  refine (requeue_inLap ht).mono (fun _ u hu => ?_) fun _ _ h => h
  have live : (stalled ++ served).filter (fun id => (u.streams.get? id).isSome) = stalled ++ served := by
    have := hu.lap.inStep
    rw [List.append_nil] at this
    exact this.filter_isSome
  refine ⟨⟨hu.complete, hu.uncancelled, hu.draining, hu.odd, hu.next, hu.known⟩, ?_, hu.able⟩
  show Ring u.streams ((stalled ++ served).filter fun id => (u.streams.get? id).isSome)
  rw [live]
  exact hu.lap

theorem pumpLaps_keeps (h : s.Orderly) (fuel : Nat) : Keeps (pumpLaps fuel s) := by
  induction fuel generalizing s with
  | zero => exact h
  | succ fuel ih =>
    unfold pumpLaps
    simp only [ends_bind, ends_get, ends_ite, ends_pure]
    refine ⟨fun _ => h, fun _ => ?_⟩
    refine (pumpLap_keeps h).mono (fun _ t ht => ?_) fun _ _ h => h
    exact ⟨fun _ => ih ht, fun _ => ht⟩

/-! ## Runs -/

theorem react_keeps (h : s.Orderly) {input : UpInput} (inOrder : s.inOrder input = true) :
    Keeps (react input s) := by
  unfold react
  cases input with
  | frame w => exact (recvWire_keeps h w).bind fun _ _ ht => ht
  | message m => exact (handleMessage_keeps h inOrder).bind fun _ _ ht => ht
  | pump =>
    unfold pumpOutbound
    rw [Keeps, ends_bind, ends_bind, ends_get]
    exact (pumpLaps_keeps h _).mono (fun _ _ ht => ht) fun _ _ h => h
  | wrote n => exact h.still ⟨rfl, .refl _, rfl, rfl, rfl, rfl, rfl⟩
  | heard => exact h.still ⟨rfl, .refl _, rfl, rfl, rfl, rfl, rfl⟩
  | probe =>
    unfold probeTimer
    simp only [ends_bind, ends_get, ends_modify]
    have moved : ∀ probe, Orderly { s with probe } := fun _ =>
      h.still ⟨rfl, .refl _, rfl, rfl, rfl, rfl, rfl⟩
    cases (s.probe.due s.now).2 with
    | nothing => exact moved _
    | send nonce =>
      simp only [ends_bind]
      exact ((queueFrame_stays _ _).orders (moved _)).keeps
    | expired => exact h.still ⟨rfl, .refl _, rfl, rfl, rfl, rfl, rfl⟩
  | drained => exact h
  | hangup => exact h

/-- A step that goes on keeps the connection in order. -/
theorem step_orderly (h : s.Orderly) {i : Instant × UpInput} (inOrder : s.inOrder i.2 = true)
    (running : s.stop = none) (goesOn : (step i s).stop = none) : (step i s).Orderly := by
  unfold step at *
  rw [if_neg (by rw [running]; exact Bool.false_ne_true)] at *
  have start : Orderly { s with now := i.1 } := h.still ⟨rfl, .refl _, rfl, rfl, rfl, rfl, rfl⟩
  have outcome := react_keeps start (show Upstream.inOrder { s with now := i.1 } i.2 = true by
    rw [← inOrder]
    rfl)
  cases hr : react i.2 { s with now := i.1 } with
  | error e t =>
    rw [hr] at goesOn
    cases goesOn
  | ok next t =>
    rw [hr] at goesOn outcome
    cases next with
    | continue_ => exact outcome
    | close => cases goesOn

/-- Between two steps a connection that has not stopped is in order, where its clients keep to
    theirs. -/
theorem reach_orderly (h : machine.Reach (fun s i => s.inOrder i.2 = true) s)
    (running : s.stop = none) : s.Orderly := by
  refine h.invariant (I := fun s => s.stop = none → s.Orderly) ?_ ?_ running
  · rintro s ⟨tuning, idle, timeout, now, -, -, rfl⟩ -
    have nobody : ∀ id, (start tuning idle timeout now).streams.get? id = none := fun _ => rfl
    refine ⟨⟨nofun, nofun, fun _ => rfl, rfl, ⟨?_, ?_⟩, fun id live => ?_⟩, Lap.new _ _ _,
      fun id st hst => ?_⟩
    · exact Nat.zero_lt_one
    · exact Nat.le_of_lt Nat.one_lt_two
    · rw [nobody id] at live
      cases live
    · rw [nobody id] at hst
      cases hst
  · intro s i ih inOrder goesOn
    cases hs : s.stop with
    | none => exact step_orderly (ih hs) inOrder hs goesOn
    | some stop =>
      exfalso
      change (step i s).stop = none at goesOn
      have stopped : (step i s).stop = s.stop := by
        unfold step
        rw [if_pos (by rw [hs]; rfl)]
        split
        · unfold leave
          split <;> rfl
        · rfl
      rw [stopped, hs] at goesOn
      cases goesOn

end Upstream

end H2Proxy
