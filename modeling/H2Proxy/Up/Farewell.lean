import H2Proxy.Up.Trail
import Mathlib.Data.List.Induction

/-
  What a GOAWAY of the backend does to an upstream connection.

  It splits the work: whoever waits, and whoever has a stream above the last one the backend will
  process, is refused; the other streams go on untouched. Forgetting a stream would start what
  waits, but by then nobody does. From then on requests are refused as they come, and the drain
  ends the connection when nothing is left or the time set by the latest GOAWAY is up.
-/

namespace H2Proxy

/-- What a client was told. -/
def UpObs.hearing : UpObs → Option (RequestId × Events × ServiceEvent)
  | told request events event => some (request, events, event)
  | _ => none

/-- What the clients were told, in order. -/
def hearings (log : List UpObs) : List (RequestId × Events × ServiceEvent) :=
  log.filterMap UpObs.hearing

/-- A waiting request is told that it was not processed. -/
def Pending.refusal (p : Pending) : RequestId × Events × ServiceEvent :=
  (p.request, p.events, .reset p.clientId .refusedStream)

/-- The last stream id, where the input is a GOAWAY. -/
def UpInput.farewell : UpInput → Option StreamId
  | frame w => w.lastStreamId
  | _ => none

namespace Upstream

/-- A request with a stream is told that it was not processed. -/
def Route.refusal (r : Route) : RequestId × Events × ServiceEvent :=
  (r.request, r.events, .reset r.clientId .refusedStream)

variable {s t u : Upstream}

/-! ## What tells nobody anything -/

/-- Streams, routes and queue are as they were, and nobody was told anything. -/
structure Hushed (s t : Upstream) : Prop where
  streams : t.streams = s.streams
  routes : t.routes = s.routes
  pending : t.pending = s.pending
  next : t.nextStreamId = s.nextStreamId
  peerDraining : t.peerDraining = s.peerDraining
  stop : t.stop = s.stop
  hearings : hearings t.log = hearings s.log

instance : Std.Refl Hushed where
  refl _ := ⟨rfl, rfl, rfl, rfl, rfl, rfl, rfl⟩

instance : IsTrans Upstream Hushed where
  trans _ _ _ h h' := ⟨h'.streams.trans h.streams, h'.routes.trans h.routes,
    h'.pending.trans h.pending, h'.next.trans h.next, h'.peerDraining.trans h.peerDraining,
    h'.stop.trans h.stop, h'.hearings.trans h.hearings⟩

theorem hearings_append (log log' : List UpObs) :
    hearings (log ++ log') = hearings log ++ hearings log' := List.filterMap_append

theorem hushed_observe {o : UpObs} (h : o.hearing = none) :
    Hushed s (s.withCore (s.toUpstreamCore.observe o)) := by
  refine ⟨rfl, rfl, rfl, rfl, rfl, rfl, ?_⟩
  show hearings (s.log ++ [o]) = _
  rw [hearings_append]
  unfold hearings
  rw [List.filterMap_cons, h, List.filterMap_nil, List.append_nil]

theorem queueFrame_hushed (s : Upstream) (frame : Frame) :
    Follows Hushed s (queueFrame frame s) := by
  unfold queueFrame queueFields
  cases frame.write with
  | error e => exact .throw _
  | ok octets =>
    refine .get (.bind (hushed_observe rfl) fun _ t _ => ?_)
    exact Follows.modify ⟨rfl, rfl, rfl, rfl, rfl, rfl, rfl⟩

theorem releaseConnWindow_hushed (s : Upstream) (n : Nat) :
    Follows Hushed s (releaseConnWindow n s) := by
  refine .get ?_
  rcases s.connRecvWindow.release n with ⟨window, increment⟩
  have kept : Follows Hushed s (onCore ({ · with connRecvWindow := window }) s) :=
    Follows.modify ⟨rfl, rfl, rfl, rfl, rfl, rfl, rfl⟩
  refine .bind kept fun _ t _ => ?_
  cases increment with
  | none => exact .pure _
  | some increment => exact queueFrame_hushed t _

/-! ## Giving up a stream -/

/-- One stream has gone, with its route; nobody waits and nobody was told anything. -/
structure Forgot (id : StreamId) (s t : Upstream) : Prop where
  streams : ∀ id', t.streams.get? id' = if id' = id then none else s.streams.get? id'
  top : t.streams.highestLocalId = s.streams.highestLocalId
  routes : ∀ id', t.routes.lookup id' = if id' = id then none else s.routes.lookup id'
  pending : t.pending = []
  next : t.nextStreamId = s.nextStreamId
  peerDraining : t.peerDraining = s.peerDraining
  stop : t.stop = s.stop
  hearings : hearings t.log = hearings s.log

theorem Forgot.hushed {id : StreamId} (h : Forgot id s t) (h' : Hushed t u) : Forgot id s u := by
  refine ⟨fun id' => ?_, ?_, fun id' => ?_, h'.pending.trans h.pending, h'.next.trans h.next,
    h'.peerDraining.trans h.peerDraining, h'.stop.trans h.stop, h'.hearings.trans h.hearings⟩
  · rw [h'.streams]
    exact h.streams id'
  · rw [h'.streams]
    exact h.top
  · rw [h'.routes]
    exact h.routes id'

/-- Where nobody waits, forgetting a stream starts nothing. -/
theorem forget_forgot (id : StreamId) (h : s.pending = []) :
    Ends (forget id s) (fun _ => Forgot id s) fun _ _ => False := by
  have quiet : ∀ u : Upstream, u.pending = [] → Ends (drainPending u) (fun _ => Hushed u)
      fun _ _ => False := by
    intro u hu
    unfold drainPending
    rw [ends_bind, ends_get, hu]
    unfold drainPendingFrom
    rw [ends_bind, ends_get, ends_ite]
    refine ⟨fun _ => ?_, fun _ => Std.Refl.refl u⟩
    rw [hu]
    exact ⟨rfl, rfl, rfl, rfl, rfl, rfl, rfl⟩
  have rest : ∀ u : Upstream, Forgot id s u →
      Ends (ignore drainPending u) (fun _ => Forgot id s) fun _ _ => False := fun u hu =>
    ends_ignore.mpr ((quiet u hu.pending).mono (fun _ _ hv => hu.hushed hv) fun _ _ h => h.elim)
  unfold forget forgetWith
  rw [ends_bind, ends_onCore, ends_bind, ends_unready, ends_bind, ends_get]
  have dropped : ∀ id', (s.streams.retire id).get? id' =
      if id' = id then none else s.streams.get? id' := fun id' => StreamTable.get?_retire _ _ _
  have top := StreamTable.retire_highestLocalId s.streams id
  have erased : ∀ id', (s.routes.erase id).lookup id' =
      if id' = id then none else s.routes.lookup id' := AList.lookup_erase_eq s.routes id
  have kept : (s.withCore (s.retire id)).routes = s.routes := rfl
  rw [kept]
  cases hr : s.routes.lookup id with
  | none =>
    refine rest _ ⟨dropped, top, fun id' => ?_, h, rfl, rfl, rfl, rfl⟩
    show s.routes.lookup id' = _
    split
    · rename_i heq
      rw [heq, hr]
    · rfl
  | some route =>
    dsimp only
    rw [ends_bind, ends_onCore]
    refine ends_ite.mpr ⟨fun _ => ?_, fun _ => rest _ ⟨dropped, top, erased, h, rfl, rfl, rfl, rfl⟩⟩
    rw [ends_bind, ends_ignore]
    refine Ends.mono (releaseConnWindow_hushed _ _) (fun _ w hw => rest w (Forgot.hushed ?_ hw))
      fun _ w hw => rest w (Forgot.hushed ?_ hw)
    · exact ⟨dropped, top, erased, h, rfl, rfl, rfl, rfl⟩
    · exact ⟨dropped, top, erased, h, rfl, rfl, rfl, rfl⟩

/-! ## Giving up the streams above the last -/

/-- Some streams have gone, and those who had a route on one were refused. -/
structure Abandoned (ids : List StreamId) (s t : Upstream) : Prop where
  streams : ∀ id, t.streams.get? id = if id ∈ ids then none else s.streams.get? id
  top : t.streams.highestLocalId = s.streams.highestLocalId
  routes : ∀ id, t.routes.lookup id = if id ∈ ids then none else s.routes.lookup id
  pending : t.pending = []
  next : t.nextStreamId = s.nextStreamId
  peerDraining : t.peerDraining = s.peerDraining
  stop : t.stop = s.stop
  hearings : hearings t.log = hearings s.log ++
    ids.filterMap fun id => (s.routes.lookup id).map Route.refusal

theorem abandon_ends (ids : List StreamId) (h : s.pending = []) (hnodup : ids.Nodup) :
    Ends (abandon ids s) (fun _ => Abandoned ids s) fun _ _ => False := by
  induction ids generalizing s with
  | nil =>
    refine ⟨fun id => ?_, rfl, fun id => ?_, h, rfl, rfl, rfl, (List.append_nil _).symm⟩
    · rw [if_neg List.not_mem_nil]
    · rw [if_neg List.not_mem_nil]
  | cons id ids ih =>
    obtain ⟨hnew, hnodup⟩ := List.nodup_cons.mp hnodup
    have rest : ∀ u : Upstream, u.streams = s.streams → u.routes = s.routes → u.pending = [] →
        u.nextStreamId = s.nextStreamId → u.peerDraining = s.peerDraining → u.stop = s.stop →
        hearings u.log = hearings s.log ++ ((s.routes.lookup id).map Route.refusal).toList →
        Ends ((do forget id; abandon ids : UpM Unit) u) (fun _ => Abandoned (id :: ids) s)
          fun _ _ => False := by
      intro u hstreams hroutes hpending hnext hdraining hstop htold
      rw [ends_bind]
      refine (forget_forgot id hpending).mono (fun _ v hv => ?_) fun _ _ h => h
      refine (ih hv.pending hnodup).mono (fun _ w hw => ?_) fun _ _ h => h
      have others : ids.filterMap (fun id => (v.routes.lookup id).map Route.refusal) =
          ids.filterMap fun id => (s.routes.lookup id).map Route.refusal := by
        refine List.filterMap_congr fun id' hid' => ?_
        have hne : id' ≠ id := fun heq => hnew (by rwa [heq] at hid')
        rw [hv.routes, hroutes, if_neg hne]
      refine ⟨fun id' => ?_, ?_, fun id' => ?_, hw.pending, hw.next.trans (hv.next.trans hnext),
        hw.peerDraining.trans (hv.peerDraining.trans hdraining),
        hw.stop.trans (hv.stop.trans hstop), ?_⟩
      · rw [hw.streams, hv.streams, hstreams]
        simp only [List.mem_cons]
        split_ifs <;> simp_all
      · rw [hw.top, hv.top, hstreams]
      · rw [hw.routes, hv.routes, hroutes]
        simp only [List.mem_cons]
        split_ifs <;> simp_all
      · rw [hw.hearings, hv.hearings, htold, others, List.append_assoc]
        cases hr : s.routes.lookup id with
        | none => rw [List.filterMap_cons_none (by rw [hr]; rfl)]; rfl
        | some route => rw [List.filterMap_cons_some (by rw [hr]; rfl)]; rfl
    unfold abandon
    rw [ends_bind, ends_get]
    cases hr : s.routes.lookup id with
    | none =>
      refine rest s rfl rfl h rfl rfl rfl ?_
      rw [hr]
      exact (List.append_nil _).symm
    | some route =>
      refine rest _ rfl rfl h rfl rfl rfl ?_
      rw [hr]
      exact hearings_append _ _

theorem refusePending_ends (s : Upstream) (ps : List Pending) :
    Ends (refusePending ps s)
      (fun _ t => t = s.withCore { s.toUpstreamCore with
        log := s.log ++ ps.map fun p => .told p.request p.events (.reset p.clientId .refusedStream) })
      fun _ _ => False := by
  induction ps generalizing s with
  | nil =>
    show s = s.withCore { s.toUpstreamCore with log := s.log ++ [] }
    rw [List.append_nil]
    rfl
  | cons p ps ih =>
    unfold refusePending
    rw [ends_bind, ends_tell]
    refine (ih _).mono (fun _ t ht => ?_) fun _ _ h => h
    rw [ht]
    show s.withCore { s.toUpstreamCore with log := s.log ++ [_] ++ _ } = _
    rw [List.append_assoc]
    rfl

/-- The routes on the streams above `last`. -/
def above (last : StreamId) (s : Upstream) : List Route :=
  (s.routes.entries.filter (last < ·.1)).map (·.2)

/-- The keys of a map and what they lead to, together. -/
theorem filterMap_keys (last : StreamId) (m : FinMap StreamId Route) :
    (m.keys.filter (last < ·)).filterMap (fun id => (m.lookup id).map Route.refusal) =
      (m.entries.filter (last < ·.1)).map (·.2.refusal) := by
  have found : ∀ e ∈ m.entries, m.lookup e.1 = some e.2 := fun e he =>
    AList.mem_lookup_iff.mpr he
  unfold AList.keys List.keys
  generalize m.entries = es at found
  induction es with
  | nil => rfl
  | cons e es ih =>
    have ih := ih fun e' he' => found e' (List.mem_cons_of_mem _ he')
    rw [List.map_cons, List.filter_cons, List.filter_cons]
    split
    · rw [List.filterMap_cons_some (by rw [found e List.mem_cons_self]; rfl), ih]
      rfl
    · exact ih

/-- What a GOAWAY does. -/
structure Split (last : StreamId) (s t : Upstream) : Prop where
  /-- Who waits and who has a stream above the last is refused, once each; nobody else hears. -/
  hearings : hearings t.log =
    hearings s.log ++ s.pending.map Pending.refusal ++ (above last s).map Route.refusal
  pending : t.pending = []
  routes : ∀ id, t.routes.lookup id = if last < id then none else s.routes.lookup id
  /-- The streams up to the last are as they were. -/
  kept : ∀ id ≤ last, t.streams.get? id = s.streams.get? id
  next : t.nextStreamId = s.nextStreamId
  top : t.streams.highestLocalId = s.streams.highestLocalId
  peerDraining : t.peerDraining = some (last, s.now + peerDrainDeadline)
  stop : t.stop = s.stop

theorem beginPeerDrain_split (s : Upstream) (last : StreamId) :
    Ends (beginPeerDrain last s) (fun _ => Split last s) fun _ _ => False := by
  unfold beginPeerDrain
  rw [ends_bind, ends_get, ends_bind, ends_onCore, ends_bind]
  refine (refusePending_ends _ _).mono (fun _ t ht => ?_) fun _ _ h => h
  subst ht
  have hnodup : (s.routes.keys.filter (last < ·)).Nodup := s.routes.nodupKeys.filter _
  refine (abandon_ends _ rfl hnodup).mono (fun _ u hu => ?_) fun _ _ h => h
  have hmem : ∀ id, id ∈ s.routes.keys.filter (last < ·) ↔
      last < id ∧ (s.routes.lookup id).isSome := by
    intro id
    rw [List.mem_filter, decide_eq_true_eq, and_comm, AList.mem_keys_iff]
  refine ⟨?_, hu.pending, fun id => ?_, fun id hle => ?_, hu.next, hu.top, hu.peerDraining, hu.stop⟩
  · rw [hu.hearings]
    show hearings (s.log ++ _) ++ (s.routes.keys.filter (last < ·)).filterMap
      (fun id => (s.routes.lookup id).map Route.refusal) = _
    rw [filterMap_keys, hearings_append]
    unfold above hearings
    rw [List.filterMap_map, List.map_map]
    congr 2
    exact congrFun (List.filterMap_eq_map (f := Pending.refusal)) s.pending
  · rw [hu.routes]
    show (if id ∈ s.routes.keys.filter (last < ·) then none else s.routes.lookup id) = _
    by_cases habove : last < id
    · rw [if_pos habove]
      cases hr : s.routes.lookup id with
      | none => exact ite_self _
      | some route => rw [if_pos ((hmem id).mpr ⟨habove, by rw [hr]; rfl⟩)]
    · rw [if_neg habove, if_neg fun h => habove ((hmem id).mp h).1]
  · rw [hu.streams, if_neg fun h => absurd ((hmem id).mp h).1 (Nat.not_lt_of_le hle)]
    rfl

theorem Split.of_heard {last : StreamId} {c : UpstreamCore} (h : Split last (s.withCore c) t)
    (hc : c.pending = s.pending ∧ c.routes = s.routes ∧ c.streams = s.streams ∧
      c.nextStreamId = s.nextStreamId ∧ H2Proxy.hearings c.log = H2Proxy.hearings s.log) :
    Split last s t := by
  obtain ⟨hpending, hroutes, hstreams, hnext, htold⟩ := hc
  refine ⟨?_, h.pending, fun id => ?_, fun id hle => ?_, h.next.trans hnext, ?_, h.peerDraining, h.stop⟩
  · rw [h.hearings]
    unfold above
    dsimp only [withCore]
    rw [htold, hpending, hroutes]
  · rw [h.routes]
    dsimp only [withCore]
    rw [hroutes]
  · rw [h.kept id hle]
    dsimp only [withCore]
    rw [hstreams]
  · rw [h.top]
    dsimp only [withCore]
    rw [hstreams]

/-- A GOAWAY splits the work, unless it is too long or comes in the middle of a header block. -/
theorem recvWire_split {w : WireFrame} {last : StreamId} (hw : w.lastStreamId = some last) :
    Ends (recvWire w s) (fun _ => Split last s)
      fun _ _ => s.localSettings.maxFrameSize < w.header.length ∨ s.openHeaderBlock.isSome := by
  unfold recvWire
  rw [ends_bind, ends_onCore, ends_bind, ends_get]
  refine ends_ite.mpr ⟨fun hlong => .inl hlong, fun _ => ?_⟩
  unfold WireFrame.lastStreamId at hw
  split at hw
  · rename_i last' code debug hdec
    obtain rfl : last' = last := Option.some.inj hw
    rw [hdec]
    dsimp only
    unfold handleFrame headerBlockError
    rw [ends_bind, ends_get]
    have kept : (s.withCore (s.observe (.heard w))).openHeaderBlock = s.openHeaderBlock := rfl
    rw [kept]
    cases s.openHeaderBlock with
    | some open_ => exact .inr rfl
    | none =>
      refine (beginPeerDrain_split _ _).mono (fun _ t ht => ?_) fun _ _ h => h.elim
      exact ht.of_heard ⟨rfl, rfl, rfl, rfl, (hushed_observe (s := s) rfl).hearings⟩
  · cases hw

/-! ## The drain -/

theorem unrouted_peerDraining (id : StreamId) (c : UpstreamCore) :
    (c.unrouted id).peerDraining = c.peerDraining := by
  unfold UpstreamCore.unrouted
  split <;> rfl

/-- Only a GOAWAY sets the drain. -/
theorem Move.peerDraining {allows : Mishap → Prop} {c c' : UpstreamCore}
    (hno : ¬ allows .goAway) (h : UpstreamCore.Move allows c c') :
    c'.peerDraining = c.peerDraining := by
  cases h with
  | drain last deadline hgo => exact absurd hgo hno
  | forget id => exact unrouted_peerDraining id _
  | _ => rfl

/-- The latest GOAWAY of a run, and until when the backend is waited for. -/
def latest (is : List (Instant × UpInput)) : Option (StreamId × Instant) :=
  (is.filterMap fun i => i.2.farewell.map fun last => (last, i.1 + peerDrainDeadline)).getLast?

/-- A GOAWAY splits the work or ends the connection. -/
theorem step_split (now : Instant) (hlive : s.stop = none) {w : WireFrame} {last : StreamId}
    (hw : w.lastStreamId = some last) :
    Split last { s with now } (step (now, .frame w) s) ∨
      (step (now, .frame w) s).stop.isSome ∧
        (s.localSettings.maxFrameSize < w.header.length ∨ s.openHeaderBlock.isSome) := by
  have hsplit : Ends (react (.frame w) { s with now })
      (fun next t => next = .continue_ ∧ Split last { s with now } t)
      fun _ _ => s.localSettings.maxFrameSize < w.header.length ∨ s.openHeaderBlock.isSome :=
    ends_bind.mpr ((recvWire_split (s := { s with now }) hw).mono (fun _ _ ht => ⟨rfl, ht⟩)
      fun _ _ h => h)
  unfold step
  rw [if_neg (by rw [hlive]; exact Bool.false_ne_true)]
  dsimp only
  generalize react (.frame w) { s with now } = r at hsplit
  cases r with
  | ok next t =>
    obtain ⟨rfl, ht⟩ := hsplit
    exact .inl ht
  | error e t => exact .inr ⟨rfl, hsplit⟩

theorem step_peerDraining {i : Instant × UpInput} (h : (step i s).stop = none) :
    s.stop = none ∧ (step i s).peerDraining =
      (i.2.farewell.map fun last => (last, i.1 + peerDrainDeadline)).or s.peerDraining := by
  cases hstop : s.stop with
  | some stop =>
    rw [(step_stopped i (by rw [hstop]; rfl)).2.2.2, hstop] at h
    cases h
  | none =>
    refine ⟨rfl, ?_⟩
    obtain ⟨now, i⟩ := i
    cases hgo : i.farewell with
    | none =>
      have hmoves := react_reaches (s := { s with now := now }) i
      unfold step at h ⊢
      rw [if_neg (by rw [hstop]; exact Bool.false_ne_true)] at h ⊢
      dsimp only at h ⊢
      generalize react i { s with now := now } = r at h hmoves
      cases r with
      | error e t => cases h
      | ok next t =>
        cases next with
        | close => cases h
        | continue_ =>
          refine UpstreamCore.Moves.invariant (I := fun c => c.peerDraining = s.peerDraining)
            (fun c c' hc hm => (Move.peerDraining ?_ hm).trans hc) hmoves rfl
          rintro ⟨w, rfl, hw⟩
          rw [show w.lastStreamId = none from hgo] at hw
          cases hw
    | some last =>
      cases i with
      | frame w =>
        rcases step_split now hstop hgo with hsplit | ⟨hsome, -⟩
        · rw [hsplit.peerDraining]
          rfl
        · rw [h] at hsome
          cases hsome
      | _ => cases hgo

/-- A connection that goes on waits for its backend until the time of the latest GOAWAY. -/
theorem run_peerDraining {b : Upstream} (hb : b.Fresh) (is : List (Instant × UpInput))
    (h : (machine.run b is).stop = none) : (machine.run b is).peerDraining = latest is := by
  induction is using List.reverseRecOn with
  | nil =>
    obtain ⟨tuning, idle, timeout, now, -, -, rfl⟩ := hb
    rfl
  | append_singleton is i ih =>
    rw [Machine.run_append] at h ⊢
    obtain ⟨hbefore, hdraining⟩ := step_peerDraining (s := machine.run b is) h
    refine hdraining.trans ?_
    rw [ih hbefore]
    unfold latest
    rw [List.filterMap_append]
    cases hgo : i.2.farewell with
    | none =>
      rw [List.filterMap_cons_none (by rw [hgo]; rfl), List.filterMap_nil, List.append_nil]
      rfl
    | some last =>
      rw [List.filterMap_cons_some (by rw [hgo]; rfl), List.filterMap_nil, List.getLast?_append]
      rfl

/-- A request that comes while the backend drains is refused and nothing else happens. -/
structure Refused (request : RequestId) (clientId : StreamId) (events : Events)
    (s t : Upstream) : Prop where
  hearings : hearings t.log =
    hearings s.log ++ [(request, events, .reset clientId .refusedStream)]
  streams : t.streams = s.streams
  routes : t.routes = s.routes
  pending : t.pending = s.pending
  next : t.nextStreamId = s.nextStreamId
  stop : t.stop = s.stop

theorem step_refused (now : Instant) (hlive : s.stop = none) (hdraining : s.peerDraining.isSome)
    {request : RequestId} {clientId : StreamId} {head : RequestHead} {endStream : Bool}
    {events : Events} (hnew : request ∉ s.cancelled) :
    Refused request clientId events s
      (step (now, .message (.request request clientId head endStream events)) s) := by
  have hreact : Ends (react (.message (.request request clientId head endStream events))
      { s with now }) (fun next t => next = .continue_ ∧ Refused request clientId events s t)
      fun _ _ => False := by
    unfold react handleMessage sendRequest sendRequestWith
    rw [ends_bind, ends_bind, ends_onCore, ends_bind, ends_get]
    refine ends_ite.mpr ⟨fun hcancelled => absurd hcancelled hnew, fun _ => ends_ite.mpr
      ⟨fun _ => ⟨rfl, ?_, rfl, rfl, rfl, rfl, rfl⟩, fun hcalm => absurd hdraining hcalm⟩⟩
    show hearings (s.log ++ [_] ++ [_]) = _
    rw [List.append_assoc, hearings_append]
    rfl
  unfold step
  rw [if_neg (by rw [hlive]; exact Bool.false_ne_true)]
  dsimp only
  generalize react _ { s with now := now } = r at hreact
  cases r with
  | ok next t =>
    obtain ⟨rfl, hrefused⟩ := hreact
    exact hrefused
  | error e t => exact hreact.elim

/-- The drain ends a connection where no stream is left or the time is up, and only there. -/
theorem step_drained (now : Instant) (hlive : s.stop = none) :
    (step (now, .drained) s).stop.isSome ↔ ∃ last deadline,
      s.peerDraining = some (last, deadline) ∧ (s.routes.keys = [] ∨ deadline ≤ now) := by
  have hcomplete : ({ s with now } : Upstream).peerDrainComplete = true ↔ ∃ last deadline,
      s.peerDraining = some (last, deadline) ∧ (s.routes.keys = [] ∨ deadline ≤ now) := by
    unfold peerDrainComplete
    dsimp only
    cases s.peerDraining with
    | none => simp
    | some drain => simp [Prod.ext_iff]
  have hreact : react .drained { s with now } =
      .ok (if ({ s with now } : Upstream).peerDrainComplete then .close else .continue_)
        { s with now } := rfl
  rw [← hcomplete]
  unfold step
  rw [if_neg (by rw [hlive]; exact Bool.false_ne_true)]
  dsimp only
  rw [hreact]
  cases ({ s with now } : Upstream).peerDrainComplete with
  | true => exact ⟨fun _ => rfl, fun _ => rfl⟩
  | false =>
    rw [if_neg Bool.false_ne_true]
    show s.stop.isSome = true ↔ _
    rw [hlive]
    exact Iff.rfl

/-- A GOAWAY that is handled splits the work in every state. After one, a request that was not
    cancelled before is refused and opens nothing; and the drain ends the connection where no
    stream is left or the time of the latest GOAWAY is up, and only there. -/
theorem goAway_splits_work :
    (∀ (s : Upstream) (now : Instant) (w : WireFrame) (last : StreamId), s.stop = none →
      w.lastStreamId = some last → w.header.length ≤ s.localSettings.maxFrameSize →
      s.openHeaderBlock = none → Split last { s with now } (step (now, .frame w) s)) ∧
    ∀ b is, Fresh b → (machine.run b is).stop = none →
      (∀ now request clientId head endStream events, (∃ i ∈ is, i.2.farewell.isSome) →
        request ∉ (machine.run b is).cancelled →
        Refused request clientId events (machine.run b is)
          (step (now, .message (.request request clientId head endStream events))
            (machine.run b is))) ∧
      ∀ now, (step (now, .drained) (machine.run b is)).stop.isSome ↔
        ∃ last deadline, latest is = some (last, deadline) ∧
          ((machine.run b is).routes.keys = [] ∨ deadline ≤ now) := by
  refine ⟨fun s now w last hlive hw hshort hblock => ?_, fun b is hb hlive => ?_⟩
  · obtain hsplit | ⟨-, hlong | hopen⟩ := step_split now hlive hw
    · exact hsplit
    · exact absurd hlong (Nat.not_lt_of_le hshort)
    · rw [hblock] at hopen
      cases hopen
  · have hlatest := run_peerDraining hb is hlive
    refine ⟨fun now request clientId head endStream events hgo hnew => ?_, fun now => ?_⟩
    · refine step_refused now hlive ?_ hnew
      obtain ⟨i, hi, hsome⟩ := hgo
      obtain ⟨last, hlast⟩ := Option.isSome_iff_exists.mp hsome
      have hmem : (last, i.1 + peerDrainDeadline) ∈
          is.filterMap fun i => i.2.farewell.map fun last => (last, i.1 + peerDrainDeadline) :=
        List.mem_filterMap.mpr ⟨i, hi, by rw [hlast]; rfl⟩
      rw [hlatest]
      exact List.getLast?_isSome.mpr (List.ne_nil_of_mem hmem)
    · rw [← hlatest]
      exact step_drained now hlive

/-- GOAWAY with the last stream id 1, and with 0. -/
def lastIsOne : WireFrame := .ofParts .goAway ⟨0⟩ .connection [0, 0, 0, 1, 0, 0, 0, 0] (by decide)

def lastIsNone : WireFrame := .ofParts .goAway ⟨0⟩ .connection [0, 0, 0, 0, 0, 0, 0, 0] (by decide)

/-- The first GOAWAY refuses the request that waits, the second the one that was opened. -/
theorem goAway_splits_twice :
    let s := machine.run (.start .default 0 0 0) (openAndWaiting ++ [(1, .frame lastIsOne)])
    Split (.new 0) { s with now := 5 } (step (5, .frame lastIsNone) s) ∧
      hearings (step (5, .frame lastIsNone) s).log =
        [(⟨1⟩, ⟨0⟩, .reset (.new 3) .refusedStream), (⟨0⟩, ⟨0⟩, .reset (.new 1) .refusedStream)] ∧
      (step (1 + peerDrainDeadline, .drained) s).stop.isSome = true := by
  obtain ⟨hsplits, hruns⟩ := goAway_splits_work
  refine ⟨hsplits _ _ _ _ (by decide +kernel) (by decide +kernel) (by decide +kernel)
    (by decide +kernel), by decide +kernel, ?_⟩
  have hended := (hruns _ (openAndWaiting ++ [(1, .frame lastIsOne)])
    ⟨.default, 0, 0, 0, by decide, by decide, rfl⟩ (by decide +kernel)).2 (1 + peerDrainDeadline)
  exact hended.mpr ⟨.new 1, 1 + peerDrainDeadline, by decide +kernel, .inr (Nat.le_refl _)⟩

/-- A request that was cancelled before it came is dropped and hears nothing. -/
theorem cancelled_unanswered :
    ¬ ∀ b is now request clientId head endStream events, Fresh b →
      (machine.run b is).stop = none → (∃ i ∈ is, i.2.farewell.isSome) →
      hearings (step (now, .message (.request request clientId head endStream events))
        (machine.run b is)).log =
        hearings (machine.run b is).log ++ [(request, events, .reset clientId .refusedStream)] := by
  intro h
  have hcancelled := h (.start .default 0 0 0)
    [(0, .message (.cancel ⟨0⟩ .cancel)), (0, .frame lastIsNone)] 0 ⟨0⟩ (.new 1)
    ⟨ascii "GET", ascii "http", none, ascii "/", []⟩ true ⟨0⟩
    ⟨.default, 0, 0, 0, by decide, by decide, rfl⟩ (by decide +kernel) (by decide +kernel)
  revert hcancelled
  decide +kernel

end Upstream

end H2Proxy
