import H2Proxy.Lib.Index
import H2Proxy.Up.Queue

/-
  The maps of an upstream connection.

  A live stream has a route, a route has a live stream, and `requests` finds the stream of every
  route by its request (`Consistent`). Every move keeps this but the two that break a promise: a
  request under an id that is in use, and a WINDOW_UPDATE that the connection answers with a reset
  (`Severs`), which drops the stream and leaves its route and its request.
-/

namespace H2Proxy

open AList

/-- A mild event opens a stream that was idle. -/
theorem StreamState.transition_idle {next : StreamState} {event : StreamEvent}
    (hevent : event.mild = true) (h : StreamState.idle.transition event = .ok next) :
    next.peerCanSend = true ∧ next.isClosed = false := by
  unfold StreamEvent.mild at hevent
  split at hevent
  · rename_i endStream
    cases endStream <;> cases h <;> exact ⟨rfl, rfl⟩
  · cases h
  · cases h
    exact ⟨rfl, rfl⟩
  · cases h
  · cases hevent

/-- A stream that takes an event was live, and the event legal. -/
theorem StreamTable.apply_from {t : StreamTable} {id : StreamId} {event : StreamEvent}
    {next : StreamState} (h : (t.apply id event).2 = .ok next) :
    ∃ s, t.get? id = some s ∧ s.state.transition event = .ok next := by
  unfold apply at h
  cases hs : t.get? id with
  | none => rw [hs] at h; cases h
  | some s =>
    rw [hs] at h
    dsimp only at h
    cases ht : s.state.transition event with
    | error code => rw [ht] at h; cases h
    | ok next' =>
      rw [ht] at h
      cases h
      exact ⟨s, rfl, ht⟩

namespace UpstreamCore

/-- An amendment leaves who waits. -/
theorem map_amended (request : RequestId) (f : Pending → Pending)
    (hf : ∀ p, (f p).request = p.request) (ps : List Pending) :
    (ps.replaceF fun p => if p.request = request then some (f p) else none).map (·.request) =
      ps.map (·.request) := by
  induction ps with
  | nil => rfl
  | cons p ps ih =>
    rw [List.replaceF_cons]
    split
    · rw [List.map_cons, List.map_cons, ih]
    · rename_i p' hsome
      split at hsome
      · cases hsome
        rw [List.map_cons, List.map_cons, hf]
      · cases hsome

/-- A shift of the windows leaves the states. -/
theorem get?_shift_state (streams : StreamTable) (delta : Int) (id : StreamId) :
    ((streams.applyInitialWindowDelta delta).1.get? id).map Stream.state =
      (streams.get? id).map Stream.state := by
  unfold StreamTable.get? StreamTable.applyInitialWindowDelta
  rcases lookup_updateAll (fun s : Stream =>
    (s.sendWindow.applyDelta delta).map fun w => { s with sendWindow := w }) streams.live id with
    ⟨st, st', hold, hmap, hnew⟩ | hsame
  · rw [hnew, hold]
    cases hd : st.sendWindow.applyDelta delta with
    | error code =>
      rw [hd] at hmap
      cases hmap
    | ok w =>
      rw [hd] at hmap
      rw [← Except.ok.inj hmap]
      rfl
  · rw [hsame]

/-- The routes are those of the live streams, and `requests` finds them by their requests. -/
structure Consistent (c : UpstreamCore) : Prop where
  routed : ∀ id, (c.routes.lookup id).isSome = (c.streams.get? id).isSome
  named : Indexes Upstream.Route.request c.routes c.requests

/-- What keeps the maps consistent from one move to the next. -/
structure Linked (c : UpstreamCore) : Prop extends Consistent c where
  known : ∀ id, (c.streams.get? id).isSome → id ≤ c.streams.highestLocalId
  /-- The backend may still send on a stream that was started. -/
  awaits : ∀ id st, c.streams.get? id = some st → st.state ≠ .idle → st.state.peerCanSend
  /-- Who waits has no stream. -/
  waits : ∀ p ∈ c.pending, c.requests.lookup p.request = none
  distinct : (c.pending.map (·.request)).Nodup

namespace Linked

variable {c c' : UpstreamCore}

/-- Nothing changed that the maps depend on. -/
theorem same (h : Linked c) (hstreams : c'.streams = c.streams) (hroutes : c'.routes = c.routes)
    (hrequests : c'.requests = c.requests) (hpending : c'.pending = c.pending) : Linked c' := by
  obtain ⟨⟨routed, named⟩, known, awaits, waits, distinct⟩ := h
  rw [← hstreams, ← hroutes] at routed
  rw [← hroutes, ← hrequests] at named
  rw [← hstreams] at known awaits
  rw [← hpending] at waits distinct
  rw [← hrequests] at waits
  exact ⟨⟨routed, named⟩, known, awaits, waits, distinct⟩

/-- The streams change and stay in their states. -/
theorem table (h : Linked c) {streams : StreamTable}
    (top : streams.highestLocalId = c.streams.highestLocalId)
    (states : ∀ id, (streams.get? id).map Stream.state = (c.streams.get? id).map Stream.state) :
    Linked { c with streams } := by
  have live : ∀ id, (streams.get? id).isSome = (c.streams.get? id).isSome := by
    intro id
    rw [← Option.isSome_map (f := Stream.state), states, Option.isSome_map]
  refine ⟨⟨fun id => (h.routed id).trans (live id).symm, h.named⟩, fun id hid => ?_,
    fun id st hid => ?_, h.waits, h.distinct⟩
  · rw [live id] at hid
    show id ≤ streams.highestLocalId
    rw [top]
    exact h.known id hid
  · have mapped := states id
    rw [show streams.get? id = some st from hid] at mapped
    obtain ⟨st', hst, hstate⟩ := Option.map_eq_some_iff.mp mapped.symm
    rw [← hstate]
    exact h.awaits id st' hst

theorem modifyStream (h : Linked c) (id : StreamId) (f : Stream → Stream)
    (hf : ∀ s, c.streams.get? id = some s → (f s).state = s.state) :
    Linked (c.modifyStream id f) := by
  refine h.table rfl fun id' => ?_
  rw [StreamTable.get?_modify]
  split
  · rename_i heq
    rw [heq]
    cases hid : c.streams.get? id with
    | none => rfl
    | some s => exact congrArg some (hf s hid)
  · rfl

theorem modifyRoute (h : Linked c) (id : StreamId) (f : Upstream.Route → Upstream.Route)
    (hf : ∀ r, (f r).request = r.request) : Linked (c.modifyRoute id f) :=
  ⟨⟨fun id' => (lookup_modify_isSome _ _ _ _).trans (h.routed id'), h.named.modify f hf⟩, h.known,
    h.awaits, h.waits, h.distinct⟩

/-- A stream takes an event that leaves the backend's side open. -/
theorem advance (h : Linked c) {id : StreamId} {event : StreamEvent} {next : StreamState}
    (hnext : (c.streams.apply id event).2 = .ok next) (hevent : event.endsRecv = false) :
    Linked { c with streams := (c.streams.apply id event).1 } := by
  obtain ⟨st, hst, ht⟩ := StreamTable.apply_from hnext
  have mild : event.mild = true := by
    cases event with
    | recvHeaders endStream | recvData endStream =>
      cases hevent
      rfl
    | sendRstStream | recvRstStream => cases hevent
    | _ => rfl
  have stays : next.peerCanSend = true ∧ next.isClosed = false := by
    by_cases idle : st.state = .idle
    · rw [idle] at ht
      exact StreamState.transition_idle mild ht
    · exact StreamState.transition_mild (h.awaits id st hst idle) mild ht
  have states : ∀ id' st', (c.streams.apply id event).1.get? id' = some st' →
      st'.state ≠ .idle → st'.state.peerCanSend = true := by
    intro id' st' hid' hidle
    rw [StreamTable.get?_apply] at hid'
    split at hid'
    · rw [hst, Option.bind_some, ht] at hid'
      dsimp only at hid'
      rw [if_neg (by rw [stays.2]; exact Bool.false_ne_true)] at hid'
      rw [← Option.some.inj hid']
      exact stays.1
    · exact h.awaits id' st' hid' hidle
  have live : ∀ id', ((c.streams.apply id event).1.get? id').isSome =
      (c.streams.get? id').isSome := by
    intro id'
    rw [StreamTable.get?_apply]
    split
    · rename_i heq
      rw [heq, hst, Option.bind_some, ht]
      dsimp only
      rw [if_neg (by rw [stays.2]; exact Bool.false_ne_true)]
      rfl
    · rfl
  refine ⟨⟨fun id' => (h.routed id').trans (live id').symm, h.named⟩, fun id' hid' => ?_, states,
    h.waits, h.distinct⟩
  rw [live id'] at hid'
  show id' ≤ (c.streams.apply id event).1.highestLocalId
  rw [StreamTable.apply_highestLocalId]
  exact h.known id' hid'

/-- A stream that is not there is dropped. -/
theorem sweep (h : Linked c) {id : StreamId} (hid : c.streams.get? id = none) :
    Linked (c.retire id) := by
  unfold retire
  rw [StreamTable.retire_of_none hid]
  exact h.table rfl fun _ => rfl

/-- A stream goes, its route and its request with it. -/
theorem forget (h : Linked c) (id : StreamId) : Linked (c.forgotten id) := by
  unfold forgotten
  cases hr : c.routes.lookup id with
  | none =>
    have gone : c.streams.get? id = none := by
      have routed := h.routed id
      rw [hr] at routed
      exact Option.not_isSome_iff_eq_none.mp fun live => by rw [live] at routed; cases routed
    rw [unrouted_none (show (c.retire id).routes.lookup id = none from hr)]
    exact h.sweep gone
  | some route =>
    rw [unrouted_some (show (c.retire id).routes.lookup id = some route from hr)]
    have live : ∀ id', (c.retire id).streams.get? id' =
        if id' = id then none else c.streams.get? id' := fun id' => get?_retire id id' c
    refine ⟨⟨fun id' => ?_, h.named.erase hr⟩, fun id' hid' => ?_, fun id' st hid' => ?_,
      fun p hp => ?_, h.distinct⟩
    · show ((c.routes.erase id).lookup id').isSome = ((c.retire id).streams.get? id').isSome
      rw [lookup_erase_eq, live]
      split
      · rfl
      · exact h.routed id'
    · replace hid' : ((c.retire id).streams.get? id').isSome := hid'
      rw [live] at hid'
      split at hid'
      · cases hid'
      · show id' ≤ (c.streams.retire id).highestLocalId
        rw [StreamTable.retire_highestLocalId]
        exact h.known id' hid'
    · replace hid' : (c.retire id).streams.get? id' = some st := hid'
      rw [live] at hid'
      split at hid'
      · cases hid'
      · exact h.awaits id' st hid'
    · show (c.requests.erase route.request).lookup p.request = none
      rw [lookup_erase_eq]
      split
      · rfl
      · exact h.waits p hp

/-- A request that neither has a stream nor waits gets one. -/
theorem opened (h : Linked c) {id : StreamId} {request : RequestId} (clientId : StreamId)
    (events : Events) (hopen : (c.streams.openLocal id).2 = .ok ())
    (hrequest : c.requests.lookup request = none)
    (hpending : ∀ p ∈ c.pending, p.request ≠ request) :
    Linked (c.opened id request clientId events) := by
  obtain ⟨-, above, -, table⟩ := StreamTable.openLocal_ok hopen
  have fresh : c.streams.get? id = none :=
    Option.not_isSome_iff_eq_none.mp fun live => above (h.known id live)
  have unrouted : c.routes.lookup id = none := by
    have routed := h.routed id
    rw [fresh] at routed
    exact Option.not_isSome_iff_eq_none.mp fun there => by rw [there] at routed; cases routed
  have live : ∀ id', (c.streams.openLocal id).1.get? id' = if id' = id then
      some (.new c.streams.initialSendWindow c.streams.initialRecvWindow)
      else c.streams.get? id' := by
    intro id'
    rw [table]
    exact StreamTable.get?_insertNew _ id id'
  have top : (c.streams.openLocal id).1.highestLocalId = id := by
    rw [table]
    rfl
  refine ⟨⟨fun id' => ?_, h.named.insert unrouted hrequest⟩, fun id' hid' => ?_,
    fun id' st hid' hidle => ?_, fun p hp => ?_, h.distinct⟩
  · show ((c.routes.insert id _).lookup id').isSome =
      ((c.streams.openLocal id).1.get? id').isSome
    rw [lookup_insert_eq, live]
    split
    · rfl
    · exact h.routed id'
  · replace hid' : ((c.streams.openLocal id).1.get? id').isSome := hid'
    show id' ≤ (c.streams.openLocal id).1.highestLocalId
    rw [live] at hid'
    rw [top]
    split at hid'
    · rename_i heq
      rw [heq]
      exact Nat.le_refl _
    · exact Nat.le_trans (h.known id' hid') (Nat.le_of_lt (Nat.lt_of_not_le above))
  · replace hid' : (c.streams.openLocal id).1.get? id' = some st := hid'
    rw [live] at hid'
    split at hid'
    · rw [← Option.some.inj hid'] at hidle
      exact absurd rfl hidle
    · exact h.awaits id' st hid' hidle
  · show (c.requests.insert request id).lookup p.request = none
    rw [lookup_insert_ne (hpending p hp)]
    exact h.waits p hp

/-- Fewer requests wait. -/
theorem fewer (h : Linked c) {pending : List Pending}
    (hp : pending.Sublist c.pending) :
    Linked { c with pending } :=
  ⟨⟨h.routed, h.named⟩, h.known, h.awaits, fun p hmem => h.waits p (hp.subset hmem),
    h.distinct.sublist (hp.map _)⟩

theorem wait (h : Linked c) {p : Pending} (hrequest : c.requests.lookup p.request = none)
    (hpending : ∀ q ∈ c.pending, q.request ≠ p.request) :
    Linked { c with pending := c.pending ++ [p] } := by
  refine ⟨⟨h.routed, h.named⟩, h.known, h.awaits, fun q hq => ?_, ?_⟩
  · obtain hq | hq := List.mem_append.mp hq
    · exact h.waits q hq
    · rw [List.mem_singleton.mp hq]
      exact hrequest
  · show ((c.pending ++ [p]).map (·.request)).Nodup
    rw [List.map_append, List.nodup_append]
    refine ⟨h.distinct, List.nodup_singleton _, ?_⟩
    rintro _ hold _ hnew rfl
    obtain ⟨q, hq, heq⟩ := List.mem_map.mp hold
    exact hpending q hq (heq.trans (List.mem_singleton.mp hnew))

theorem amend (h : Linked c) (request : RequestId) (f : Pending → Pending)
    (hf : ∀ p, (f p).request = p.request) : Linked (c.modifyPending request f) := by
  have names : (c.modifyPending request f).pending.map (·.request) =
      c.pending.map (·.request) := map_amended request f hf c.pending
  refine ⟨⟨h.routed, h.named⟩, h.known, h.awaits, fun p hp => ?_, ?_⟩
  · have named := List.mem_map_of_mem (f := fun p : Pending => p.request) hp
    rw [names] at named
    obtain ⟨q, hq, heq⟩ := List.mem_map.mp named
    show c.requests.lookup p.request = none
    rw [← heq]
    exact h.waits q hq
  · rw [names]
    exact h.distinct

end Linked

/-- Who is not in use has no stream and does not wait. -/
theorem of_inUse {c : UpstreamCore} {r : RequestId} (h : c.inUse r = false) :
    c.requests.lookup r = none ∧ ∀ p ∈ c.pending, p.request ≠ r := by
  obtain ⟨hrequest, hpending⟩ := Bool.or_eq_false_iff.mp h
  refine ⟨Option.not_isSome_iff_eq_none.mp (by rw [hrequest]; exact Bool.false_ne_true),
    fun p hp heq => ?_⟩
  have waiting : c.pending.any (·.request = r) = true :=
    List.any_eq_true.mpr ⟨p, hp, decide_eq_true heq⟩
  rw [hpending] at waiting
  cases waiting

/-- Where nothing is orphaned and no id used twice, the maps stay linked. -/
theorem Move.linked {allows : Mishap → Prop} {c c' : UpstreamCore} (horphan : ¬ allows .orphan)
    (hreuse : ¬ allows .reuse) (h : Linked c) (hm : Move allows c c') : Linked c' := by
  cases hm with
  | note | publish | answer | tell | uncancel | cancel | skip | giveBack | overspend =>
    exact h.same rfl rfl rfl rfl
  | stream id f hf => exact h.modifyStream id f fun s hs => (hf s hs).1
  | ceiling max => exact h.table rfl fun _ => rfl
  | shift delta => exact h.table rfl fun id => get?_shift_state _ delta id
  | advance hnext hevent => exact h.advance hnext hevent
  | sweep hid => exact h.sweep hid
  | orphan id ha => exact absurd ha horphan
  | forget id => exact h.forget id
  | head id => exact h.modifyRoute id _ fun _ => rfl
  | unwait request => exact h.fewer List.filter_sublist
  | wait p ha hu =>
    obtain ⟨hrequest, hpending⟩ := of_inUse (Bool.eq_false_iff.mpr fun used => hreuse (hu used))
    exact h.wait hrequest hpending
  | amend request f hf => exact h.amend request f hf
  | accept request clientId events hopen ha hu =>
    obtain ⟨hrequest, hpending⟩ := of_inUse (Bool.eq_false_iff.mpr fun used => hreuse (hu used))
    exact h.opened clientId events hopen hrequest hpending
  | take hp => exact h.fewer (hp ▸ List.sublist_cons_self _ _)
  | @start p pending id hp hopen =>
    have taken : Linked { c with pending } := h.fewer (hp ▸ List.sublist_cons_self _ _)
    have distinct := h.distinct
    rw [hp, List.map_cons, List.nodup_cons] at distinct
    refine taken.opened p.clientId p.events hopen (h.waits p (by rw [hp]; exact .head _)) ?_
    exact fun q hq heq => distinct.1 (heq ▸ List.mem_map_of_mem hq)
  | drain last deadline => exact (h.fewer (List.nil_sublist _)).same rfl rfl rfl rfl
  | @receive id stream len connRecvWindow recvWindow hs hc hr =>
    have recorded : Linked (c.modifyStream id ({ · with recvWindow })) :=
      h.modifyStream id _ fun _ _ => rfl
    have owed : Linked (UpstreamCore.modifyRoute id (fun r =>
        { r with pendingConnRelease := satAdd32 r.pendingConnRelease len })
          (c.modifyStream id ({ · with recvWindow }))) := recorded.modifyRoute id _ fun _ => rfl
    exact owed.same rfl rfl rfl rfl
  | @release request id n hr ho =>
    have credited : Linked (c.modifyStream id fun s =>
        { s with recvWindow := (s.recvWindow.release n).1 }) := h.modifyStream id _ fun _ _ => rfl
    have settled : Linked (UpstreamCore.modifyRoute id (fun r =>
        { r with pendingConnRelease := r.pendingConnRelease - n })
          (c.modifyStream id fun s => { s with recvWindow := (s.recvWindow.release n).1 })) :=
      credited.modifyRoute id _ fun _ => rfl
    exact settled.same rfl rfl rfl rfl

theorem Linked.start (tuning : Tuning) (idle timeout : Duration) (now : Instant) :
    Linked (Upstream.start tuning idle timeout now).toUpstreamCore where
  routed _ := rfl
  named := .empty
  known _ h := by cases h
  awaits _ _ h := by cases h
  waits _ h := by cases h
  distinct := List.nodup_nil

end UpstreamCore

namespace Upstream

variable {s t : Upstream} {b : Upstream}

/-! ## Steps -/

/-- A connection that has stopped and holds nothing any more. -/
structure Ended (s : Upstream) : Prop where
  stopped : s.stop.isSome
  routes : s.routes = ∅
  requests : s.requests = ∅
  pending : s.pending = []

theorem conclude_ended (stop : Stop) (s : Upstream) :
    (conclude stop s).Ended ∧ (conclude stop s).cancelled = s.cancelled := by
  unfold conclude queueFrame queueFields
  cases stop with
  | quiet => exact ⟨⟨rfl, rfl, rfl, rfl⟩, rfl⟩
  | failed e =>
    dsimp only
    cases (Frame.goAway s.streams.highestLocalId e.code (ascii e.debug)).write with
    | error e' => exact ⟨⟨rfl, rfl, rfl, rfl⟩, rfl⟩
    | ok octets => exact ⟨⟨rfl, rfl, rfl, rfl⟩, rfl⟩

/-- A connection that has stopped only answers what it is sent. -/
theorem step_rests (allows : Mishap → Prop) (i : Instant × UpInput) (h : s.stop.isSome) :
    UpstreamCore.Moves allows s.toUpstreamCore (step i s).toUpstreamCore := by
  unfold step
  rw [if_pos h]
  cases i.2 with
  | message m =>
    cases m with
    | request id clientId head endStream events =>
      exact .single (.answer id events (.gone clientId))
    | _ => exact .refl
  | _ => exact .refl

/-- A step of a connection that runs is a sequence of moves, or its end. -/
theorem step_cases (i : Instant × UpInput) (running : s.stop = none) :
    UpstreamCore.Moves (s.mishaps i.2) s.toUpstreamCore (step i s).toUpstreamCore ∨
      (step i s).Ended ∧ ∃ c, UpstreamCore.Moves (s.mishaps i.2) s.toUpstreamCore c ∧
        (step i s).cancelled = c.cancelled := by
  have hmoves := react_reaches (s := { s with now := i.1 }) i.2
  unfold step
  rw [if_neg (by rw [running]; exact Bool.false_ne_true)]
  generalize react i.2 { s with now := i.1 } = r at hmoves
  cases r with
  | error e t =>
    obtain ⟨connRecvWindow, ht⟩ := hmoves
    exact .inr ⟨(conclude_ended _ t).1, _, ht, (conclude_ended _ t).2⟩
  | ok next t =>
    cases next with
    | continue_ => exact .inl hmoves
    | close => exact .inr ⟨(conclude_ended _ t).1, _, hmoves, (conclude_ended _ t).2⟩

/-- What holds of the state where an input was taken and the connection goes on. -/
theorem step_continues {i : Instant × UpInput} (running : s.stop = none) {P : Upstream → Prop}
    (h : Ends (react i.2 { s with now := i.1 }) (fun next t => next = .continue_ ∧ P t)
      fun _ _ => False) : P (step i s) := by
  unfold step
  rw [if_neg (by rw [running]; exact Bool.false_ne_true)]
  generalize react i.2 { s with now := i.1 } = r at h
  cases r with
  | ok next t =>
    obtain ⟨rfl, ht⟩ := h
    exact ht
  | error e t => exact h.elim

/-! ## The two broken promises -/

/-- A request comes under an id that is in use. -/
def repeats (s : Upstream) : UpInput → Bool
  | .message m => s.reuses m
  | _ => false

def Repeats (s : Upstream) (i : Instant × UpInput) : Prop := s.stop = none ∧ s.repeats i.2

instance (s : Upstream) (i : Instant × UpInput) : Decidable (s.Repeats i) :=
  inferInstanceAs (Decidable (_ ∧ _))

/-- A WINDOW_UPDATE drops a live stream and nothing with it. -/
def severs (s : Upstream) : UpInput → Bool
  | .frame w => (s.handled w).any s.orphans
  | _ => false

def Severs (s : Upstream) (i : Instant × UpInput) : Prop := s.stop = none ∧ s.severs i.2

instance (s : Upstream) (i : Instant × UpInput) : Decidable (s.Severs i) :=
  inferInstanceAs (Decidable (_ ∧ _))

theorem not_reuse {i : Instant × UpInput} (running : s.stop = none) (h : ¬ s.Repeats i) :
    ¬ s.mishaps i.2 .reuse := by
  rintro ⟨m, hm, reuses⟩
  refine h ⟨running, ?_⟩
  rw [hm]
  exact reuses

theorem not_orphan {i : Instant × UpInput} (running : s.stop = none) (h : ¬ s.Severs i) :
    ¬ s.mishaps i.2 .orphan := by
  rintro ⟨w, hw, orphans⟩
  refine h ⟨running, ?_⟩
  rw [hw]
  exact orphans

/-- A stream is gone and all else is as it was. -/
structure Severed (id : StreamId) (s t : Upstream) : Prop where
  stop : t.stop = s.stop
  streams : t.streams = { s.streams.retire id with reclaimed := 0 }
  routes : t.routes = s.routes
  requests : t.requests = s.requests
  pending : t.pending = s.pending

theorem writeRstStream_severed (s : Upstream) (id : StreamId) (code : ErrorCode) :
    Ends (writeRstStream id code s) (fun _ => Severed id s) fun _ _ => False := by
  have short : (Frame.rstStream id code).payloadLen ≤ maxAllowedFrameSize :=
    show 4 ≤ maxAllowedFrameSize by decide
  obtain ⟨octets, hwrite, -⟩ := Frame.write_of_le short
  unfold writeRstStream queueFrame queueFields
  rw [ends_bind, ends_onCore, ends_bind, ends_unready, hwrite]
  exact ⟨rfl, rfl, rfl, rfl, rfl⟩

/-- A stream that a WINDOW_UPDATE spoils is severed. -/
theorem recvWindowUpdate_severed {id : StreamId} {increment : Nat} {stream : Stream}
    (live : s.streams.get? id = some stream) (spoilt : spoils id increment stream) :
    Ends (recvWindowUpdate id increment s) (fun _ => Severed id s) fun _ _ => False := by
  unfold spoils at spoilt
  rw [Bool.and_eq_true, Bool.not_eq_true'] at spoilt
  obtain ⟨other, spoilt⟩ := spoilt
  unfold recvWindowUpdate
  rw [other]
  by_cases zero : increment = 0
  · rw [if_pos zero]
    exact writeRstStream_severed s id .protocolError
  · rw [if_neg zero, decide_eq_false zero, Bool.false_or] at *
    have found : s.streams.lookup id = .live stream := StreamTable.lookup_live.mpr live
    refine ends_ite.mpr ⟨fun no => (by cases no), fun _ => ?_⟩
    rw [ends_bind, ends_get, found]
    dsimp only
    cases hinc : stream.sendWindow.increase increment with
    | error code => exact writeRstStream_severed s id .flowControlError
    | ok window =>
      rw [hinc] at spoilt
      cases spoilt

/-- What is handled fits, is a frame and may come now. -/
theorem of_handled {w : WireFrame} {frame : Frame} (h : s.handled w = some frame) :
    ¬ w.header.length > s.localSettings.maxFrameSize ∧ w.decode = .ok (.frame frame) ∧
      s.headerBlockError frame = none := by
  unfold handled at h
  split at h
  · cases h
  rename_i fits
  split at h
  · rename_i frame' hw
    split at h
    · rename_i hblock
      cases h
      exact ⟨fits, hw, Option.isNone_iff_eq_none.mp hblock⟩
    · cases h
  · cases h

theorem recvWire_severed {w : WireFrame} (orphaned : (s.handled w).any s.orphans) :
    ∃ id, (s.streams.get? id).isSome ∧
      Ends (recvWire w s) (fun _ => Severed id s) fun _ _ => False := by
  obtain ⟨frame, hframe, orphans⟩ := (Option.any_eq_true _ _).mp orphaned
  obtain ⟨fits, hw, hblock⟩ := of_handled hframe
  cases frame with
  | windowUpdate id increment =>
    rw [orphans_windowUpdate] at orphans
    obtain ⟨stream, live, spoilt⟩ := (Option.any_eq_true _ _).mp orphans
    refine ⟨id, by rw [live]; rfl, ?_⟩
    unfold recvWire
    rw [ends_bind, ends_onCore, ends_bind, ends_get, ends_ite]
    refine ⟨fun long => absurd long fits, fun _ => ?_⟩
    rw [hw]
    dsimp only
    unfold handleFrame
    have order : (s.withCore (s.toUpstreamCore.observe (.heard w))).headerBlockError
        (.windowUpdate id increment) = none := hblock
    rw [ends_bind, ends_get, order]
    have heard := recvWindowUpdate_severed
      (s := s.withCore (s.toUpstreamCore.observe (.heard w))) live spoilt
    exact heard.mono (fun _ t ht => ⟨ht.stop, ht.streams, ht.routes, ht.requests, ht.pending⟩)
      fun _ _ h => h
  | _ => cases orphans

/-- A step that severs a stream leaves everything else as it was. -/
theorem step_severed {i : Instant × UpInput} (h : s.Severs i) :
    ∃ id, (s.streams.get? id).isSome ∧ Severed id s (step i s) := by
  obtain ⟨running, orphaned⟩ := h
  obtain ⟨now, i⟩ := i
  unfold severs at orphaned
  split at orphaned
  case h_2 => cases orphaned
  rename_i w hw
  dsimp only at hw
  subst hw
  obtain ⟨id, live, ends⟩ := recvWire_severed (s := { s with now }) orphaned
  refine ⟨id, live, step_continues running (ends_bind.mpr (ends.mono (fun _ t ht => ?_)
    fun _ _ h => h))⟩
  exact ⟨rfl, ht.stop, ht.streams, ht.routes, ht.requests, ht.pending⟩

/-! ## Consistent maps -/

/-- The maps are linked, or the connection holds nothing any more. -/
def Bound (s : Upstream) : Prop := s.Linked ∨ s.Ended

theorem Bound.linked (h : s.Bound) (running : s.stop = none) : s.Linked := by
  rcases h with linked | ended
  · exact linked
  · have stopped := ended.stopped
    rw [running] at stopped
    cases stopped

theorem Ended.step (h : s.Ended) (i : Instant × UpInput) :
    (step i s).Ended ∧ (step i s).cancelled = s.cancelled := by
  unfold Upstream.step
  rw [if_pos h.stopped]
  cases i.2 with
  | message m =>
    cases m with
    | request => exact ⟨⟨h.stopped, h.routes, h.requests, h.pending⟩, rfl⟩
    | _ => exact ⟨h, rfl⟩
  | _ => exact ⟨h, rfl⟩

theorem step_linked {i : Instant × UpInput} (h : s.Linked) (running : s.stop = none)
    (hnew : ¬ s.Repeats i) (whole : ¬ s.Severs i) : (step i s).Bound := by
  rcases step_cases i running with hmoves | ⟨ended, -⟩
  · exact .inl (hmoves.invariant (fun _ _ hc hm =>
      hm.linked (not_orphan running whole) (not_reuse running hnew) hc) h)
  · exact .inr ended

theorem step_bound {i : Instant × UpInput} (h : s.Bound)
    (hnew : ¬ s.Repeats i) (whole : ¬ s.Severs i) : (step i s).Bound := by
  cases hstop : s.stop with
  | none => exact step_linked (h.linked hstop) hstop hnew whole
  | some stop =>
    have stopped : s.stop.isSome := by rw [hstop]; rfl
    rcases h with linked | ended
    · refine .inl ((step_rests (fun _ => False) i stopped).invariant ?_ linked)
      exact fun _ _ hc hm => hm.linked (fun no => no) (fun no => no) hc
    · exact .inr (ended.step i).1

/-- A severed stream leaves a route behind. -/
theorem Severs.inconsistent {i : Instant × UpInput} (h : s.Linked) (severs : s.Severs i) :
    (step i s).stop = none ∧ ¬ (step i s).Consistent := by
  obtain ⟨id, live, severed⟩ := step_severed severs
  refine ⟨severed.stop.trans severs.1, fun consistent => ?_⟩
  have routed := consistent.routed id
  rw [severed.routes, severed.streams, h.routed id, live] at routed
  have gone := s.streams.get?_retire id id
  rw [if_pos rfl] at gone
  rw [show StreamTable.get? { s.streams.retire id with reclaimed := 0 } id =
    (s.streams.retire id).get? id from rfl, gone] at routed
  cases routed

theorem Fresh.bound (h : b.Fresh) : b.Bound := by
  obtain ⟨tuning, idle, timeout, now, -, -, rfl⟩ := h
  exact .inl (.start tuning idle timeout now)

/-- In a run without repeated ids the maps are consistent between any two steps, as long as the
    connection runs, if and only if no step severs a stream. -/
theorem consistent_iff (hb : b.Fresh) (is : List (Instant × UpInput))
    (hnew : machine.Meets (fun s i => ¬ s.Repeats i) b is) :
    machine.Meets (fun s i => ¬ s.Severs i) b is ↔
      ∀ js, js <+: is → (machine.run b js).stop = none → (machine.run b js).Consistent := by
  refine Machine.meets_iff_forall_history (I := fun js => (machine.run b js).Bound) is hb.bound
    (fun js _ h running => (h.linked running).toConsistent) (fun js i hjs h whole => ?_)
    fun js i _ h consistent severs => ?_
  · rw [Machine.run_append]
    exact step_bound h (hnew.step hjs) whole
  · rw [Machine.run_append] at consistent
    obtain ⟨running, broken⟩ := Severs.inconsistent (h.linked severs.1) severs
    exact broken (consistent running)

theorem consistent_oneWaits :
    (machine.run (.start .default 0 0 0) openAndWaiting).Consistent :=
  (consistent_iff ⟨.default, 0, 0, 0, by decide, by decide, rfl⟩ openAndWaiting
    (by decide +kernel)).mp (by decide +kernel) _ (List.prefix_refl _) (by decide +kernel)

/-- A request is on its stream and another waits; then the window of the stream overflows. -/
def overflowed : List (Instant × UpInput) :=
  openAndWaiting ++
    [(0, .frame (.ofParts .windowUpdate ⟨0⟩ (.new 1) [127, 255, 255, 255] (by decide)))]

/-- The stream goes; its route and its request stay. -/
theorem route_left_behind :
    ¬ ∀ b is, Fresh b → machine.Meets (fun s i => ¬ s.Repeats i) b is →
      (machine.run b is).stop = none → (machine.run b is).Consistent := by
  intro h
  have left : ((machine.run (.start .default 0 0 0) overflowed).routes.lookup (.new 1)).isSome =
      true := by decide +kernel
  have gone : ((machine.run (.start .default 0 0 0) overflowed).streams.get? (.new 1)).isSome =
      false := by decide +kernel
  have consistent := h _ overflowed ⟨.default, 0, 0, 0, by decide, by decide, rfl⟩
    (by decide +kernel) (by decide +kernel)
  rw [consistent.routed, gone] at left
  cases left

end Upstream

end H2Proxy
