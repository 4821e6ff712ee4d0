import H2Proxy.Up.Links

/-
  The ledger of an upstream connection's receive window.

  Every octet of the window is available to the backend, gathered for the next WINDOW_UPDATE, or
  held by the client of a route (`Balanced`). Neither a severed stream nor a repeated request id
  disturbs it; DATA beyond its stream's window does, and a client that releases more than it was
  given.
-/

namespace H2Proxy

open AList

namespace UpstreamCore

/-- A live stream has a route, whoever is found by its request has a route of that request, and
    no route is of a stream that is yet to be opened. -/
structure Found (c : UpstreamCore) : Prop where
  live : ∀ id, (c.streams.get? id).isSome → (c.routes.lookup id).isSome
  routed : ∀ r id, c.requests.lookup r = some id →
    ∃ route, c.routes.lookup id = some route ∧ route.request = r
  known : ∀ id, (c.routes.lookup id).isSome → id ≤ c.streams.highestLocalId

/-- Octets passed on to clients and not yet released by them. -/
def withheld (c : UpstreamCore) : Nat := c.routes.total (·.pendingConnRelease)

/-- The window of `credit` octets, wherever they are. -/
structure Ledger (credit : Int) (c : UpstreamCore) : Prop extends Found c where
  sum : c.connRecvWindow.available + c.connRecvWindow.unreleased + c.withheld = credit
  lower : -(2 ^ 31) ≤ c.connRecvWindow.available

variable {allows : Mishap → Prop} {c c' : UpstreamCore} {credit : Int}

namespace Found

/-- The routes stay, and no stream comes. -/
theorem same (h : Found c) (hrequests : c'.requests = c.requests) (hroutes : c'.routes = c.routes)
    (top : c'.streams.highestLocalId = c.streams.highestLocalId)
    (hlive : ∀ id, (c'.streams.get? id).isSome → (c.streams.get? id).isSome) : Found c' := by
  obtain ⟨live, routed, known⟩ := h
  rw [← hroutes] at live
  rw [← hrequests, ← hroutes] at routed
  rw [← hroutes, ← top] at known
  exact ⟨fun id hid => live id (hlive id hid), routed, known⟩

theorem modifyStream (h : Found c) (id : StreamId) (f : Stream → Stream) :
    Found (c.modifyStream id f) := by
  refine h.same rfl rfl rfl fun id' hid' => ?_
  exact (lookup_modify_isSome c.streams.live id id' f).symm.trans hid'

theorem modifyRoute (h : Found c) (id : StreamId) (f : Upstream.Route → Upstream.Route)
    (hf : ∀ r, (f r).request = r.request) : Found (c.modifyRoute id f) := by
  refine ⟨fun id' hid' => ?_, fun r id' hr => ?_, fun id' hid' => h.known id' ?_⟩
  · show ((c.routes.modify id f).lookup id').isSome
    rw [lookup_modify_isSome]
    exact h.live id' hid'
  · obtain ⟨route, hroute, hrequest⟩ := h.routed r id' hr
    show ∃ route, (c.routes.modify id f).lookup id' = some route ∧ _
    rw [lookup_modify]
    split
    · rename_i heq
      rw [← heq, hroute]
      exact ⟨f route, rfl, (hf route).trans hrequest⟩
    · exact ⟨route, hroute, hrequest⟩
  · rw [← lookup_modify_isSome c.routes id id' f]
    exact hid'

/-- A stream goes; its route may stay. -/
theorem retire (h : Found c) (id : StreamId) : Found (c.retire id) := by
  refine h.same rfl rfl (StreamTable.retire_highestLocalId _ _) fun id' hid' => ?_
  rw [get?_retire] at hid'
  split at hid'
  · cases hid'
  · exact hid'

/-- A route goes, and its request with it, where its stream has gone. -/
theorem unrouted (h : Found c) {id : StreamId} (gone : c.streams.get? id = none) :
    Found (c.unrouted id) := by
  cases hr : c.routes.lookup id with
  | none =>
    rw [unrouted_none hr]
    exact h
  | some route =>
    rw [unrouted_some hr]
    refine ⟨fun id' hid' => ?_, fun r id' hr' => ?_, fun id' hid' => h.known id' ?_⟩
    · show ((c.routes.erase id).lookup id').isSome
      rw [lookup_erase_eq, if_neg]
      · exact h.live id' hid'
      · rintro rfl
        rw [gone] at hid'
        cases hid'
    · replace hr' : (c.requests.erase route.request).lookup r = some id' := hr'
      rw [lookup_erase_eq] at hr'
      split at hr'
      · cases hr'
      rename_i other
      obtain ⟨route', hroute', hrequest'⟩ := h.routed r id' hr'
      refine ⟨route', ?_, hrequest'⟩
      show (c.routes.erase id).lookup id' = some route'
      rw [lookup_erase_eq, if_neg, hroute']
      rintro rfl
      rw [hr] at hroute'
      exact other (hrequest'.symm.trans (congrArg _ (Option.some.inj hroute').symm))
    · replace hid' : ((c.routes.erase id).lookup id').isSome := hid'
      rw [lookup_erase_eq] at hid'
      split at hid'
      · cases hid'
      · exact hid'

theorem opened (h : Found c) {id : StreamId} (request : RequestId) (clientId : StreamId)
    (events : Events) (hopen : (c.streams.openLocal id).2 = .ok ()) :
    c.routes.lookup id = none ∧ Found (c.opened id request clientId events) := by
  obtain ⟨-, above, -, table⟩ := StreamTable.openLocal_ok hopen
  have unrouted : c.routes.lookup id = none :=
    Option.not_isSome_iff_eq_none.mp fun there => above (h.known id there)
  have top : (c.streams.openLocal id).1.highestLocalId = id := by
    rw [table]
    rfl
  refine ⟨unrouted, fun id' hid' => ?_, fun r id' hr => ?_, fun id' hid' => ?_⟩
  · replace hid' : ((c.streams.openLocal id).1.get? id').isSome := hid'
    show ((c.routes.insert id ⟨clientId, events, request, false, 0⟩).lookup id').isSome
    rw [table] at hid'
    rw [StreamTable.get?_insertNew] at hid'
    rw [lookup_insert_eq]
    split at hid'
    · rename_i own
      rw [if_pos own]
      rfl
    · rename_i other
      rw [if_neg other]
      exact h.live id' hid'
  · replace hr : (c.requests.insert request id).lookup r = some id' := hr
    show ∃ route, (c.routes.insert id ⟨clientId, events, request, false, 0⟩).lookup id' =
      some route ∧ _
    rw [lookup_insert_eq] at hr ⊢
    split at hr
    · rename_i own
      rw [if_pos (Option.some.inj hr).symm]
      exact ⟨_, rfl, own.symm⟩
    · obtain ⟨route, hroute, hrequest⟩ := h.routed r id' hr
      rw [if_neg, hroute]
      · exact ⟨route, rfl, hrequest⟩
      · rintro rfl
        rw [unrouted] at hroute
        cases hroute
  · replace hid' : ((c.routes.insert id ⟨clientId, events, request, false, 0⟩).lookup id').isSome :=
      hid'
    show id' ≤ (c.streams.openLocal id).1.highestLocalId
    rw [top]
    rw [lookup_insert_eq] at hid'
    split at hid'
    · rename_i heq
      rw [heq]
      exact Nat.le_refl _
    · exact Nat.le_trans (h.known id' hid') (Nat.le_of_lt (Nat.lt_of_not_le above))

end Found

namespace Ledger

/-- Neither the window nor what is withheld changes. -/
theorem same (h : Ledger credit c) (found : Found c')
    (window : c'.connRecvWindow = c.connRecvWindow) (withheld : c'.withheld = c.withheld) :
    Ledger credit c' := by
  obtain ⟨-, sum, lower⟩ := h
  rw [← window, ← withheld] at sum
  rw [← window] at lower
  exact ⟨found, sum, lower⟩

/-- `n` octets that were withheld, or arrived for nobody, come back. -/
theorem returned (hc : credit ≤ maxWindowSize) {w : RecvWindow}
    (found : Found c') (lower : -(2 ^ 31) ≤ w.available) {n : Nat}
    (before : w.available + w.unreleased + c'.withheld + n = credit)
    (window : c'.connRecvWindow = (w.release n).1) : Ledger credit c' := by
  have room : w.available + w.unreleased + n ≤ maxWindowSize := by omega
  have sum := w.release_sum n room lower
  have more := w.release_increment n room lower
  refine ⟨found, ?_, ?_⟩
  · rw [window]
    omega
  · rw [window, more]
    omega

/-- A route goes; what its client held comes back. -/
theorem unrouted (h : Ledger credit c) (hc : credit ≤ maxWindowSize) {id : StreamId}
    (gone : c.streams.get? id = none) : Ledger credit (c.unrouted id) := by
  have found := h.toFound.unrouted gone
  cases hr : c.routes.lookup id with
  | none =>
    rw [unrouted_none hr]
    exact h
  | some route =>
    rw [unrouted_some hr] at found ⊢
    have split : c.withheld = route.pendingConnRelease +
        (c.routes.erase id).total (·.pendingConnRelease) := total_eq_erase _ hr
    have sum := h.sum
    rw [split] at sum
    by_cases held : route.pendingConnRelease > 0
    · refine returned hc (n := route.pendingConnRelease) found h.lower ?_ (if_pos held)
      show _ + _ + ((c.routes.erase id).total (·.pendingConnRelease) : Int) + _ = _
      push_cast at sum ⊢
      omega
    · refine ⟨found, ?_, ?_⟩
      · show ((if route.pendingConnRelease > 0 then _ else c.connRecvWindow) : RecvWindow).available +
          ((if route.pendingConnRelease > 0 then _ else c.connRecvWindow) : RecvWindow).unreleased +
          ((c.routes.erase id).total (·.pendingConnRelease) : Int) = credit
        rw [if_neg held]
        omega
      · show -(2 ^ 31) ≤
          ((if route.pendingConnRelease > 0 then _ else c.connRecvWindow) : RecvWindow).available
        rw [if_neg held]
        exact h.lower

theorem opened (h : Ledger credit c) {id : StreamId} (request : RequestId) (clientId : StreamId)
    (events : Events) (hopen : (c.streams.openLocal id).2 = .ok ()) :
    Ledger credit (c.opened id request clientId events) := by
  obtain ⟨unrouted, found⟩ := h.toFound.opened request clientId events hopen
  refine h.same found rfl ?_
  show (c.routes.insert id ⟨clientId, events, request, false, 0⟩).total (·.pendingConnRelease) =
    c.routes.total (·.pendingConnRelease)
  rw [total_insert_of_none _ _ unrouted]
  exact Nat.zero_add _

/-- Changes of a route that leave what its client holds. -/
theorem modifyRoute (h : Ledger credit c) (id : StreamId) (f : Upstream.Route → Upstream.Route)
    (hf : ∀ r, (f r).request = r.request ∧ (f r).pendingConnRelease = r.pendingConnRelease) :
    Ledger credit (c.modifyRoute id f) := by
  refine h.same (h.toFound.modifyRoute id f fun r => (hf r).1) rfl ?_
  refine total_congr _ fun id' => ?_
  show ((c.routes.modify id f).lookup id').map _ = _
  rw [lookup_modify]
  split
  · rename_i heq
    rw [heq]
    cases c.routes.lookup id with
    | none => rfl
    | some r => exact congrArg some (hf r).2
  · rfl

/-- DATA on a live stream is withheld for its client. -/
theorem received (h : Ledger credit c) (hc : credit ≤ maxWindowSize) {id : StreamId}
    {stream : Stream} {len : Nat} {connRecvWindow : RecvWindow} (recvWindow : RecvWindow)
    (hs : c.streams.get? id = some stream)
    (recorded : c.connRecvWindow.record len = .ok connRecvWindow) :
    Ledger credit (c.received id len connRecvWindow recvWindow) := by
  obtain ⟨fits, available, unreleased, -⟩ := RecvWindow.record_ok recorded
  obtain ⟨route, hroute⟩ := Option.isSome_iff_exists.mp (h.live id (by rw [hs]; rfl))
  have held := le_total (fun r : Upstream.Route => r.pendingConnRelease) hroute
  have sum := h.sum
  unfold withheld at sum
  have exact_sum : satAdd32 route.pendingConnRelease len = route.pendingConnRelease + len := by
    apply satAdd32_eq
    unfold maxWindowSize at hc
    unfold u32Max
    omega
  have found : Found (c.received id len connRecvWindow recvWindow) :=
    ((h.toFound.modifyStream id ({ · with recvWindow })).modifyRoute id
      (fun r => { r with pendingConnRelease := satAdd32 r.pendingConnRelease len })
      fun _ => rfl).same rfl rfl rfl fun _ hid => hid
  have total := total_modify (fun r : Upstream.Route => r.pendingConnRelease)
    (fun r => { r with pendingConnRelease := satAdd32 r.pendingConnRelease len }) hroute
  dsimp only at total
  rw [exact_sum] at total
  have lower := h.lower
  refine ⟨found, ?_, ?_⟩
  · show connRecvWindow.available + connRecvWindow.unreleased +
      ((c.routes.modify id fun r =>
        { r with pendingConnRelease := satAdd32 r.pendingConnRelease len }).total
          (·.pendingConnRelease) : Int) = credit
    rw [available, unreleased]
    omega
  · show -(2 ^ 31) ≤ connRecvWindow.available
    rw [available]
    omega

/-- What a client releases of what it holds is credited. -/
theorem released (h : Ledger credit c) (hc : credit ≤ maxWindowSize) {id : StreamId} {n : Nat}
    {route : Upstream.Route} (hroute : c.routes.lookup id = some route)
    (holds : n ≤ route.pendingConnRelease) : Ledger credit (c.released id n) := by
  have found : Found (c.released id n) :=
    ((h.toFound.modifyStream id fun s => { s with recvWindow := (s.recvWindow.release n).1 }).modifyRoute
      id (fun r => { r with pendingConnRelease := r.pendingConnRelease - n })
      fun _ => rfl).same rfl rfl rfl fun _ hid => hid
  have total := total_modify (fun r : Upstream.Route => r.pendingConnRelease)
    (fun r => { r with pendingConnRelease := r.pendingConnRelease - n }) hroute
  dsimp only at total
  have sum := h.sum
  unfold withheld at sum
  refine returned hc found h.lower (n := n) ?_ rfl
  show _ + _ + ((c.routes.modify id fun r =>
    { r with pendingConnRelease := r.pendingConnRelease - n }).total (·.pendingConnRelease) : Int) +
      (n : Int) = credit
  omega

end Ledger

/-- A move keeps the ledger where no client releases more than it holds, unless DATA beyond its
    stream's window is lost. -/
theorem Move.ledger (hc : credit ≤ maxWindowSize) (hrelease : ¬ allows .overrelease)
    (h : Ledger credit c) (hm : Move allows c c') :
    Ledger credit c' ∨ allows .overspend ∧ ∃ lost : Nat, Ledger (credit - lost) c' := by
  cases hm with
  | note | publish | answer | tell | uncancel | cancel | unwait | wait | amend | skip | take
    | drain => exact .inl (h.same (h.toFound.same rfl rfl rfl fun _ hid => hid) rfl rfl)
  | ceiling => exact .inl (h.same (h.toFound.same rfl rfl rfl fun _ hid => hid) rfl rfl)
  | stream id f => exact .inl (h.same (h.toFound.modifyStream id f) rfl rfl)
  | shift delta =>
    refine .inl (h.same (h.toFound.same rfl rfl rfl fun id hid => ?_) rfl rfl)
    have state := get?_shift_state c.streams delta id
    rw [← Option.isSome_map (f := Stream.state), ← state, Option.isSome_map]
    exact hid
  | @advance id event next hnext =>
    refine .inl (h.same (h.toFound.same rfl rfl (StreamTable.apply_highestLocalId _ _ _)
      fun id' hid' => ?_) rfl rfl)
    replace hid' : ((c.streams.apply id event).1.get? id').isSome := hid'
    rw [StreamTable.get?_apply] at hid'
    split at hid'
    · rename_i own
      obtain ⟨st, hst, -⟩ := StreamTable.apply_from hnext
      rw [own, hst]
      rfl
    · exact hid'
  | @sweep id | orphan id => exact .inl (h.same (h.toFound.retire id) rfl rfl)
  | forget id =>
    have swept : Ledger credit (c.retire id) := h.same (h.toFound.retire id) rfl rfl
    exact .inl (swept.unrouted hc (by rw [get?_retire, if_pos rfl]))
  | head id => exact .inl (h.modifyRoute id _ fun _ => ⟨rfl, rfl⟩)
  | accept request clientId events hopen =>
    exact .inl (h.opened request clientId events hopen)
  | @start p pending id hp hopen =>
    have taken : Ledger credit { c with pending } :=
      h.same (h.toFound.same rfl rfl rfl fun _ hid => hid) rfl rfl
    exact .inl (taken.opened p.request p.clientId p.events hopen)
  | receive hs recorded hr => exact .inl (h.received hc _ hs recorded)
  | @giveBack len connRecvWindow recorded =>
    obtain ⟨fits, available, unreleased, -⟩ := RecvWindow.record_ok recorded
    have sum := h.sum
    have lower := h.lower
    refine .inl (Ledger.returned hc (h.toFound.same rfl rfl rfl fun _ hid => hid)
      (w := connRecvWindow) (n := len) ?_ ?_ rfl)
    · omega
    · rw [available, unreleased]
      show _ + _ + (c.withheld : Int) + _ = _
      omega
  | @overspend len connRecvWindow recorded ha =>
    obtain ⟨fits, available, unreleased, -⟩ := RecvWindow.record_ok recorded
    have sum := h.sum
    have lower := h.lower
    refine .inr ⟨ha, len, h.toFound.same rfl rfl rfl fun _ hid => hid, ?_, ?_⟩
    · rw [available, unreleased]
      show _ + _ + (c.withheld : Int) = _
      omega
    · rw [available]
      omega
  | @release request id n hr ho =>
    obtain ⟨route, hroute, -⟩ := h.routed request id hr
    refine .inl (h.released hc hroute ?_)
    by_contra less
    exact hrelease (ho route hroute (by omega))

/-- Where no client releases more than it holds, the ledger never grows, and is kept where no DATA
    exceeds its stream's window. -/
theorem Moves.ledger (hc : credit ≤ maxWindowSize) (hrelease : ¬ allows .overrelease)
    (h : Ledger credit c) (hm : Moves allows c c') :
    ∃ left ≤ credit, Ledger left c' ∧ (¬ allows .overspend → left = credit) := by
  refine hm.invariant (I := fun c => ∃ left ≤ credit, Ledger left c ∧
    (¬ allows .overspend → left = credit)) ?_ ⟨credit, Int.le_refl _, h, fun _ => rfl⟩
  rintro c c' ⟨left, hle, hl, hall⟩ hm
  rcases hm.ledger (Int.le_trans hle hc) hrelease hl with kept | ⟨spends, lost, hlost⟩
  · exact ⟨left, hle, kept, hall⟩
  · exact ⟨left - lost, by omega, hlost, fun hno => absurd spends hno⟩

theorem Ledger.start (tuning : Tuning) (idle timeout : Duration) (now : Instant)
    (lower : -(2 ^ 31) ≤ tuning.connectionWindow) :
    Ledger tuning.connectionWindow (Upstream.start tuning idle timeout now).toUpstreamCore where
  live _ h := by cases h
  routed _ _ h := by cases h
  known _ h := by cases h
  sum := by
    show tuning.connectionWindow + ((0 : Nat) : Int) + ((0 : Nat) : Int) = tuning.connectionWindow
    omega
  lower := lower

end UpstreamCore

namespace Upstream

variable {b s : Upstream} {i : Instant × UpInput}

/-- DATA within the connection's window exceeds the window of its stream, which is live. -/
def overspending (s : Upstream) : UpInput → Bool
  | .frame w => (s.handled w).any s.overspends
  | _ => false

/-- A client releases more than its route holds. -/
def overreleasing (s : Upstream) : UpInput → Bool
  | .message m => s.overreleases m
  | _ => false

def Overspends (s : Upstream) (i : Instant × UpInput) : Prop :=
  s.stop = none ∧ s.overspending i.2

def Overreleases (s : Upstream) (i : Instant × UpInput) : Prop :=
  s.stop = none ∧ s.overreleasing i.2

instance (s : Upstream) (i : Instant × UpInput) : Decidable (s.Overspends i) :=
  inferInstanceAs (Decidable (_ ∧ _))

instance (s : Upstream) (i : Instant × UpInput) : Decidable (s.Overreleases i) :=
  inferInstanceAs (Decidable (_ ∧ _))

theorem not_overspend (running : s.stop = none) (h : ¬ s.Overspends i) :
    ¬ s.mishaps i.2 .overspend := by
  rintro ⟨w, hw, spends⟩
  refine h ⟨running, ?_⟩
  rw [hw]
  exact spends

theorem not_overrelease (running : s.stop = none) (h : ¬ s.Overreleases i) :
    ¬ s.mishaps i.2 .overrelease := by
  rintro ⟨m, hm, releases⟩
  refine h ⟨running, ?_⟩
  rw [hm]
  exact releases

/-- A connection that runs after a step ran before it, and moved. -/
theorem step_runs (running : (step i s).stop = none) :
    s.stop = none ∧ UpstreamCore.Moves (s.mishaps i.2) s.toUpstreamCore (step i s).toUpstreamCore := by
  cases hstop : s.stop with
  | some stop =>
    rw [(step_stopped i (by rw [hstop]; rfl)).2.2.2, hstop] at running
    cases running
  | none =>
    rcases step_cases i hstop with hmoves | ⟨ended, -⟩
    · exact ⟨rfl, hmoves⟩
    · have stopped := ended.stopped
      rw [running] at stopped
      cases stopped

/-- The ledger of a run whose clients release what they hold. -/
theorem run_ledger {credit : Int} (hc : credit ≤ maxWindowSize)
    (hb : UpstreamCore.Ledger credit b.toUpstreamCore) (is : List (Instant × UpInput))
    (honest : machine.Meets (fun s i => ¬ s.Overreleases i) b is)
    (running : (machine.run b is).stop = none) :
    ∃ left ≤ credit, (machine.run b is).Ledger left ∧
      (machine.Meets (fun s i => ¬ s.Overspends i) b is → left = credit) := by
  induction is using List.reverseRecOn with
  | nil => exact ⟨credit, Int.le_refl _, hb, fun _ => rfl⟩
  | append_singleton is i ih =>
    obtain ⟨before, now, -⟩ := Machine.Meets.append.mp honest
    rw [Machine.run_append] at running ⊢
    obtain ⟨ran, hmoves⟩ := step_runs running
    obtain ⟨left, hle, hl, hall⟩ := ih before ran
    obtain ⟨left', hle', hl', hall'⟩ :=
      hmoves.ledger (Int.le_trans hle hc) (not_overrelease ran now) hl
    refine ⟨left', Int.le_trans hle' hle, hl', fun hmeets => ?_⟩
    obtain ⟨within, thrifty, -⟩ := Machine.Meets.append.mp hmeets
    exact (hall' (not_overspend ran thrifty)).trans (hall within)

/-- While a connection runs, no more is accounted for than its window, and all of it where no DATA
    exceeded its stream's window. -/
theorem ledger_kept (hb : b.Fresh) (is : List (Instant × UpInput))
    (honest : machine.Meets (fun s i => ¬ s.Overreleases i) b is)
    (running : (machine.run b is).stop = none) :
    (machine.run b is).connRecvWindow.available + (machine.run b is).connRecvWindow.unreleased +
        (machine.run b is).withheld ≤ b.connRecvWindow.initial ∧
      (machine.Meets (fun s i => ¬ s.Overspends i) b is →
        (machine.run b is).connRecvWindow.available + (machine.run b is).connRecvWindow.unreleased +
          (machine.run b is).withheld = b.connRecvWindow.initial) := by
  obtain ⟨tuning, idle, timeout, now, lower, upper, rfl⟩ := hb
  obtain ⟨left, hle, hl, hall⟩ :=
    run_ledger upper (.start tuning idle timeout now lower) is honest running
  refine ⟨Int.le_trans (Int.le_of_eq hl.sum) hle, fun hmeets => ?_⟩
  rw [hl.sum, hall hmeets]
  rfl

/-- Part of a response arrives, the client releases some of it, and the stream is reset. -/
def halfReleased : List (Instant × UpInput) :=
  [(0, .message (.request ⟨3⟩ (.new 1) ⟨ascii "GET", ascii "http", none, ascii "/", []⟩ true ⟨0⟩)),
    (0, .frame (.ofParts .data ⟨0⟩ (.new 1) [1, 2, 3] (show 3 < 16777216 by decide))),
    (0, .message (.released ⟨3⟩ 2)),
    (0, .frame (.ofParts .rstStream ⟨0⟩ (.new 1) [0, 0, 0, 1] (show 4 < 16777216 by decide)))]

theorem ledger_halfReleased :
    (machine.run (.start .default 0 0 0) halfReleased).connRecvWindow.available +
        (machine.run (.start .default 0 0 0) halfReleased).connRecvWindow.unreleased +
        (machine.run (.start .default 0 0 0) halfReleased).withheld =
      Tuning.default.connectionWindow :=
  (ledger_kept ⟨.default, 0, 0, 0, by decide, by decide, rfl⟩ halfReleased (by decide +kernel)
    (by decide +kernel)).2 (by decide +kernel)

end Upstream

end H2Proxy
