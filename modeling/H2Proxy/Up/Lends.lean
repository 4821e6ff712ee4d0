import H2Proxy.Conn.Lends
import H2Proxy.Lib.Triple
import H2Proxy.Up.Run

/-
  The WINDOW_UPDATEs of an upstream connection.

  As on a client connection, every receive window stays open and every increment is lawful, where
  no client releases more of a response than its route holds. Here the windows move in the middle
  of programs, so what holds between their steps is kept by Hoare triples (`Lending`).
-/

namespace H2Proxy

open Std.Do

set_option mvcgen.warning false

/-- Credit in the log of an upstream connection: WINDOW_UPDATEs grant it, DATA spends it. -/
def UpObs.meter : Meter StreamId UpObs where
  grant
    | .queued frame _ _ => frame.increment?
    | _ => none
  spend id
    | .heard w => w.spends id
    | _ => 0

/-- The octets that the client of a stream holds. -/
def heldFor (routes : FinMap StreamId Upstream.Route) (id : StreamId) : Nat :=
  ((routes.lookup id).map Upstream.Route.pendingConnRelease).getD 0

/-- Every receive window is open, whatever was heard, and every increment queued was lawful.
    `owed` and `lent` are what the windows are yet to be given back. -/
structure Loans (first : List UpObs) (window initial : Int) (owed : Nat) (lent : StreamId → Nat)
    (streams : StreamTable) (conn : RecvWindow) (routes : FinMap StreamId Upstream.Route)
    (log : List UpObs) : Prop where
  conn : conn.Open window (routes.total (·.pendingConnRelease) + owed)
    (UpObs.meter.left (initialCredit initial) .connection log)
  live : ∀ id s, streams.get? id = some s → id ≠ .connection ∧ id ≤ streams.highestLocalId ∧
    s.recvWindow.Open initial (heldFor routes id + lent id)
      (UpObs.meter.left (initialCredit initial) id log)
  unseen : ∀ id, ¬ id ≤ streams.highestLocalId →
    UpObs.meter.left (initialCredit initial) id log ≤ initial
  initialRecvWindow : streams.initialRecvWindow = initial
  pos : 1 ≤ initial
  high : initial ≤ maxWindowSize
  lawful : UpObs.meter.LawfulFrom (initialCredit initial) maxWindowSize first log

/-- Nothing lent. -/
abbrev noLoan (_ : StreamId) : Nat := 0

namespace Loans

variable {first : List UpObs} {window initial : Int} {owed owed' n : Nat}
  {lent lent' : StreamId → Nat}
  {streams streams' : StreamTable} {conn conn' : RecvWindow} {id : StreamId}
  {routes routes' : FinMap StreamId Upstream.Route} {log : List UpObs}

/-- Events that grant nothing. -/
theorem quiet (h : Loans first window initial owed lent streams conn routes log)
    {added : List UpObs} (silent : ∀ o ∈ added, UpObs.meter.grant o = none) :
    Loans first window initial owed lent streams conn routes (log ++ added) := by
  have less : ∀ id, UpObs.meter.left (initialCredit initial) id (log ++ added) ≤
      UpObs.meter.left (initialCredit initial) id log := Meter.left_append_le silent
  refine ⟨h.conn.mono (Nat.le_refl _) (less _), fun id s hs => ?_, fun id hid => ?_,
    h.initialRecvWindow, h.pos, h.high, h.lawful.quiet silent⟩
  · obtain ⟨notConn, le, isOpen⟩ := h.live id s hs
    exact ⟨notConn, le, isOpen.mono (Nat.le_refl _) (less id)⟩
  · exact Int.le_trans (less id) (h.unseen id hid)

theorem observe (h : Loans first window initial owed lent streams conn routes log) {o : UpObs}
    (silent : UpObs.meter.grant o = none) :
    Loans first window initial owed lent streams conn routes (log ++ [o]) :=
  h.quiet fun _ ho => List.mem_singleton.mp ho ▸ silent

/-! ### Streams -/

/-- The streams that are live were live, with the same receive windows. -/
theorem table (h : Loans first window initial owed lent streams conn routes log)
    (top : streams'.highestLocalId = streams.highestLocalId)
    (grant : streams'.initialRecvWindow = streams.initialRecvWindow)
    (live : ∀ id s', streams'.get? id = some s' →
      ∃ s, streams.get? id = some s ∧ s'.recvWindow = s.recvWindow) :
    Loans first window initial owed lent streams' conn routes log := by
  refine ⟨h.conn, fun id s' hs' => ?_, fun id hid => h.unseen id (top ▸ hid),
    grant.trans h.initialRecvWindow, h.pos, h.high, h.lawful⟩
  obtain ⟨s, hs, same⟩ := live id s' hs'
  rw [same, top]
  exact h.live id s hs

theorem modify (h : Loans first window initial owed lent streams conn routes log)
    {f : Stream → Stream}
    (keeps : ∀ s, streams.get? id = some s → (f s).recvWindow = s.recvWindow) :
    Loans first window initial owed lent (streams.modify id f) conn routes log := by
  refine h.table rfl rfl fun id' s' hs' => ?_
  rw [StreamTable.get?_modify] at hs'
  split at hs'
  · rename_i same
    subst same
    obtain ⟨s, hs, rfl⟩ := Option.map_eq_some_iff.mp hs'
    exact ⟨s, hs, keeps s hs⟩
  · exact ⟨s', hs', rfl⟩

theorem turn (h : Loans first window initial owed lent streams conn routes log) (budget : Nat)
    {stream : Stream} (live : streams.get? id = some stream) :
    Loans first window initial owed lent (streams.modify id fun _ => (stream.turn budget).rest) conn
      routes log := by
  refine h.modify fun s hs => ?_
  cases live.symm.trans hs
  rfl

theorem retire_fields (t : StreamTable) (id : StreamId) :
    (t.retire id).highestLocalId = t.highestLocalId ∧
      (t.retire id).initialRecvWindow = t.initialRecvWindow := by
  unfold StreamTable.retire
  cases t.get? id <;> exact ⟨rfl, rfl⟩

theorem retire (h : Loans first window initial owed lent streams conn routes log) :
    Loans first window initial owed lent { streams.retire id with reclaimed := 0 } conn routes
      log := by
  obtain ⟨top, grant⟩ := retire_fields streams id
  refine h.table top grant fun id' s' hs' => ?_
  have hs' : (streams.retire id).get? id' = some s' := hs'
  rw [StreamTable.get?_retire] at hs'
  split at hs'
  · cases hs'
  · exact ⟨s', hs', rfl⟩

theorem apply (h : Loans first window initial owed lent streams conn routes log)
    (event : StreamEvent) :
    Loans first window initial owed lent (streams.apply id event).1 conn routes log := by
  unfold StreamTable.apply
  split
  · exact h
  split
  · exact h
  rename_i next _
  have moved : Loans first window initial owed lent (streams.modify id ({ · with state := next }))
      conn routes log := h.modify fun _ _ => rfl
  dsimp only
  split
  · obtain ⟨top, grant⟩ := retire_fields (streams.modify id ({ · with state := next })) id
    refine moved.table top grant fun id' s' hs' => ?_
    rw [StreamTable.get?_retire] at hs'
    split at hs'
    · cases hs'
    · exact ⟨s', hs', rfl⟩
  · exact moved

theorem shift (h : Loans first window initial owed lent streams conn routes log) (delta : Int) :
    Loans first window initial owed lent (streams.applyInitialWindowDelta delta).1 conn routes
      log := by
  have alike := StreamTable.alike_applyInitialWindowDelta streams delta
  refine h.table alike.highestLocalId alike.initialRecvWindow fun id s' hs' => ?_
  have same := alike.live id
  rw [hs'] at same
  cases was : streams.get? id with
  | none => rw [was] at same; cases same
  | some s =>
    rw [was] at same
    cases same with
    | some same => exact ⟨s, rfl, same.recvWindow⟩

theorem bound (h : Loans first window initial owed lent streams conn routes log) (max : Nat) :
    Loans first window initial owed lent { streams with maxConcurrent := max } conn routes log :=
  h.table rfl rfl fun _ s' hs' => ⟨s', hs', rfl⟩

theorem unopened (h : Loans first window initial owed lent streams conn routes log)
    {e : OpenRejection} (refused : (streams.openLocal id).2 = .error e) :
    Loans first window initial owed lent (streams.openLocal id).1 conn routes log := by
  rw [StreamTable.openLocal_error refused]
  exact h

/-! ### Routes -/

theorem heldFor_of_some {route : Upstream.Route} (h : routes.lookup id = some route) :
    heldFor routes id = route.pendingConnRelease := by
  unfold heldFor
  rw [h]
  rfl

/-- The routes and the loans come to no more than they did. -/
theorem reroute (h : Loans first window initial owed lent streams conn routes log)
    (total : routes'.total (·.pendingConnRelease) + owed' ≤
      routes.total (·.pendingConnRelease) + owed)
    (held : ∀ id, heldFor routes' id + lent' id ≤ heldFor routes id + lent id) :
    Loans first window initial owed' lent' streams conn routes' log := by
  refine ⟨h.conn.mono total (Int.le_refl _), fun id s hs => ?_, h.unseen, h.initialRecvWindow,
    h.pos, h.high, h.lawful⟩
  obtain ⟨notConn, le, isOpen⟩ := h.live id s hs
  exact ⟨notConn, le, isOpen.mono (held id) (Int.le_refl _)⟩

theorem forgive (h : Loans first window initial owed lent streams conn routes log) :
    Loans first window initial 0 noLoan streams conn routes log :=
  h.reroute (Nat.le_add_right _ _) fun _ => Nat.le_add_right _ _

/-- A route goes; what it held is owed. -/
theorem unroute (h : Loans first window initial 0 noLoan streams conn routes log)
    {route : Upstream.Route} (was : routes.lookup id = some route) :
    Loans first window initial route.pendingConnRelease noLoan streams conn (routes.erase id)
      log := by
  have sum := AList.total_eq_erase (·.pendingConnRelease) was
  refine h.reroute (by omega) fun id' => ?_
  unfold heldFor
  rw [AList.lookup_erase_eq]
  split
  · exact Nat.zero_le _
  · exact Nat.le_refl _

theorem modifyRoute (h : Loans first window initial owed lent streams conn routes log)
    {f : Upstream.Route → Upstream.Route}
    (keeps : ∀ r, (f r).pendingConnRelease = r.pendingConnRelease) :
    Loans first window initial owed lent streams conn (routes.modify id f) log := by
  have same : ∀ id', (((routes.modify id f).lookup id').map Upstream.Route.pendingConnRelease) =
      (routes.lookup id').map Upstream.Route.pendingConnRelease := by
    intro id'
    rw [AList.lookup_modify]
    split
    · rename_i same
      subst same
      rw [Option.map_map]
      exact congrArg (fun g => (routes.lookup id').map g) (funext keeps)
    · rfl
  refine h.reroute (Nat.le_of_eq ?_) fun id' => Nat.le_of_eq ?_
  · rw [AList.total_congr _ same]
  · unfold heldFor
    rw [same]

/-- The client of a route gives some of what it holds back. -/
theorem giveBack (h : Loans first window initial 0 noLoan streams conn routes log)
    (held : n ≤ heldFor routes id) :
    Loans first window initial n (fun id' => if id' = id then n else 0) streams conn
      (routes.modify id fun r => { r with pendingConnRelease := r.pendingConnRelease - n })
      log := by
  cases was : routes.lookup id with
  | none =>
    have zero : n = 0 := by
      unfold heldFor at held
      rw [was] at held
      exact Nat.le_zero.mp held
    subst zero
    rw [AList.modify_of_none _ was]
    refine h.reroute (Nat.le_refl _) fun id' => ?_
    rw [ite_self]
  | some route =>
    rw [heldFor_of_some was] at held
    have sum := AList.total_modify (·.pendingConnRelease)
      (fun r => { r with pendingConnRelease := r.pendingConnRelease - n }) was
    dsimp only at sum
    refine h.reroute (by omega) fun id' => ?_
    unfold heldFor
    rw [AList.lookup_modify]
    split
    · rename_i same
      subst same
      rw [was]
      show route.pendingConnRelease - n + n ≤ route.pendingConnRelease + 0
      omega
    · exact Nat.le_refl _

/-- A stream of our own is opened, with a route that holds nothing. -/
theorem accept (h : Loans first window initial 0 noLoan streams conn routes log)
    (isOpen : (streams.openLocal id).2 = .ok ()) {route : Upstream.Route}
    (empty : route.pendingConnRelease = 0) :
    Loans first window initial 0 noLoan (streams.openLocal id).1 conn (routes.insert id route)
      log := by
  obtain ⟨odd, above, -, table⟩ := StreamTable.openLocal_ok isOpen
  have notConn : id ≠ .connection := by
    rintro rfl
    cases odd
  have rises : ∀ id', id' ≤ streams.highestLocalId → id' ≤ id := fun id' le =>
    Nat.le_trans le (Nat.le_of_lt (Nat.lt_of_not_le above))
  have less : (routes.insert id route).total (·.pendingConnRelease) ≤
      routes.total (·.pendingConnRelease) := by
    cases was : routes.lookup id with
    | none => rw [AList.total_insert_of_none _ _ was, empty, Nat.zero_add]
    | some old =>
      have sum := AList.total_insert_of_some (·.pendingConnRelease) route was
      omega
  have held : ∀ id', heldFor (routes.insert id route) id' =
      if id' = id then 0 else heldFor routes id' := by
    intro id'
    unfold heldFor
    rw [AList.lookup_insert_eq]
    split
    · exact empty
    · rfl
  rw [table]
  refine ⟨h.conn.mono (Nat.add_le_add_right less _) (Int.le_refl _), fun id' s' hs' => ?_,
    fun id' hid' => h.unseen id' fun le => hid' (rises id' le), h.initialRecvWindow, h.pos, h.high,
    h.lawful⟩
  rw [held]
  rw [StreamTable.get?_insertNew] at hs'
  split at hs'
  · rename_i same
    subst same
    cases hs'
    rw [if_pos rfl]
    refine ⟨notConn, Nat.le_refl _, ?_⟩
    show RecvWindow.Open (.new streams.initialRecvWindow) initial 0 _
    rw [h.initialRecvWindow]
    exact .new h.pos h.high (h.unseen id' above)
  · rename_i other
    rw [if_neg other]
    obtain ⟨notConn', le, isOpen'⟩ := h.live id' s' hs'
    exact ⟨notConn', rises id' le, isOpen'⟩

/-! ### Windows -/

theorem left_update (initial : Int) (log : List UpObs) (id id' : StreamId) (increment limit : Nat) :
    UpObs.meter.left (initialCredit initial) id'
      (log ++ [.queued (.windowUpdate id increment) [] limit]) =
    UpObs.meter.left (initialCredit initial) id' log +
      (if id = id' then increment else 0 : Nat) := by
  rw [Meter.left_snoc, Meter.granted_of_some (k := id) (n := increment) rfl]
  exact Int.sub_zero _

/-- Credit that is owed goes back to the connection's window, and is announced or not. -/
theorem releaseConn (h : Loans first window initial n lent streams conn routes log) :
    Loans first window initial 0 lent streams (conn.release n).1 routes log ∧
      ∀ increment limit, (conn.release n).2 = some increment →
        Loans first window initial 0 lent streams (conn.release n).1 routes
          (log ++ [.queued (.windowUpdate .connection increment) [] limit]) := by
  obtain ⟨released, legal⟩ := h.conn.release
  refine ⟨⟨released.mono (Nat.le_refl _) (Int.le_add_of_nonneg_right (Int.natCast_nonneg _)),
    h.live, h.unseen, h.initialRecvWindow, h.pos, h.high, h.lawful⟩,
    fun increment limit announced => ?_⟩
  have left := left_update initial log .connection
  rw [announced, Option.getD_some] at released
  refine ⟨?_, fun id s hs => ?_, fun id hid => ?_, h.initialRecvWindow, h.pos, h.high, ?_⟩
  · refine released.mono (Nat.le_refl _) (Int.le_of_eq ((left ..).trans ?_))
    rw [if_pos rfl]
  · obtain ⟨notConn, le, isOpen⟩ := h.live id s hs
    refine ⟨notConn, le, isOpen.mono (Nat.le_refl _) (Int.le_of_eq ((left ..).trans ?_))⟩
    rw [if_neg (Ne.symm notConn)]
    exact Int.add_zero _
  · refine Int.le_trans (Int.le_of_eq ((left ..).trans ?_)) (h.unseen id hid)
    rw [if_neg fun zero : StreamId.connection = id => hid (zero ▸ Nat.zero_le _)]
    exact Int.add_zero _
  · refine h.lawful.snoc fun k m grant => ?_
    cases grant
    obtain ⟨pos, high, most⟩ := legal increment announced
    refine ⟨pos, high, Int.le_trans (Int.le_of_eq ((left ..).trans ?_)) most⟩
    rw [if_pos rfl]

/-- Credit lent for a stream goes back to its window, and is announced or not. -/
theorem releaseStream {stream : Stream}
    (h : Loans first window initial owed (fun id' => if id' = id then n else 0) streams conn routes
      log)
    (was : streams.get? id = some stream) :
    Loans first window initial owed noLoan
      (streams.modify id ({ · with recvWindow := (stream.recvWindow.release n).1 })) conn routes
      log ∧
      ∀ increment limit, (stream.recvWindow.release n).2 = some increment →
        Loans first window initial owed noLoan
          (streams.modify id ({ · with recvWindow := (stream.recvWindow.release n).1 })) conn routes
          (log ++ [.queued (.windowUpdate id increment) [] limit]) := by
  obtain ⟨notConn, le, isOpen⟩ := h.live id stream was
  rw [if_pos rfl] at isOpen
  obtain ⟨released, legal⟩ := isOpen.release
  have others : ∀ id' s', (streams.modify id
      ({ · with recvWindow := (stream.recvWindow.release n).1 })).get? id' = some s' →
      (id' = id ∧ s'.recvWindow = (stream.recvWindow.release n).1) ∨
        (id' ≠ id ∧ streams.get? id' = some s') := by
    intro id' s' hs'
    rw [StreamTable.get?_modify] at hs'
    split at hs'
    · rename_i same
      subst same
      rw [was] at hs'
      cases hs'
      exact .inl ⟨rfl, rfl⟩
    · rename_i other
      exact .inr ⟨other, hs'⟩
  constructor
  · refine ⟨h.conn, fun id' s' hs' => ?_, h.unseen, h.initialRecvWindow, h.pos, h.high, h.lawful⟩
    obtain ⟨rfl, same⟩ | ⟨other, hs'⟩ := others id' s' hs'
    · rw [same]
      refine ⟨notConn, le, released.mono (Nat.le_refl _) ?_⟩
      exact Int.le_add_of_nonneg_right (Int.natCast_nonneg _)
    · obtain ⟨notConn', le', isOpen'⟩ := h.live id' s' hs'
      exact ⟨notConn', le', isOpen'.mono (Nat.le_add_right _ _) (Int.le_refl _)⟩
  intro increment limit announced
  have left := left_update initial log id
  rw [announced, Option.getD_some] at released
  refine ⟨?_, fun id' s' hs' => ?_, fun id' hid' => ?_, h.initialRecvWindow, h.pos, h.high, ?_⟩
  · refine h.conn.mono (Nat.le_refl _) (Int.le_of_eq ((left ..).trans ?_))
    rw [if_neg notConn]
    exact Int.add_zero _
  · obtain ⟨rfl, same⟩ | ⟨other, hs'⟩ := others id' s' hs'
    · rw [same]
      refine ⟨notConn, le, released.mono (Nat.le_refl _) (Int.le_of_eq ((left ..).trans ?_))⟩
      rw [if_pos rfl]
    · obtain ⟨notConn', le', isOpen'⟩ := h.live id' s' hs'
      refine ⟨notConn', le', isOpen'.mono (Nat.le_add_right _ _)
        (Int.le_of_eq ((left ..).trans ?_))⟩
      rw [if_neg (Ne.symm other)]
      exact Int.add_zero _
  · refine Int.le_trans (Int.le_of_eq ((left ..).trans ?_)) (h.unseen id' hid')
    rw [if_neg fun same : id = id' => hid' (same ▸ le)]
    exact Int.add_zero _
  · refine h.lawful.snoc fun k m grant => ?_
    cases grant
    obtain ⟨pos, high, most⟩ := legal increment announced
    refine ⟨pos, high, Int.le_trans (Int.le_of_eq ((left ..).trans ?_)) most⟩
    rw [if_pos rfl]

/-! ### DATA -/

section Receive

variable {w : WireFrame} {data : Bytes} {endStream : Bool} {stream : Stream}

theorem left_hear (initial : Int) (frame : w.data? = some (id, data, endStream)) (log : List UpObs)
    (id' : StreamId) :
    UpObs.meter.left (initialCredit initial) id' (log ++ [.heard w]) =
      UpObs.meter.left (initialCredit initial) id' log -
        (if id' = .connection ∨ id = id' then data.length else 0 : Nat) := by
  rw [Meter.left_snoc, Meter.granted_of_none rfl]
  have spends : UpObs.meter.spend id' (.heard w) =
      if id' = .connection ∨ id = id' then data.length else 0 := w.spends_of frame id'
  rw [spends]
  push_cast
  omega

/-- DATA within the connection's window is heard; nobody holds it yet. -/
theorem hear (h : Loans first window initial 0 noLoan streams conn routes log)
    (frame : w.data? = some (id, data, endStream)) (within : conn.record data.length = .ok conn') :
    Loans first window initial data.length noLoan streams conn' routes (log ++ [.heard w]) := by
  have silent : ∀ o ∈ [UpObs.heard w], UpObs.meter.grant o = none := fun o ho =>
    List.mem_singleton.mp ho ▸ rfl
  have heard := h.quiet silent
  refine ⟨?_, heard.live, heard.unseen, h.initialRecvWindow, h.pos, h.high, heard.lawful⟩
  refine (h.conn.record within).mono (Nat.le_refl _) (Int.le_of_eq ?_)
  rw [left_hear initial frame, if_pos (.inl rfl)]

/-- DATA within its stream's window too. -/
theorem receive (h : Loans first window initial 0 noLoan streams conn routes log)
    (frame : w.data? = some (id, data, endStream)) (within : conn.record data.length = .ok conn')
    (was : streams.get? id = some stream) {recvWindow : RecvWindow}
    (within' : stream.recvWindow.record data.length = .ok recvWindow) :
    Loans first window initial data.length (fun id' => if id' = id then data.length else 0)
      (streams.modify id ({ · with recvWindow })) conn' routes (log ++ [.heard w]) := by
  have heard := h.hear frame within
  refine ⟨heard.conn, fun id' s' hs' => ?_, heard.unseen, h.initialRecvWindow, h.pos, h.high,
    heard.lawful⟩
  rw [StreamTable.get?_modify] at hs'
  split at hs'
  · rename_i same
    subst same
    rw [was] at hs'
    cases hs'
    obtain ⟨notConn, le, isOpen⟩ := h.live id' stream was
    refine ⟨notConn, le, ?_⟩
    rw [if_pos rfl]
    refine (isOpen.record within').mono (Nat.le_refl _) (Int.le_of_eq ?_)
    rw [left_hear initial frame, if_pos (.inr rfl)]
  · rename_i other
    rw [if_neg other]
    exact heard.live id' s' hs'

/-- The client of the stream holds what was received. -/
theorem take (h : Loans first window initial n (fun id' => if id' = id then n else 0) streams conn
      routes log) {route : Upstream.Route} (was : routes.lookup id = some route) :
    Loans first window initial 0 noLoan streams conn
      (routes.modify id fun r => { r with pendingConnRelease := satAdd32 r.pendingConnRelease n })
      log := by
  have sum := AList.total_modify (·.pendingConnRelease)
    (fun r => { r with pendingConnRelease := satAdd32 r.pendingConnRelease n }) was
  have sat := satAdd32_le route.pendingConnRelease n
  dsimp only at sum
  refine h.reroute (by omega) fun id' => ?_
  unfold heldFor
  rw [AList.lookup_modify]
  split
  · rename_i same
    subst same
    rw [was]
    exact sat
  · exact Nat.le_refl _

end Receive

end Loans

/-! ## The functions -/

namespace Upstream

/-- The connection's windows are open and what it announced was lawful. -/
def Lends (first : List UpObs) (window initial : Int) (s : Upstream) : Prop :=
  Loans first window initial 0 noLoan s.streams s.connRecvWindow s.routes s.log

/-- However the program ends, so they are. -/
abbrev Lending {α : Type} (first : List UpObs) (window initial : Int) :
    PostCond α (.except ConnectionError (.arg Upstream .pure)) :=
  post⟨fun _ s => ⌜s.Lends first window initial⌝, fun _ s => ⌜s.Lends first window initial⌝⟩

variable {first : List UpObs} {window initial : Int}

@[local spec]
theorem fail_lends {α : Type} (code : ErrorCode) (debug : String) :
    ⦃fun s => ⌜s.Lends first window initial⌝⦄ (fail code debug : UpM α)
    ⦃Lending first window initial⦄ := by
  mvcgen [fail]

/-- What a program did before it failed stays done. -/
theorem ignore_lends {x : UpM Unit} {P : Upstream → Prop}
    (h : ⦃fun s => ⌜P s⌝⦄ x ⦃Lending first window initial⦄) :
    ⦃fun s => ⌜P s⌝⦄ (ignore x : UpM Unit) ⦃Lending first window initial⦄ := by
  refine triple_iff_ends.mpr fun s hs => ?_
  have ends := triple_iff_ends.mp h s hs
  unfold ignore
  cases hx : x s with
  | ok u t => rw [hx] at ends; exact ends
  | error e t => rw [hx] at ends; exact ends

@[local spec]
theorem tell_lends (request : RequestId) (events : Events) (event : ServiceEvent) :
    ⦃fun s => ⌜s.Lends first window initial⌝⦄ (tell request events event : UpM Unit)
    ⦃Lending first window initial⦄ := by
  mvcgen [tell, onCore]
  exact Loans.observe ‹_› rfl

@[local spec]
theorem queueFields_lends {frame : Frame} (fields : List Header)
    (silent : frame.increment? = none) :
    ⦃fun s => ⌜s.Lends first window initial⌝⦄ (queueFields frame fields : UpM Unit)
    ⦃Lending first window initial⦄ := by
  mvcgen [queueFields, onCore]
  exact Loans.observe ‹_› silent

@[local spec]
theorem queueFrame_lends {frame : Frame} (silent : frame.increment? = none) :
    ⦃fun s => ⌜s.Lends first window initial⌝⦄ (queueFrame frame : UpM Unit)
    ⦃Lending first window initial⦄ :=
  queueFields_lends [] silent

@[local spec]
theorem queueHeaders_lends (id : StreamId) (fields : List Header) (endStream : Bool) :
    ⦃fun s => ⌜s.Lends first window initial⌝⦄ (queueHeaders id fields endStream : UpM Unit)
    ⦃Lending first window initial⦄ := by
  mvcgen [queueHeaders, onCore]
  exact Loans.observe ‹_› rfl

@[local spec]
theorem unready_lends (id : StreamId) :
    ⦃fun s => ⌜s.Lends first window initial⌝⦄ (unready id : UpM Unit)
    ⦃Lending first window initial⦄ := by
  mvcgen [unready]

@[local spec]
theorem enqueueReady_lends (id : StreamId) :
    ⦃fun s => ⌜s.Lends first window initial⌝⦄ (enqueueReady id : UpM Unit)
    ⦃Lending first window initial⦄ := by
  mvcgen [enqueueReady, onCore]
  exact Loans.modify ‹_› fun _ _ => rfl

@[local spec]
theorem syncQueued_lends :
    ⦃fun s => ⌜s.Lends first window initial⌝⦄ (syncQueued : UpM Unit)
    ⦃Lending first window initial⦄ := by
  mvcgen [syncQueued, onCore]

/-! ### Credit -/

theorem releaseConnWindow_lends (len : Nat) :
    ⦃fun s => ⌜Loans first window initial len noLoan s.streams s.connRecvWindow s.routes s.log⌝⦄
    (releaseConnWindow len : UpM Unit) ⦃Lending first window initial⦄ := by
  mvcgen [releaseConnWindow, queueFrame, queueFields, onCore]
  · exact (Loans.releaseConn ‹_›).2 _ _ ‹_›
  · exact (Loans.releaseConn ‹_›).1

theorem releaseStream_lends (id : StreamId) (n : Nat) :
    ⦃fun s => ⌜Loans first window initial n (fun id' => if id' = id then n else 0) s.streams
      s.connRecvWindow s.routes s.log⌝⦄
    (releaseStream id n : UpM Unit)
    ⦃post⟨fun _ s =>
        ⌜Loans first window initial n noLoan s.streams s.connRecvWindow s.routes s.log⌝,
      fun _ s => ⌜s.Lends first window initial⌝⟩⦄ := by
  mvcgen [releaseStream, queueFrame, queueFields, onCore]
  · exact (Loans.releaseStream ‹_› ‹_›).2 _ _ ‹_›
  · exact (Loans.releaseStream ‹_› ‹_›).1
  · exact Loans.reroute ‹_› (Nat.le_refl _) fun _ => Nat.le_add_right _ _

/-- A client releases no more than its route holds. -/
theorem release_lends (id : StreamId) (n : Nat) :
    ⦃fun s => ⌜s.Lends first window initial ∧ n ≤ heldFor s.routes id⌝⦄ (release id n : UpM Unit)
    ⦃Lending first window initial⦄ := by
  mvcgen [release, onCore, releaseStream_lends, releaseConnWindow_lends]
  · exact And.left ‹_›
  · exact Loans.giveBack (And.left ‹_›) (And.right ‹_›)

/-! ### Ending and starting streams -/

@[local spec]
theorem writeRstStream_lends (id : StreamId) (code : ErrorCode) :
    ⦃fun s => ⌜s.Lends first window initial⌝⦄ (writeRstStream id code : UpM Unit)
    ⦃Lending first window initial⦄ := by
  mvcgen [writeRstStream, onCore]
  · exact Loans.retire ‹_›
  · exact fun _ _ => rfl

section Drain

variable {drain : UpM Unit}
  (drains : ⦃fun s => ⌜s.Lends first window initial⌝⦄ drain ⦃Lending first window initial⦄)

include drains

theorem forgetWith_lends (id : StreamId) :
    ⦃fun s => ⌜s.Lends first window initial⌝⦄ (forgetWith drain id : UpM Unit)
    ⦃Lending first window initial⦄ := by
  have rest := ignore_lends drains
  have returns : ∀ n, ⦃fun s => ⌜Loans first window initial n noLoan s.streams s.connRecvWindow
      s.routes s.log⌝⦄ (ignore (releaseConnWindow n) : UpM Unit) ⦃Lending first window initial⦄ :=
    fun n => ignore_lends (releaseConnWindow_lends n)
  mvcgen [forgetWith, onCore, rest, returns]
  · exact Loans.retire ‹_›
  · exact Loans.unroute ‹_› ‹_›
  · exact (Loans.unroute ‹_› ‹_›).forgive

theorem failStreamWith_lends (id : StreamId) (status : Nat) :
    ⦃fun s => ⌜s.Lends first window initial⌝⦄ (failStreamWith drain id status : UpM Unit)
    ⦃Lending first window initial⦄ := by
  have forgets := forgetWith_lends drains
  mvcgen [failStreamWith, forgets]

theorem applyStreamEventWith_lends (id : StreamId) (event : StreamEvent) :
    ⦃fun s => ⌜s.Lends first window initial⌝⦄ (applyStreamEventWith drain id event : UpM Unit)
    ⦃Lending first window initial⦄ := by
  have fails := failStreamWith_lends drains
  mvcgen [applyStreamEventWith, onCore, fails]
  all_goals exact Loans.apply ‹_› event

theorem sendRequestWith_lends (request : RequestId) (clientId : StreamId) (head : RequestHead)
    (endStream : Bool) (events : Events) :
    ⦃fun s => ⌜s.Lends first window initial⌝⦄
    (sendRequestWith drain request clientId head endStream events : UpM Unit)
    ⦃Lending first window initial⦄ := by
  have applies := applyStreamEventWith_lends drains
  mvcgen [sendRequestWith, onCore, applies]
  · exact Loans.unopened ‹_› ‹_›
  · exact (Loans.accept ‹_› ‹_› rfl).observe rfl

end Drain

@[local spec]
theorem sendWaiting_lends (pending : Pending) (id : StreamId) :
    ⦃fun s => ⌜s.Lends first window initial⌝⦄ (sendWaiting pending id : UpM Unit)
    ⦃Lending first window initial⦄ := by
  mvcgen [sendWaiting, onCore]
  exact Loans.modify ‹_› fun _ _ => rfl

theorem drainPendingFrom_lends (fuel : Nat) :
    ⦃fun s => ⌜s.Lends first window initial⌝⦄ (drainPendingFrom fuel : UpM Unit)
    ⦃Lending first window initial⦄ := by
  induction fuel with
  | zero => mvcgen [drainPendingFrom]
  | succ fuel ih =>
    have sends := sendRequestWith_lends ih
    mvcgen [drainPendingFrom, onCore, sends, ih]

theorem drainPending_lends :
    ⦃fun s => ⌜s.Lends first window initial⌝⦄ (drainPending : UpM Unit)
    ⦃Lending first window initial⦄ := by
  mvcgen [drainPending, drainPendingFrom_lends]

@[local spec]
theorem forget_lends (id : StreamId) :
    ⦃fun s => ⌜s.Lends first window initial⌝⦄ (forget id : UpM Unit)
    ⦃Lending first window initial⦄ :=
  forgetWith_lends drainPending_lends id

@[local spec]
theorem failStream_lends (id : StreamId) (status : Nat) :
    ⦃fun s => ⌜s.Lends first window initial⌝⦄ (failStream id status : UpM Unit)
    ⦃Lending first window initial⦄ :=
  failStreamWith_lends drainPending_lends id status

@[local spec]
theorem applyStreamEvent_lends (id : StreamId) (event : StreamEvent) :
    ⦃fun s => ⌜s.Lends first window initial⌝⦄ (applyStreamEvent id event : UpM Unit)
    ⦃Lending first window initial⦄ :=
  applyStreamEventWith_lends drainPending_lends id event

@[local spec]
theorem sendRequest_lends (request : RequestId) (clientId : StreamId) (head : RequestHead)
    (endStream : Bool) (events : Events) :
    ⦃fun s => ⌜s.Lends first window initial⌝⦄
    (sendRequest request clientId head endStream events : UpM Unit)
    ⦃Lending first window initial⦄ :=
  sendRequestWith_lends drainPending_lends request clientId head endStream events

/-! ### Messages and frames -/

/-- The clients release no more than they hold. -/
def Honest (s : Upstream) : UpInput → Prop
  | .message (.released request n) =>
    ∀ id, s.requests.lookup request = some id → n ≤ heldFor s.routes id
  | _ => True

theorem handleMessage_lends (message : ToUpstream) :
    ⦃fun s => ⌜s.Lends first window initial ∧ s.Honest (.message message)⌝⦄
    (handleMessage message : UpM Unit) ⦃Lending first window initial⦄ := by
  have releases : ∀ id n, ⦃fun s => ⌜s.Lends first window initial ∧ n ≤ heldFor s.routes id⌝⦄
    (release id n : UpM Unit) ⦃Lending first window initial⦄ := release_lends
  cases message with
  | request => mvcgen [handleMessage, onCore]; exact Loans.observe (And.left ‹_›) rfl
  | body =>
    mvcgen [handleMessage, onCore]
    · exact Loans.observe (And.left ‹_›) rfl
    · exact (Loans.observe (And.left ‹_›) rfl).modify fun _ _ => rfl
  | trailers =>
    mvcgen [handleMessage, onCore]
    · exact Loans.observe (And.left ‹_›) rfl
    · exact (Loans.observe (And.left ‹_›) rfl).modify fun _ _ => rfl
  | released =>
    mvcgen [handleMessage, onCore, releases]
    · obtain ⟨kept, honest⟩ := ‹Upstream.Lends _ _ _ _ ∧ Honest _ _›
      exact ⟨Loans.observe kept rfl, honest _ ‹_›⟩
    · exact Loans.observe (And.left ‹_›) rfl
  | cancel => mvcgen [handleMessage, onCore] <;> exact Loans.observe (And.left ‹_›) rfl

@[local spec]
theorem refusePending_lends (pending : List Pending) :
    ⦃fun s => ⌜s.Lends first window initial⌝⦄ (refusePending pending : UpM Unit)
    ⦃Lending first window initial⦄ := by
  induction pending with
  | nil => mvcgen [refusePending]
  | cons p pending ih => mvcgen [refusePending, ih]

@[local spec]
theorem abandon_lends (ids : List StreamId) :
    ⦃fun s => ⌜s.Lends first window initial⌝⦄ (abandon ids : UpM Unit)
    ⦃Lending first window initial⦄ := by
  induction ids with
  | nil => mvcgen [abandon]
  | cons id ids ih => mvcgen [abandon, ih]

@[local spec]
theorem recvResponse_lends (id : StreamId) (headers : List Header) (endStream : Bool) :
    ⦃fun s => ⌜s.Lends first window initial⌝⦄ (recvResponse id headers endStream : UpM Unit)
    ⦃Lending first window initial⦄ := by
  mvcgen [recvResponse, passSection, onCore]
  all_goals exact Loans.modifyRoute ‹_› fun _ => rfl

@[local spec]
theorem readHeaderBlock_lends (id : StreamId) (fragment : Bytes) (endHeaders : Bool) :
    ⦃fun s => ⌜s.Lends first window initial⌝⦄ (readHeaderBlock id fragment endHeaders : UpM Unit)
    ⦃Lending first window initial⦄ := by
  mvcgen [readHeaderBlock]

@[local spec]
theorem recvWindowUpdate_lends (id : StreamId) (increment : Nat) :
    ⦃fun s => ⌜s.Lends first window initial⌝⦄ (recvWindowUpdate id increment : UpM Unit)
    ⦃Lending first window initial⦄ := by
  mvcgen [recvWindowUpdate, onCore]
  exact Loans.modify ‹_› fun _ _ => rfl

@[local spec]
theorem recvRstStream_lends (id : StreamId) (code : ErrorCode) :
    ⦃fun s => ⌜s.Lends first window initial⌝⦄ (recvRstStream id code : UpM Unit)
    ⦃Lending first window initial⦄ := by
  mvcgen [recvRstStream]

@[local spec]
theorem recvSettings_lends (params : List (UInt16 × UInt32)) :
    ⦃fun s => ⌜s.Lends first window initial⌝⦄ (recvSettings params : UpM Unit)
    ⦃Lending first window initial⦄ := by
  mvcgen [recvSettings, onCore]
  · exact (Loans.bound ‹_› _).shift _
  · exact (Loans.bound ‹_› _).shift _
  · exact Loans.bound ‹_› _
  · exact Loans.shift ‹_› _
  · exact Loans.shift ‹_› _

/-- What a connection that has just heard `w` has lent. -/
def Heard (first : List UpObs) (window initial : Int) (w : WireFrame) (s : Upstream) : Prop :=
  ∃ log, s.log = log ++ [.heard w] ∧
    Loans first window initial 0 noLoan s.streams s.connRecvWindow s.routes log

namespace Heard

variable {w : WireFrame} {s : Upstream} {id : StreamId} {data : Bytes} {endStream : Bool}
  {connRecvWindow : RecvWindow}

theorem lends (h : s.Heard first window initial w) : s.Lends first window initial := by
  obtain ⟨log, heard, kept⟩ := h
  unfold Lends
  rw [heard]
  exact kept.observe rfl

theorem hear (h : s.Heard first window initial w) (frame : w.data? = some (id, data, endStream))
    (within : s.connRecvWindow.record data.length = .ok connRecvWindow) :
    Loans first window initial data.length noLoan s.streams connRecvWindow s.routes s.log := by
  obtain ⟨log, heard, kept⟩ := h
  rw [heard]
  exact kept.hear frame within

theorem receive (h : s.Heard first window initial w) (frame : w.data? = some (id, data, endStream))
    (within : s.connRecvWindow.record data.length = .ok connRecvWindow) {stream : Stream}
    (live : s.streams.lookup id = .live stream) {recvWindow : RecvWindow}
    (within' : stream.recvWindow.record data.length = .ok recvWindow) :
    Loans first window initial data.length (fun id' => if id' = id then data.length else 0)
      (s.streams.modify id ({ · with recvWindow })) connRecvWindow s.routes s.log := by
  obtain ⟨log, heard, kept⟩ := h
  rw [heard]
  exact kept.receive frame within (StreamTable.lookup_live.mp live) within'

end Heard

theorem recvData_lends {w : WireFrame} {id : StreamId} {data : Bytes} {endStream : Bool}
    (frame : w.data? = some (id, data, endStream)) :
    ⦃fun s => ⌜s.Heard first window initial w⌝⦄ (recvData id data endStream : UpM Unit)
    ⦃Lending first window initial⦄ := by
  have returns : ∀ n, ⦃fun s => ⌜Loans first window initial n noLoan s.streams s.connRecvWindow
      s.routes s.log⌝⦄ (releaseConnWindow n : UpM Unit)
      ⦃Lending first window initial⦄ := releaseConnWindow_lends
  mvcgen [recvData, onCore, returns]
  · exact Heard.lends ‹_›
  · have lent := Heard.hear ‹_› frame ‹_›
    exact lent.forgive
  · have lent := Heard.hear ‹_› frame ‹_›
    exact lent
  · have lent := Heard.hear ‹_› frame ‹_›
    exact lent.forgive
  · have lent := Heard.receive ‹_› frame ‹_› ‹_› ‹_›
    exact lent.take ‹_›
  · have lent := Heard.receive ‹_› frame ‹_› ‹_› ‹_›
    exact lent.forgive

@[local spec]
theorem beginPeerDrain_lends (lastStreamId : StreamId) :
    ⦃fun s => ⌜s.Lends first window initial⌝⦄ (beginPeerDrain lastStreamId : UpM Unit)
    ⦃Lending first window initial⦄ := by
  mvcgen [beginPeerDrain, onCore]

theorem handleFrame_lends {w : WireFrame} {frame : Frame}
    (decoded : w.decode = .ok (.frame frame)) :
    ⦃fun s => ⌜s.Heard first window initial w⌝⦄ (handleFrame frame : UpM Unit)
    ⦃Lending first window initial⦄ := by
  cases frame with
  | data id data endStream =>
    have receives : ⦃fun s => ⌜s.Heard first window initial w⌝⦄
        (recvData id data endStream : UpM Unit)
        ⦃Lending first window initial⦄ := recvData_lends (by unfold WireFrame.data?; rw [decoded])
    mvcgen [handleFrame, receives]
    exact Heard.lends ‹_›
  | _ => mvcgen [handleFrame, onCore] <;> exact Heard.lends ‹_›

theorem recvWire_lends (w : WireFrame) :
    ⦃fun s => ⌜s.Lends first window initial⌝⦄ (recvWire w : UpM Unit)
    ⦃Lending first window initial⦄ := by
  mvcgen [recvWire, onCore, rejectIfMidHeaderBlock, handleFrame_lends]
  · exact Loans.observe ‹_› rfl
  · exact Loans.observe ‹_› rfl
  · exact Loans.observe ‹_› rfl
  · exact Loans.observe ‹_› rfl
  · exact ⟨_, rfl, ‹_›⟩

/-! ### The scheduler -/

@[local spec]
theorem spend_lends (id : StreamId) (stream : Stream) (len : Nat) :
    ⦃fun s => ⌜s.Lends first window initial⌝⦄ (spend id stream len : UpM Unit)
    ⦃Lending first window initial⦄ := by
  mvcgen [spend, onCore]
  · exact Loans.modify ‹_› fun _ _ => rfl
  · exact Loans.modify ‹_› fun _ _ => rfl

@[local spec]
theorem transmit_lends (id : StreamId) (turn : Stream.Turn) :
    ⦃fun s => ⌜s.Lends first window initial⌝⦄ (transmit id turn : UpM Unit)
    ⦃Lending first window initial⦄ := by
  mvcgen [transmit]

@[local spec]
theorem reportAccepted_lends (id : StreamId) (len : Nat) :
    ⦃fun s => ⌜s.Lends first window initial⌝⦄ (reportAccepted id len : UpM Unit)
    ⦃Lending first window initial⦄ := by
  mvcgen [reportAccepted]

@[local spec]
theorem visitReadyStream_lends (id : StreamId) :
    ⦃fun s => ⌜s.Lends first window initial⌝⦄ (visitReadyStream id : UpM (Option Bool))
    ⦃Lending first window initial⦄ := by
  mvcgen [visitReadyStream, transmitTrailers, onCore]
  · exact Loans.modify ‹_› fun _ _ => rfl
  · exact Loans.turn ‹_› _ ‹_›
  · exact Loans.turn ‹_› _ ‹_›

@[local spec]
theorem visitLap_lends (lap : List StreamId) :
    ⦃fun s => ⌜s.Lends first window initial⌝⦄
    (visitLap lap : UpM (List StreamId × List StreamId × Bool)) ⦃Lending first window initial⦄ := by
  induction lap with
  | nil => mvcgen [visitLap]
  | cons id lap ih => mvcgen [visitLap, ih]

@[local spec]
theorem requeue_lends (ids : List StreamId) :
    ⦃fun s => ⌜s.Lends first window initial⌝⦄ (requeue ids : UpM Unit)
    ⦃Lending first window initial⦄ := by
  induction ids with
  | nil => mvcgen [requeue]
  | cons id ids ih =>
    mvcgen [requeue, onCore, ih]
    exact Loans.modify ‹_› fun _ _ => rfl

@[local spec]
theorem pumpLaps_lends (fuel : Nat) :
    ⦃fun s => ⌜s.Lends first window initial⌝⦄ (pumpLaps fuel : UpM Unit)
    ⦃Lending first window initial⦄ := by
  induction fuel with
  | zero => mvcgen [pumpLaps]
  | succ fuel ih => mvcgen [pumpLaps, pumpLap, ih]

/-! ## Steps -/

theorem react_lends (input : UpInput) :
    ⦃fun s => ⌜s.Lends first window initial ∧ s.Honest input⌝⦄ (react input : UpM Next)
    ⦃Lending first window initial⦄ := by
  cases input with
  | frame w =>
    have receives : ⦃fun s => ⌜s.Lends first window initial⌝⦄ (recvWire w : UpM Unit)
        ⦃Lending first window initial⦄ := recvWire_lends w
    mvcgen [react, receives]
    exact And.left ‹_›
  | message m =>
    have handles : ⦃fun s => ⌜s.Lends first window initial ∧ s.Honest (.message m)⌝⦄
        (handleMessage m : UpM Unit) ⦃Lending first window initial⦄ := handleMessage_lends m
    mvcgen [react, handles]
  | _ => mvcgen [react, pumpOutbound, probeTimer, onCore] <;> exact And.left ‹_›

theorem conclude_lends {s : Upstream} (stop : Stop)
    (h : UpObs.meter.LawfulFrom (initialCredit initial) maxWindowSize first s.log) :
    UpObs.meter.LawfulFrom (initialCredit initial) maxWindowSize first (conclude stop s).log := by
  have silent : ∀ t : Upstream,
      UpObs.meter.LawfulFrom (initialCredit initial) maxWindowSize first t.log →
      UpObs.meter.LawfulFrom (initialCredit initial) maxWindowSize first t.failAllRoutes.log := by
    intro t ht
    refine (ht.quiet fun o ho => ?_).quiet fun o ho => ?_
    · obtain ⟨p, -, rfl⟩ := List.mem_map.mp ho
      rfl
    · obtain ⟨r, -, rfl⟩ := List.mem_map.mp ho
      rfl
  unfold conclude queueFrame queueFields
  cases stop with
  | quiet => exact silent s h
  | failed e =>
    dsimp only
    cases (Frame.goAway s.streams.highestLocalId e.code (ascii e.debug)).write with
    | error e' => exact silent s h
    | ok octets => exact silent _ (h.quiet fun o ho => List.mem_singleton.mp ho ▸ rfl)

/-- While a connection runs its windows are open, and what it announced is lawful for good. -/
structure Credible (first : List UpObs) (window initial : Int) (s : Upstream) : Prop where
  running : s.stop = none → s.Lends first window initial
  lawful : UpObs.meter.LawfulFrom (initialCredit initial) maxWindowSize first s.log

theorem Credible.step {s : Upstream} (h : s.Credible first window initial)
    (i : Instant × UpInput) (honest : s.Honest i.2) : (step i s).Credible first window initial := by
  obtain ⟨now, input⟩ := i
  unfold Upstream.step
  split
  · rename_i stopped
    have stays : ∀ t : Upstream, t.stop = s.stop → t.stop = none →
        t.Lends first window initial := by
      intro t same running
      rw [← same, running] at stopped
      cases stopped
    dsimp only
    split
    · rename_i message
      cases message with
      | request => exact ⟨stays _ rfl, h.lawful.quiet fun o ho => List.mem_singleton.mp ho ▸ rfl⟩
      | _ => exact h
    · exact h
  · rename_i running
    have lends := h.running (Option.not_isSome_iff_eq_none.mp running)
    have kept := triple_iff_ends.mp (react_lends input) { s with now } ⟨lends, honest⟩
    dsimp only
    generalize react input { s with now } = res at kept
    cases res with
    | ok next t =>
      have kept : t.Lends first window initial := kept
      cases next with
      | continue_ => exact ⟨fun _ => kept, kept.lawful⟩
      | close =>
        exact ⟨fun no => (by cases no), conclude_lends .quiet kept.lawful⟩
    | error e t =>
      have kept : t.Lends first window initial := kept
      exact ⟨fun no => (by cases no), conclude_lends (.failed e) kept.lawful⟩

variable {t : Tuning} {idle timeout : Duration} {now : Instant}

theorem start_credible (clamped : t.Clamped) :
    (start t idle timeout now).Credible (start t idle timeout now).log t.connectionWindow
      t.streamWindow := by
  have pos : 1 ≤ t.connectionWindow := Int.le_trans (by decide) clamped.connectionWindow_ge
  have initial := clamped.asI32_streamWindow.2
  have left : ∀ id, UpObs.meter.left (initialCredit t.streamWindow) id
      (start t idle timeout now).log =
        if id = .connection then t.connectionWindow else t.streamWindow :=
    left_handshake rfl (fun _ => rfl) (fun _ => rfl) rfl clamped.connectionWindow_ge
      clamped.connectionWindow_le
  have lawful : UpObs.meter.LawfulFrom (initialCredit t.streamWindow) maxWindowSize
      (start t idle timeout now).log (start t idle timeout now).log := .refl _
  refine ⟨fun _ => ⟨?_, fun id s hs => ?_, fun id hid => ?_, initial, clamped.streamWindow_pos,
    clamped.streamWindow_le, lawful⟩, lawful⟩
  · refine RecvWindow.Open.new pos clamped.connectionWindow_le (Int.le_of_eq ?_)
    exact (left .connection).trans (if_pos rfl)
  · cases hs
  · refine Int.le_of_eq ((left id).trans (if_neg ?_))
    rintro rfl
    exact hid (Nat.le_refl _)

/-- Under honest clients, every increment a connection queues is lawful exactly if the window is
    not tuned to the protocol's own 65535 octets. -/
theorem lawful_iff (clamped : t.Clamped) {s : Upstream}
    (h : (machine.startedAt (start t idle timeout now)).Reach (fun s i => s.Honest i.2) s) :
    UpObs.meter.Lawful (initialCredit t.streamWindow) maxWindowSize s.log ↔
      t.connectionWindow ≠ defaultInitialWindowSize := by
  have credible : s.Credible (start t idle timeout now).log t.connectionWindow t.streamWindow := by
    refine h.invariant (I := Credible _ _ _) ?_ fun s i kept honest => Credible.step kept i honest
    rintro s rfl
    exact start_credible clamped
  rw [credible.lawful.lawful_iff]
  constructor
  · intro lawful same
    exact not_lawful_handshake [] rfl same lawful
  · intro other
    have above := Int.lt_iff_le_and_ne.mpr ⟨clamped.connectionWindow_ge, Ne.symm other⟩
    exact lawful_handshake rfl (fun _ => rfl) (fun _ => rfl) rfl above clamped.connectionWindow_le

end Upstream

/-! ## Both legs -/

/-- Under every tuning the daemon accepts, and in every run of either leg in which nobody gives
    back credit it was not given, every WINDOW_UPDATE queued has an increment from 1 to 2^31 - 1
    and leaves the peer with at most 2^31 - 1 octets, exactly if the connection's window is not
    tuned to 65535 octets. -/
theorem increments_lawful_iff {σ μ : Type} [Service σ μ] {t : Tuning} (accepted : t.Accepted) :
    (∀ s₀ s : Conn σ μ, Conn.Tuned t s₀ →
      ((Conn.machine σ μ).startedAt s₀).Reach (Conn.Permits honest) s →
      ((ConnObs.meter μ).Lawful (initialCredit t.streamWindow) maxWindowSize s.log ↔
        t.connectionWindow ≠ defaultInitialWindowSize)) ∧
    ∀ idle timeout now, ∀ s : Upstream,
      (Upstream.machine.startedAt (.start t idle timeout now)).Reach
        (fun s i => s.Honest i.2) s →
      (UpObs.meter.Lawful (initialCredit t.streamWindow) maxWindowSize s.log ↔
        t.connectionWindow ≠ defaultInitialWindowSize) :=
  ⟨fun _ _ tuned h => Conn.lawful_iff accepted.clamped tuned h,
    fun _ _ _ _ h => Upstream.lawful_iff accepted.clamped h⟩

/-- What the daemon makes of a connection window one octet above the least and a stream window of
    four. -/
def narrowTuning : Tuning := .ofEnv (some 65536) (some 4) none none none

/-- `POST /` with three octets of body, which are echoed and accepted. -/
def narrowBody : List (Instant × ConnInput) :=
  [(0, .frame Conn.postRoot), (1, .frame Conn.dataFirst), (2, .event), (3, .event), (4, .event),
    (5, .pump 0)]

/-- The three octets are given back to the stream at once. -/
theorem narrowBody_lawful :
    let s := (Conn.machine Echo Empty).run (.start (.new 4) narrowTuning.serverSettings
      narrowTuning.connectionWindow .default .default none 0) narrowBody
    tally (ConnObs.announced (.new 1)) s.log = 3 ∧
      (ConnObs.meter Empty).Lawful (initialCredit narrowTuning.streamWindow) maxWindowSize s.log := by
  refine ⟨by decide +kernel, ?_⟩
  refine ((increments_lawful_iff ⟨some 65536, some 4, none, none, none, rfl⟩).1 _ _
    ⟨.new 4, .default, .default, none, 0, rfl⟩ ?_).mpr (by decide)
  exact Machine.Reach.run (.init rfl) narrowBody (by decide +kernel)

/-- What the daemon makes of `H2PROXYD_CONN_WINDOW=65535`. -/
def plainTuning : Tuning := .ofEnv (some 65535) none none none none

/-- Under the smallest window a daemon accepts, both legs open with an increment of zero. -/
theorem bootstrap_increment_zero :
    ¬ ∀ t : Tuning, t.Accepted →
      (∀ s₀ s : Conn Echo Empty, Conn.Tuned t s₀ →
        ((Conn.machine Echo Empty).startedAt s₀).Reach (Conn.Permits honest) s →
        (ConnObs.meter Empty).Lawful (initialCredit t.streamWindow) maxWindowSize s.log) ∧
      ∀ idle timeout now, ∀ s : Upstream,
        (Upstream.machine.startedAt (.start t idle timeout now)).Reach
          (fun s i => s.Honest i.2) s →
        UpObs.meter.Lawful (initialCredit t.streamWindow) maxWindowSize s.log := by
  intro all
  have accepted : plainTuning.Accepted := ⟨some 65535, none, none, none, none, rfl⟩
  have lawful := (all plainTuning accepted).2 0 0 0 _ (.init rfl)
  exact not_lawful_handshake [] rfl rfl lawful

end H2Proxy
