import H2Proxy.Conn.Says
import H2Proxy.Conn.Windows
import H2Proxy.Credit

/-
  The WINDOW_UPDATEs of a client connection.

  `Lends` keeps every receive window open (`RecvWindow.Open`) beside what the client has left by
  its own account, and every increment in the log lawful. It survives DATA past a stream's window,
  which no longer balances anything, since it only bounds; where a responder accepts what it was
  given, every move keeps it.
-/

namespace H2Proxy

/-- Credit in the log of a connection: WINDOW_UPDATEs grant it, DATA spends it. -/
def ConnObs.meter (μ : Type) : Meter StreamId (ConnObs μ) where
  grant
    | .queued frame _ _ => frame.increment?
    | _ => none
  spend id
    | .heard w => w.spends id
    | _ => 0

/-- Every receive window is open, whatever was heard, and every increment queued was lawful. -/
structure Lends {σ μ : Type} (window initial : Int) (owed : Nat) (c : ConnCore σ μ) : Prop where
  conn : c.connRecvWindow.Open window (c.streams.held + owed)
    ((ConnObs.meter μ).left (initialCredit initial) .connection c.log)
  live : ∀ id s, c.streams.get? id = some s → id ≠ .connection ∧ id ≤ c.streams.highestPeerId ∧
    s.recvWindow.Open initial s.pendingConnRelease
      ((ConnObs.meter μ).left (initialCredit initial) id c.log)
  unseen : ∀ id, ¬ id ≤ c.streams.highestPeerId →
    (ConnObs.meter μ).left (initialCredit initial) id c.log ≤ initial
  initialRecvWindow : c.streams.initialRecvWindow = initial
  lawful : (ConnObs.meter μ).Lawful (initialCredit initial) maxWindowSize c.log

namespace Lends

variable {σ μ : Type} {window initial : Int} {owed : Nat} {c c' : ConnCore σ μ}

/-- No octet count saturates. -/
theorem held_le (h : Lends window initial owed c) : c.streams.held ≤ u32Max := by
  have room := h.conn.room
  have solvent := h.conn.solvent
  have high := h.conn.high
  unfold maxWindowSize at high
  unfold u32Max
  push_cast at room
  omega

/-- Nothing is announced, and the tables hold the same. -/
theorem quiet (h : Lends window initial owed c) (added : List (ConnObs μ))
    (log : c'.log = c.log ++ added) (silent : ∀ o ∈ added, (ConnObs.meter μ).grant o = none)
    (conn : c'.connRecvWindow = c.connRecvWindow) (holds : c.streams.Holds c'.streams) :
    Lends window initial owed c' := by
  have less : ∀ id, (ConnObs.meter μ).left (initialCredit initial) id c'.log ≤
      (ConnObs.meter μ).left (initialCredit initial) id c.log := by
    intro id
    rw [log]
    exact Meter.left_append_le silent id
  refine ⟨?_, fun id s' hs' => ?_, fun id hid => ?_, ?_, ?_⟩
  · rw [conn, holds.held]
    exact h.conn.mono (Nat.le_refl _) (less _)
  · obtain ⟨s, hs, hw, hp⟩ := holds.live id s' hs'
    obtain ⟨notConn, le, isOpen⟩ := h.live id s hs
    rw [hw, hp]
    exact ⟨notConn, Nat.le_trans le holds.highestPeerId, isOpen.mono (Nat.le_refl _) (less id)⟩
  · exact Int.le_trans (less id) (h.unseen id fun le => hid (Nat.le_trans le holds.highestPeerId))
  · exact holds.initialRecvWindow.trans h.initialRecvWindow
  · rw [log]
    exact h.lawful.quiet silent

theorem observe (h : Lends window initial owed c) {o : ConnObs μ}
    (silent : (ConnObs.meter μ).grant o = none) : Lends window initial owed (c.observe o) :=
  h.quiet [o] rfl (fun _ ho => List.mem_singleton.mp ho ▸ silent) rfl (.refl _)

theorem call (h : Lends window initial owed c) (call : Call) (r : σ × List (Effect μ)) :
    Lends window initial owed (c.call call r) := by
  refine h.quiet _ rfl ?_ rfl (.refl _)
  intro o ho
  obtain rfl | ho := List.mem_cons.mp ho
  · rfl
  · obtain ⟨x, -, hx⟩ := List.mem_filterMap.mp ho
    cases x with
    | emit event => cases hx
    | send message => cases hx; rfl

theorem table (h : Lends window initial owed c) {streams : StreamTable}
    (holds : c.streams.Holds streams) : Lends window initial owed { c with streams } :=
  h.quiet [] (List.append_nil _).symm (fun _ no => by cases no) rfl holds

theorem modifyStream (h : Lends window initial owed c) (id : StreamId) {f : Stream → Stream}
    (keeps : ∀ s, c.streams.get? id = some s → (f s).recvWindow = s.recvWindow ∧
      (f s).pendingConnRelease = s.pendingConnRelease) :
    Lends window initial owed (c.modifyStream id f) :=
  h.table (StreamTable.holds_modify _ id keeps)

/-! ## Credit -/

/-- What a WINDOW_UPDATE, where there is one, leaves each window with. -/
theorem left_announce (initial : Int) (log : List (ConnObs μ)) (id : StreamId) (increment : Option Nat)
    (limit : Nat) (id' : StreamId) :
    (ConnObs.meter μ).left (initialCredit initial) id' (log ++ (increment.map fun n =>
      ConnObs.queued (.windowUpdate id n) [] limit).toList) =
    (ConnObs.meter μ).left (initialCredit initial) id' log +
      (if id = id' then increment.getD 0 else 0 : Nat) := by
  cases increment with
  | none =>
    show (ConnObs.meter μ).left _ id' (log ++ []) = _
    rw [List.append_nil, Option.getD_none, ite_self]
    exact (Int.add_zero _).symm
  | some n =>
    show (ConnObs.meter μ).left _ id' (log ++ [_]) = _
    rw [Meter.left_snoc, Meter.granted_of_some (k := id) (n := n) rfl]
    exact Int.sub_zero _

theorem lawful_announce {log : List (ConnObs μ)} {id : StreamId} {increment : Option Nat}
    {limit : Nat}
    (h : (ConnObs.meter μ).Lawful (initialCredit initial) maxWindowSize log)
    (legal : ∀ n, increment = some n → 1 ≤ n ∧ (n : Int) ≤ maxWindowSize ∧
      (ConnObs.meter μ).left (initialCredit initial) id log + n ≤ maxWindowSize) :
    (ConnObs.meter μ).Lawful (initialCredit initial) maxWindowSize (log ++ (increment.map fun n =>
      ConnObs.queued (.windowUpdate id n) [] limit).toList) := by
  cases increment with
  | none =>
    show (ConnObs.meter μ).Lawful _ _ (log ++ [])
    rwa [List.append_nil]
  | some n =>
    refine h.snoc fun k n' grant => ?_
    cases grant
    obtain ⟨pos, high, most⟩ := legal n rfl
    have after := left_announce initial log id (some n) limit id
    rw [if_pos rfl, Option.getD_some] at after
    exact ⟨pos, high, Int.le_trans (Int.le_of_eq after) most⟩

/-- Credit that is owed goes back to the connection's window. -/
theorem releaseConn {n limit : Nat} (h : Lends window initial (owed + n) c) :
    Lends window initial owed (c.releaseConn n limit) := by
  have conn := h.conn
  rw [← Nat.add_assoc] at conn
  obtain ⟨isOpen, legal⟩ := conn.release
  have left := left_announce initial c.log .connection (c.connRecvWindow.release n).2
    limit
  have others : ∀ id, id ≠ .connection →
      (ConnObs.meter μ).left (initialCredit initial) id (c.releaseConn n limit).log =
        (ConnObs.meter μ).left (initialCredit initial) id c.log := by
    intro id notConn
    refine (left id).trans ?_
    rw [if_neg (Ne.symm notConn)]
    exact Int.add_zero _
  refine ⟨?_, fun id s hs => ?_, fun id hid => ?_, h.initialRecvWindow, ?_⟩
  · refine isOpen.mono (Nat.le_refl _) (Int.le_of_eq ((left .connection).trans ?_))
    rw [if_pos rfl]
  · obtain ⟨notConn, le, isOpen⟩ := h.live id s hs
    rw [others id notConn]
    exact ⟨notConn, le, isOpen⟩
  · rw [others id fun zero => hid (zero ▸ Nat.zero_le _)]
    exact h.unseen id hid
  · exact lawful_announce h.lawful legal

theorem reclaim {limit : Nat} (h : Lends window initial owed c) :
    Lends window initial owed (c.reclaim limit) := by
  have taken : Lends window initial (owed + c.streams.reclaimed)
      { c with streams := { c.streams with reclaimed := 0 } } := by
    refine ⟨h.conn.mono ?_ (Int.le_refl _), h.live, h.unseen, h.initialRecvWindow, h.lawful⟩
    unfold StreamTable.held
    dsimp only
    omega
  unfold ConnCore.reclaim
  dsimp only
  split
  · rename_i none_
    rw [none_] at taken
    exact taken
  · exact taken.releaseConn

/-- A stream's credit goes back to its own window, and to the connection's. -/
theorem credit {n limit : Nat} {id : StreamId} {stream : Stream} (h : Lends window initial owed c)
    (live : c.streams.get? id = some stream) (held : n ≤ stream.pendingConnRelease) :
    Lends window initial owed (c.credit id stream n limit) := by
  obtain ⟨notConn, le, isOpen⟩ := h.live id stream live
  rw [show stream.pendingConnRelease = stream.pendingConnRelease - n + n by omega] at isOpen
  obtain ⟨released, legal⟩ := isOpen.release
  have left := left_announce initial c.log id (stream.recvWindow.release n).2 limit
  unfold ConnCore.credit
  dsimp only
  refine releaseConn ?_
  generalize hf : (fun s : Stream => { s with
    recvWindow := (stream.recvWindow.release n).1
    pendingConnRelease := s.pendingConnRelease - n }) = f
  have hfs : (f stream).recvWindow = (stream.recvWindow.release n).1 ∧
      (f stream).pendingConnRelease = stream.pendingConnRelease - n := by
    rw [← hf]
    exact ⟨rfl, rfl⟩
  have kept := Ledger.held_modify f live
  rw [hfs.2] at kept
  refine ⟨?_, fun id' s' hs' => ?_, fun id' hid' => ?_, h.initialRecvWindow,
    lawful_announce h.lawful legal⟩
  · refine h.conn.mono ?_ (Int.le_of_eq ((left .connection).trans ?_))
    · show (c.streams.modify id f).held + (owed + n) ≤ _
      omega
    · rw [if_neg notConn]
      exact Int.add_zero _
  · have hs' : (c.streams.modify id f).get? id' = some s' := hs'
    rw [StreamTable.get?_modify] at hs'
    split at hs'
    · rename_i same
      subst same
      rw [live] at hs'
      cases hs'
      refine ⟨notConn, le, ?_⟩
      rw [hfs.1, hfs.2]
      refine released.mono (Nat.le_refl _) (Int.le_of_eq ((left id').trans ?_))
      rw [if_pos rfl]
    · rename_i other
      obtain ⟨notConn', le', isOpen'⟩ := h.live id' s' hs'
      refine ⟨notConn', le', isOpen'.mono (Nat.le_refl _) (Int.le_of_eq ((left id').trans ?_))⟩
      rw [if_neg (Ne.symm other)]
      exact Int.add_zero _
  · refine Int.le_trans (Int.le_of_eq ((left id').trans ?_)) (h.unseen id' hid')
    rw [if_neg fun same : id = id' => hid' (same ▸ le)]
    exact Int.add_zero _

/-! ## DATA -/

section Receive

variable {w : WireFrame} {id : StreamId} {data : Bytes} {endStream : Bool} {stream : Stream}
  {connRecvWindow : RecvWindow}

theorem left_hear (initial : Int) (frame : w.data? = some (id, data, endStream)) (log : List (ConnObs μ))
    (id' : StreamId) :
    (ConnObs.meter μ).left (initialCredit initial) id' (log ++ [.heard w]) =
      (ConnObs.meter μ).left (initialCredit initial) id' log -
        (if id' = .connection ∨ id = id' then data.length else 0 : Nat) := by
  rw [Meter.left_snoc, Meter.granted_of_none rfl]
  have spends : (ConnObs.meter μ).spend id' (.heard w) =
      if id' = .connection ∨ id = id' then data.length else 0 := w.spends_of frame id'
  rw [spends]
  push_cast
  omega

/-- DATA is heard on a stream that was seen; the tables after it hold no more than came in. -/
theorem hear {owed' : Nat} (h : Lends window initial owed c) (streams : StreamTable)
    (frame : w.data? = some (id, data, endStream))
    (conn : c.connRecvWindow.record data.length = .ok connRecvWindow)
    (held : streams.held + owed' ≤ c.streams.held + owed + data.length)
    (top : streams.highestPeerId = c.streams.highestPeerId)
    (grant : streams.initialRecvWindow = c.streams.initialRecvWindow)
    (others : ∀ id' s', id' ≠ id → streams.get? id' = some s' → c.streams.get? id' = some s')
    (own : ∀ s', streams.get? id = some s' → id ≠ .connection ∧ id ≤ c.streams.highestPeerId ∧
      s'.recvWindow.Open initial s'.pendingConnRelease
        ((ConnObs.meter μ).left (initialCredit initial) id c.log - data.length)) :
    Lends window initial owed'
      { c.observe (.heard w) with connRecvWindow := connRecvWindow, streams := streams } := by
  have left := left_hear initial frame c.log
  have less : ∀ id', (ConnObs.meter μ).left (initialCredit initial) id' (c.log ++ [.heard w]) ≤
      (ConnObs.meter μ).left (initialCredit initial) id' c.log :=
    Meter.left_append_le fun o ho => List.mem_singleton.mp ho ▸ rfl
  refine ⟨?_, fun id' s' hs' => ?_, fun id' hid' => ?_, grant.trans h.initialRecvWindow,
    h.lawful.quiet fun o ho => List.mem_singleton.mp ho ▸ rfl⟩
  · refine (h.conn.record conn).mono held (Int.le_of_eq ((left .connection).trans ?_))
    rw [if_pos (.inl rfl)]
  · show id' ≠ .connection ∧ id' ≤ streams.highestPeerId ∧ _
    rw [top]
    by_cases same : id' = id
    · subst same
      obtain ⟨notConn, seen, isOpen⟩ := own s' hs'
      refine ⟨notConn, seen, isOpen.mono (Nat.le_refl _) (Int.le_of_eq ((left id').trans ?_))⟩
      rw [if_pos (.inr rfl)]
    · obtain ⟨notConn, seen, isOpen⟩ := h.live id' s' (others id' s' same hs')
      exact ⟨notConn, seen, isOpen.mono (Nat.le_refl _) (less id')⟩
  · exact Int.le_trans (less id') (h.unseen id' (top ▸ hid'))

/-- The octets a live stream holds do not saturate its counter. -/
theorem pending_sat (h : Lends window initial owed c) (live : c.streams.get? id = some stream)
    (conn : c.connRecvWindow.record data.length = .ok connRecvWindow) :
    satAdd32 stream.pendingConnRelease data.length = stream.pendingConnRelease + data.length := by
  have le := AList.le_total (·.pendingConnRelease) live
  have room := (h.conn.record conn).room
  have solvent := (h.conn.record conn).solvent
  have high := h.conn.high
  apply satAdd32_eq
  unfold StreamTable.held at room
  unfold u32Max
  unfold maxWindowSize at high
  push_cast at room
  omega

theorem receive (h : Lends window initial owed c) (frame : w.data? = some (id, data, endStream))
    (live : c.streams.get? id = some stream)
    (conn : c.connRecvWindow.record data.length = .ok connRecvWindow) {recvWindow : RecvWindow}
    (within : stream.recvWindow.record data.length = .ok recvWindow) :
    Lends window initial owed (c.receive w id data.length connRecvWindow (some recvWindow)) := by
  obtain ⟨notConn, seen, isOpen⟩ := h.live id stream live
  have sat := h.pending_sat live conn
  refine h.hear _ frame conn ?_ rfl rfl (fun id' s' other hs' => ?_) fun s' hs' => ?_
  · have kept := Ledger.held_modify (fun s => { s with
      dataReceived := satAdd64 s.dataReceived data.length
      pendingConnRelease := satAdd32 s.pendingConnRelease data.length
      recvWindow := (some recvWindow).getD s.recvWindow }) live
    dsimp only at kept
    show StreamTable.held (c.streams.modify id _) + owed ≤ _
    omega
  · rw [StreamTable.get?_modify, if_neg other] at hs'
    exact hs'
  · rw [StreamTable.get?_modify, if_pos rfl, ConnCore.observe_streams, live] at hs'
    cases hs'
    refine ⟨notConn, seen, ?_⟩
    dsimp only [Option.getD_some]
    rw [sat]
    exact isOpen.record within

/-- DATA past the window of its stream is the connection's once the stream is retired. -/
theorem overspend [Service σ μ] (h : Lends window initial owed c)
    (frame : w.data? = some (id, data, endStream)) (live : c.streams.get? id = some stream)
    (conn : c.connRecvWindow.record data.length = .ok connRecvWindow) (now : Instant)
    (code : ErrorCode) :
    Lends window initial owed
      ((c.receive w id data.length connRecvWindow none).abandon now id code) := by
  have sat := h.pending_sat live conn
  generalize hf : (fun s : Stream => { s with
    dataReceived := satAdd64 s.dataReceived data.length
    pendingConnRelease := satAdd32 s.pendingConnRelease data.length
    recvWindow := (none : Option RecvWindow).getD s.recvWindow }) = f
  have kept : (c.streams.modify id f).held = c.streams.held + data.length := by
    have := Ledger.held_modify f live
    rw [← hf] at this ⊢
    dsimp only at this
    omega
  have bound : (c.streams.modify id f).held ≤ u32Max := by
    have room := (h.conn.record conn).room
    have solvent := (h.conn.record conn).solvent
    have high := h.conn.high
    rw [kept]
    unfold u32Max
    unfold maxWindowSize at high
    push_cast at room
    omega
  have retired := StreamTable.holds_retire id bound
  have heard : Lends window initial owed
      { c.observe (.heard w) with
        connRecvWindow := connRecvWindow, streams := (c.streams.modify id f).retire id } := by
    refine h.hear _ frame conn ?_ (StreamTable.retire_top _ _) retired.initialRecvWindow
      (fun id' s' other hs' => ?_) fun s' hs' => ?_
    · rw [retired.held, kept]
      omega
    · rw [StreamTable.get?_retire, if_neg other, StreamTable.get?_modify, if_neg other] at hs'
      exact hs'
    · rw [StreamTable.get?_retire, if_pos rfl] at hs'
      cases hs'
  rw [← hf] at heard
  exact heard.call _ _

/-- DATA for a stream that is gone is credited back at once. -/
theorem receiveLate {limit : Nat} (h : Lends window initial owed c)
    (frame : w.data? = some (id, data, endStream)) (gone : c.streams.get? id = none)
    (conn : c.connRecvWindow.record data.length = .ok connRecvWindow) :
    Lends window initial owed
      ({ c.observe (.heard w) with connRecvWindow }.releaseConn data.length limit) := by
  refine releaseConn (h.hear c.streams frame conn (Nat.le_of_eq (Nat.add_assoc ..).symm) rfl rfl
    (fun _ _ _ h => h) fun s' hs' => ?_)
  rw [gone] at hs'
  cases hs'

end Receive

/-! ## The other effects -/

variable {limit : Nat}

theorem headersOut (h : Lends window initial owed c) (id : StreamId) (fields : List Header)
    (endStream : Bool) (enc : HpackEncoder) :
    Lends window initial owed (c.headersOut id fields endStream enc limit) :=
  (h.observe rfl).observe rfl

theorem declare (h : Lends window initial owed c) (id : StreamId) (contentLength : Option Nat) :
    Lends window initial owed (c.declare id contentLength) := by
  cases contentLength with
  | none => exact h
  | some n => exact h.modifyStream id fun _ _ => ⟨rfl, rfl⟩

theorem neutral (h : Lends window initial owed c) {o : ConnObs μ} (neutral : o.Neutral) :
    Lends window initial owed (c.observe o) := by
  refine h.observe ?_
  cases neutral with
  | heard | encoded => rfl
  | @queued f limit fits kind =>
    cases f with
    | windowUpdate => obtain kind | kind := kind <;> cases kind
    | _ => rfl

variable [Service σ μ]

theorem abandon (h : Lends window initial owed c) (now : Instant) (id : StreamId)
    (code : ErrorCode) : Lends window initial owed (c.abandon now id code) :=
  (h.table (StreamTable.holds_retire id h.held_le)).call _ _

theorem writeRst (h : Lends window initial owed c) (now : Instant) (id : StreamId)
    (code : ErrorCode) : Lends window initial owed (c.writeRst now id code limit) :=
  (h.abandon now id code).reclaim.observe rfl

theorem settle (h : Lends window initial owed c) (now : Instant) (id : StreamId)
    (event : StreamEvent) : Lends window initial owed (c.settle now id event limit) := by
  have holds := StreamTable.holds_apply id event h.held_le
  unfold ConnCore.settle
  generalize c.streams.apply id event = r at holds
  obtain ⟨streams, result⟩ := r
  have applied : Lends window initial owed { c with streams } := h.table holds
  cases result with
  | ok state =>
    dsimp only
    split
    · exact (applied.call _ _).reclaim
    · exact applied
  | error e =>
    dsimp only
    split
    · exact applied
    · exact applied.quiet [] (List.append_nil _).symm (fun _ no => by cases no) rfl
        (StreamTable.holds_retire id applied.held_le)

theorem respond (h : Lends window initial owed c) (now : Instant) (id : StreamId)
    (response : Response) (endStream : Bool) (enc : HpackEncoder) :
    Lends window initial owed (c.respond now id response endStream enc limit) := by
  refine settle ?_ now id _
  exact (h.headersOut id _ endStream enc).modifyStream id fun _ _ => ⟨rfl, rfl⟩

theorem sendTrailers (h : Lends window initial owed c) (now : Instant) (id : StreamId)
    (fields : List Header) (enc : HpackEncoder) :
    Lends window initial owed (c.sendTrailers now id fields enc limit) := by
  unfold ConnCore.sendTrailers
  split
  · exact h.modifyStream id fun _ _ => ⟨rfl, rfl⟩
  split
  · exact h.modifyStream id fun _ _ => ⟨rfl, rfl⟩
  · exact (h.headersOut id fields true enc).settle now id _

theorem openRequest (h : Lends window initial owed c) (pos : 1 ≤ initial)
    (high : initial ≤ maxWindowSize) (now : Instant) {id : StreamId} (endStream : Bool)
    (isOpen : (c.streams.openPeer id).2 = .ok ()) :
    Lends window initial owed (c.openRequest now id endStream limit) := by
  obtain ⟨odd, above, table⟩ := StreamTable.openPeer_ok isOpen
  have notConn : id ≠ .connection := by
    rintro rfl
    cases odd
  have gone : c.streams.get? id = none := by
    cases hs : c.streams.get? id with
    | none => rfl
    | some s => exact absurd (h.live id s hs).2.1 above
  have rises : ∀ id', id' ≤ c.streams.highestPeerId → id' ≤ id := fun id' le =>
    Nat.le_trans le (Nat.le_of_lt (Nat.lt_of_not_le above))
  refine settle (observe ?_ rfl) now id _
  rw [table]
  refine ⟨h.conn.mono ?_ (Int.le_refl _), fun id' s' hs' => ?_, fun id' hid' => ?_,
    h.initialRecvWindow, h.lawful⟩
  · unfold StreamTable.held StreamTable.insertNew
    dsimp only
    rw [AList.total_insert_of_none _ _ gone]
    simp [Stream.new]
  · have hs' : ({ c.streams with highestPeerId := id }.insertNew id).get? id' = some s' := hs'
    rw [StreamTable.get?_insertNew] at hs'
    split at hs'
    · rename_i same
      subst same
      cases hs'
      refine ⟨notConn, Nat.le_refl _, ?_⟩
      show RecvWindow.Open (.new c.streams.initialRecvWindow) initial 0 _
      rw [h.initialRecvWindow]
      exact .new pos high (h.unseen id' above)
    · obtain ⟨notConn', le, isOpen'⟩ := h.live id' s' hs'
      exact ⟨notConn', rises id' le, isOpen'⟩
  · exact h.unseen id' fun le => hid' (rises id' le)

theorem transmit (h : Lends window initial owed c) (now : Instant) {id : StreamId}
    {stream : Stream} (budget : Nat) (sendWindow : Window)
    (live : c.streams.get? id = some stream) :
    Lends window initial owed (c.transmit now id (stream.turn budget) sendWindow limit) := by
  have turned := h.modifyStream id (f := fun _ => { (stream.turn budget).rest with sendWindow })
    fun s hs => by
      cases live.symm.trans hs
      exact ⟨rfl, rfl⟩
  unfold ConnCore.transmit
  dsimp only
  split
  · exact (turned.observe rfl).settle now id _
  · exact turned

theorem reportReleased (h : Lends window initial owed c) (now : Instant) (id : StreamId)
    (n : Nat) : Lends window initial owed (c.reportReleased now id n) := by
  unfold ConnCore.reportReleased
  split
  · exact h.call _ _
  · exact h

theorem takeTurn (h : Lends window initial owed c) (now : Instant) {id : StreamId}
    {stream : Stream} (budget : Nat) (sendWindow : Window) (enc : HpackEncoder)
    (live : c.streams.get? id = some stream) :
    Lends window initial owed (c.takeTurn now id (stream.turn budget) sendWindow enc limit) := by
  have transmitted : Lends window initial owed
      (c.transmit now id (stream.turn budget) sendWindow limit) :=
    h.transmit now budget sendWindow live
  have sent := transmitted.reportReleased now id (stream.turn budget).chunk.length
  unfold ConnCore.takeTurn
  dsimp only
  split
  · exact sent.sendTrailers now id _ enc
  · exact sent

theorem deliver (h : Lends window initial owed c) (now : Instant) (id : StreamId) (data : Bytes)
    (endStream : Bool) : Lends window initial owed (c.deliver now id data endStream limit) := by
  have settled : Lends window initial owed (c.settle now id (.recvData endStream) limit) :=
    h.settle now id _
  unfold ConnCore.deliver
  dsimp only
  split
  · exact settled.call _ _
  · exact settled

end Lends

/-! ## Moves and runs -/

section Moves

variable {σ μ : Type} [Service σ μ] {window initial : Int} {boot : Nat} {c c' : ConnCore σ μ}

theorem StreamMove.lends {id : StreamId} (m : StreamMove honest c id c')
    (ledger : Ledger window initial boot (fun _ => 0) 0 c) (pos : 1 ≤ initial)
    (high : initial ≤ maxWindowSize) (h : Lends window initial 0 c) :
    Lends window initial 0 c' := by
  cases m with
  | handled => exact h.observe rfl
  | dropped now code => exact (h.observe rfl).writeRst now _ code
  | withdrawn now => exact h.abandon now _ _
  | overgranted now code => exact h.writeRst now _ code
  | stray now code => exact h.writeRst now _ code
  | flushed now =>
    refine Lends.writeRst ?_ now _ _
    exact h.quiet [] (List.append_nil _).symm (fun _ no => by cases no) rfl (.refl _)
  | crowded now cause refused =>
    refine Lends.writeRst ?_ now _ _
    obtain ⟨-, above, table⟩ := StreamTable.openPeer_refused refused
    refine h.table ?_
    rw [table]
    exact ⟨rfl, Nat.le_refl _, Nat.le_of_lt (Nat.lt_of_not_le above), rfl, rfl,
      fun _ s hs => ⟨s, hs, rfl, rfl⟩⟩
  | turnedAway now => exact h.writeRst now _ _
  | malformed now contentLength code isOpen =>
    exact ((h.openRequest pos high now _ isOpen).declare _ _).writeRst now _ code
  | dispatched now contentLength isOpen =>
    exact ((h.openRequest pos high now _ isOpen).declare _ _).call _ _
  | answered now status enc isOpen =>
    exact (h.openRequest pos high now true isOpen).respond now _ _ true enc
  | mistrailed now code => exact h.writeRst now _ code
  | trailered now => exact (h.call _ _).settle now _ _
  | delivered now permit frame live conn within =>
    exact (h.receive frame live conn within).deliver now _ _ _
  | mismatched now code permit frame live conn within =>
    exact (h.receive frame live conn within).writeRst now _ code
  | overspent now permit frame live conn =>
    exact (h.overspend frame live conn now _).reclaim.observe rfl
  | late now permit frame gone conn =>
    exact (h.receiveLate frame (StreamTable.lookup_closed gone).1 conn).writeRst now _ _
  | @credited id n stream limit permit live =>
    have backed := ledger.backed id stream live
    have bound : tally (ConnObs.accepted id) c.log + n ≤ tally (ConnObs.given id) c.log := permit
    exact (h.observe rfl).credit live (by omega)
  | responded now enc => exact (h.observe rfl).respond now _ _ _ enc
  | refused now status enc => exact (h.observe rfl).respond now _ _ _ enc
  | oversized now enc => exact h.respond now _ _ _ enc
  | pushed => exact (h.observe rfl).modifyStream _ fun _ _ => ⟨rfl, rfl⟩
  | trailersDue now enc => exact (h.observe rfl).sendTrailers now _ _ enc
  | turned now sendWindow enc permit live => exact h.takeTurn now _ sendWindow enc live

theorem Move.lends (m : Move honest c c') (ledger : Ledger window initial boot (fun _ => 0) 0 c)
    (pos : 1 ≤ initial) (high : initial ≤ maxWindowSize) (h : Lends window initial 0 c) :
    Lends window initial 0 c' := by
  cases m with
  | note neutral => exact h.neutral neutral
  | alike alike => exact h.table alike.holds
  | events =>
    exact h.quiet [] (List.append_nil _).symm (fun _ no => by cases no) rfl (.refl _)
  | intercepted => exact h.call _ _
  | draining | committed =>
    exact h.quiet [_] rfl (fun _ ho => List.mem_singleton.mp ho ▸ rfl) rfl (.refl _)
  | reclaimed => exact h.reclaim
  | on move => exact move.lends ledger pos high h

/-- What an error leaves in the middle of a move was lawful too. -/
theorem Fault.lawful {P : Permit σ μ} (f : Fault P c c') (pos : 1 ≤ initial)
    (high : initial ≤ maxWindowSize) (h : Lends window initial 0 c) :
    (ConnObs.meter μ).Lawful (initialCredit initial) maxWindowSize c'.log := by
  have heard : ∀ w, (ConnObs.meter μ).Lawful (initialCredit initial) maxWindowSize
      (c.log ++ [ConnObs.heard w]) := fun w =>
    h.lawful.quiet fun o ho => List.mem_singleton.mp ho ▸ rfl
  cases f with
  | none => exact h.lawful
  | heard w => exact heard w
  | @idleData w => exact heard w
  | opened now endStream isOpen => exact (h.openRequest pos high now endStream isOpen).lawful
  | unanswerable now enc fields isOpen =>
    exact ((h.openRequest pos high now true isOpen).observe rfl).lawful
  | @received w => exact heard w
  | transmitted now sendWindow permit live => exact (h.transmit now _ sendWindow live).lawful
  | unencodableEvent => exact ((h.observe rfl).observe rfl).lawful
  | unencodable now sendWindow enc fields permit live =>
    exact (((h.transmit now _ sendWindow live).reportReleased now _ _).observe rfl).lawful

theorem Conn.Closing.lawful (cl : Conn.Closing c c')
    (h : (ConnObs.meter μ).Lawful (initialCredit initial) maxWindowSize c.log) :
    (ConnObs.meter μ).Lawful (initialCredit initial) maxWindowSize c'.log := by
  have called : ∀ (c : ConnCore σ μ) call r,
      (ConnObs.meter μ).Lawful (initialCredit initial) maxWindowSize c.log →
      (ConnObs.meter μ).Lawful (initialCredit initial) maxWindowSize (c.call call r).log := by
    intro c call r h
    refine h.quiet fun o ho => ?_
    obtain rfl | ho := List.mem_cons.mp ho
    · rfl
    · obtain ⟨x, -, hx⟩ := List.mem_filterMap.mp ho
      cases x with
      | emit event => cases hx
      | send message => cases hx; rfl
  cases cl with
  | quiet => exact called _ _ _ h
  | failed => exact called _ _ _ (h.quiet fun o ho => List.mem_singleton.mp ho ▸ rfl)

end Moves

namespace Conn

variable {σ μ : Type}

/-- A connection that a daemon starts under this tuning. -/
def Tuned (t : Tuning) (s : Conn σ μ) : Prop :=
  ∃ service limits policy admission now,
    s = start service t.serverSettings t.connectionWindow limits policy admission now

variable {t : Tuning} {s₀ s : Conn σ μ}

theorem Tuned.fresh (clamped : t.Clamped) (tuned : Tuned t s₀) : Fresh s₀ := by
  obtain ⟨service, limits, policy, admission, now, rfl⟩ := tuned
  refine ⟨service, t.serverSettings, t.connectionWindow, limits, policy, admission, now, ?_, ?_,
    clamped.connectionWindow_le, rfl⟩
  · exact ⟨show Settings.server.headerTableSize < 2 ^ 32 by decide,
      clamped.asI32_streamWindow.1, show Settings.server.maxFrameSize < 2 ^ 32 by decide⟩
  · exact Int.le_trans (by decide) clamped.connectionWindow_ge

theorem Tuned.lends (clamped : t.Clamped) (tuned : Tuned t s₀)
    (above : defaultInitialWindowSize < t.connectionWindow) :
    Lends t.connectionWindow t.streamWindow 0 s₀.toConnCore := by
  obtain ⟨service, limits, policy, admission, now, rfl⟩ := tuned
  have pos : 1 ≤ t.connectionWindow := Int.le_trans (by decide) clamped.connectionWindow_ge
  have initial := clamped.asI32_streamWindow.2
  have left : ∀ id, (ConnObs.meter μ).left (initialCredit t.streamWindow) id (start service
      t.serverSettings t.connectionWindow limits policy admission now : Conn σ μ).log =
        if id = .connection then t.connectionWindow else t.streamWindow :=
    left_handshake rfl (fun _ => rfl) (fun _ => rfl) rfl clamped.connectionWindow_ge
      clamped.connectionWindow_le
  refine ⟨?_, fun id s hs => ?_, fun id hid => ?_, initial, ?_⟩
  · refine RecvWindow.Open.new pos clamped.connectionWindow_le (Int.le_of_eq ?_)
    exact (left .connection).trans (if_pos rfl)
  · cases hs
  · refine Int.le_of_eq ((left id).trans (if_neg ?_))
    rintro rfl
    exact hid (Nat.le_refl _)
  · exact lawful_handshake rfl (fun _ => rfl) (fun _ => rfl) rfl above clamped.connectionWindow_le

variable [Service σ μ]

/-- Under an honest responder, every increment a connection queues is lawful exactly if the
    window is not tuned to the protocol's own 65535 octets. -/
theorem lawful_iff (clamped : t.Clamped) (tuned : Tuned t s₀)
    (h : ((machine σ μ).startedAt s₀).Reach (Permits honest) s) :
    (ConnObs.meter μ).Lawful (initialCredit t.streamWindow) maxWindowSize s.log ↔
      t.connectionWindow ≠ defaultInitialWindowSize := by
  have fresh := tuned.fresh clamped
  have traced := startedAt_traced (fun _ _ h => h) fresh.sound h
  constructor
  · intro lawful same
    obtain ⟨service, limits, policy, admission, now, rfl⟩ := tuned
    obtain ⟨added, log, -⟩ := traced.grows.log
    rw [log] at lawful
    exact not_lawful_handshake added rfl same lawful
  · intro other
    have above := Int.lt_iff_le_and_ne.mpr ⟨clamped.connectionWindow_ge, Ne.symm other⟩
    have pos := clamped.streamWindow_pos
    have high := clamped.streamWindow_le
    have ledger : Ledger t.connectionWindow t.streamWindow
        (connectionWindowBootstrap t.connectionWindow) (fun _ => 0) 0 s₀.toConnCore := by
      obtain ⟨service, limits, policy, admission, now, rfl⟩ := tuned
      have started : Ledger t.connectionWindow (asI32 t.serverSettings.initialWindowSize)
          (connectionWindowBootstrap t.connectionWindow) (fun _ => 0) 0
          (start service t.serverSettings t.connectionWindow limits policy admission now :
            Conn σ μ).toConnCore :=
        start_ledger (Int.le_trans (by decide) clamped.connectionWindow_ge)
      rwa [show asI32 t.serverSettings.initialWindowSize = t.streamWindow from
        clamped.asI32_streamWindow.2] at started
    refine traced.invariant (I := fun c => Ledger t.connectionWindow t.streamWindow
        (connectionWindowBootstrap t.connectionWindow) (fun _ => 0) 0 c ∧
          Lends t.connectionWindow t.streamWindow 0 c)
      (J := fun c => (ConnObs.meter μ).Lawful (initialCredit t.streamWindow) maxWindowSize c.log)
      ⟨ledger, tuned.lends clamped above⟩ (fun c c' hc m => ?_) (fun c hc => hc.2.lawful)
      (fun c c' hc f => f.lawful pos high hc.2) fun c c' hc cl => cl.lawful hc
    exact ⟨m.ledger clamped.connectionWindow_le high (Int.le_trans (by decide) pos) hc.1,
      m.lends hc.1 pos high hc.2⟩

end Conn

end H2Proxy
