import H2Proxy.Hpack.Growth
import H2Proxy.SendWindows
import H2Proxy.Tap

/-
  What a peer lets an engine send.

  `Affords` is kept by an engine about its two kinds of send windows: they hold what the peer has
  left them by the account of the log, so no DATA is sent that it did not pay for. `due` is the
  frame that was heard and is not acted on yet.
-/

namespace H2Proxy

namespace Settings

theorem applyOne_initialWindowSize {s s' : Settings} {id : UInt16} {value : Nat}
    (h : s.applyOne id value = .ok s') (hs : (s.initialWindowSize : Int) ≤ maxWindowSize) :
    (s'.initialWindowSize : Int) ≤ maxWindowSize := by
  unfold applyOne at h
  repeat' split at h
  all_goals cases h
  all_goals first | exact hs | exact Int.not_lt.mp ‹_›

/-- A peer's `INITIAL_WINDOW_SIZE` is a window. -/
theorem apply_initialWindowSize (params : List (UInt16 × UInt32)) {s : Settings}
    (hs : (s.initialWindowSize : Int) ≤ maxWindowSize) :
    ((s.apply params).1.initialWindowSize : Int) ≤ maxWindowSize := by
  induction params generalizing s with
  | nil => exact hs
  | cons param params ih =>
    obtain ⟨id, value⟩ := param
    rw [apply]
    cases hone : s.applyOne id value.toNat with
    | error e => exact hs
    | ok s' => exact ih (applyOne_initialWindowSize hone hs)

end Settings

/-- What an engine sends by: its log, its streams and the highest ids of the side that opens them
    and of the other, the send window of the connection, the peer's settings, its encoder. -/
structure Outlet (α : Type) where
  log : List α
  table : StreamTable
  top : StreamId
  other : StreamId
  window : Window
  peer : Settings
  encoder : HpackEncoder

/-- The increment of a frame that is still to be acted on. -/
def owed (due : Option Frame) (id : StreamId) : Nat :=
  (due.bind Frame.increment?).elim 0 fun r => if r.1 = id then r.2 else 0

namespace Outlet

variable {α : Type} {T : Tap α} {v v' v'' : Outlet α} {due : Option Frame} {f : Frame} {a : α}
  {id : StreamId}

/-- What the peer has left of an account, by the settings that are acted on. -/
def left (T : Tap α) (v : Outlet α) (id : StreamId) : Int :=
  T.meter.left (initialCredit v.peer.initialWindowSize) id v.log

/-- Nothing is heard or sent that touches a window or the encoder's bound. -/
structure Steady (T : Tap α) (v v' : Outlet α) : Prop where
  log : Adds T.Aside v.log v'.log
  window : v'.window = v.window
  peer : v'.peer = v.peer
  initialSendWindow : v'.table.initialSendWindow = v.table.initialSendWindow
  top : v.top ≤ v'.top
  other : v'.other = v.other
  encoder : ∀ bound, v.encoder.Within bound → v'.encoder.Within bound
  /-- A stream keeps its send window, or is new. -/
  windows : ∀ id st', v'.table.get? id = some st' →
    (∃ st, v.table.get? id = some st ∧ st'.sendWindow = st.sendWindow) ∨
      ¬ id ≤ v.top ∧ id ≤ v'.top ∧ st'.sendWindow = ⟨v.table.initialSendWindow⟩

namespace Steady

theorem refl (v : Outlet α) : v.Steady T v :=
  ⟨.refl _ _, rfl, rfl, rfl, Nat.le_refl _, rfl, fun _ h => h,
    fun _ st' h => .inl ⟨st', h, rfl⟩⟩

theorem trans (h : v.Steady T v') (h' : v'.Steady T v'') : v.Steady T v'' := by
  refine ⟨h.log.trans h'.log, h'.window.trans h.window, h'.peer.trans h.peer,
    h'.initialSendWindow.trans h.initialSendWindow, Nat.le_trans h.top h'.top,
    h'.other.trans h.other, fun bound within => h'.encoder bound (h.encoder bound within),
    fun id st'' live => ?_⟩
  obtain ⟨st', live', same⟩ | ⟨unseen, seen, new⟩ := h'.windows id st'' live
  · rw [same]
    obtain old | ⟨unseen, seen, new⟩ := h.windows id st' live'
    · exact .inl old
    · exact .inr ⟨unseen, Nat.le_trans seen h'.top, new⟩
  · exact .inr ⟨fun seen => unseen (Nat.le_trans seen h.top), seen, h.initialSendWindow ▸ new⟩

/-- A log that grows by an observation that is aside. -/
theorem note (v : Outlet α) (aside : T.Aside a) : v.Steady T { v with log := v.log ++ [a] } :=
  ⟨.one aside, rfl, rfl, rfl, Nat.le_refl _, rfl, fun _ h => h,
    fun _ st' h => .inl ⟨st', h, rfl⟩⟩

/-- The streams stay as they are. -/
theorem table {table : StreamTable} (live : table.live = v.table.live)
    (initial : table.initialSendWindow = v.table.initialSendWindow) :
    v.Steady T { v with table } := by
  refine ⟨.refl _ _, rfl, rfl, initial, Nat.le_refl _, rfl, fun _ h => h,
    fun id st' h => ?_⟩
  refine .inl ⟨st', ?_, rfl⟩
  show v.table.live.lookup id = some st'
  rw [← live]
  exact h

/-- A stream is changed in place, and its send window is not. -/
theorem modify (v : Outlet α) (id : StreamId) {f : Stream → Stream}
    (h : ∀ st, v.table.get? id = some st → (f st).sendWindow = st.sendWindow) :
    v.Steady T { v with table := v.table.modify id f } := by
  refine ⟨.refl _ _, rfl, rfl, rfl, Nat.le_refl _, rfl, fun _ h => h,
    fun id' st' live => .inl ?_⟩
  have live : (v.table.modify id f).get? id' = some st' := live
  rw [StreamTable.get?_modify] at live
  split at live
  · rename_i same
    subst same
    obtain ⟨st, hst, rfl⟩ := Option.map_eq_some_iff.mp live
    exact ⟨st, hst, h st hst⟩
  · exact ⟨st', live, rfl⟩

theorem retire (v : Outlet α) (id : StreamId) {table : StreamTable}
    (live : table.live = (v.table.retire id).live)
    (initial : table.initialSendWindow = v.table.initialSendWindow) :
    v.Steady T { v with table } := by
  refine ⟨.refl _ _, rfl, rfl, initial, Nat.le_refl _, rfl, fun _ h => h,
    fun id' st' h => .inl ⟨st', ?_, rfl⟩⟩
  have h : (v.table.retire id).get? id' = some st' := by
    show (v.table.retire id).live.lookup id' = some st'
    rw [← live]
    exact h
  rw [StreamTable.get?_retire] at h
  split at h
  · cases h
  · exact h

end Steady

/-- The windows hold what the peer has left them, up to the frame that is due. -/
structure Affords (T : Tap α) (due : Option Frame) (v : Outlet α) : Prop where
  settings : T.settings v.log = due.elim v.peer (·.settle v.peer)
  bounded : (v.peer.initialWindowSize : Int) ≤ maxWindowSize
  initialSendWindow : v.table.initialSendWindow = v.peer.initialWindowSize
  window : v.window.available + owed due .connection = v.left T .connection
  /-- A window is as far below its initial size as octets were sent on it, at most. -/
  stream : ∀ id st, v.table.get? id = some st → (id ≠ .connection ∧ id ≤ v.top) ∧
    st.sendWindow.available + owed due id = v.left T id ∧
      -maxWindowSize ≤ st.sendWindow.available - v.peer.initialWindowSize
  unseen : ∀ id, ¬ id ≤ v.top → v.left T id = v.peer.initialWindowSize + owed due id
  other : v.other = .connection
  covered : T.Covered v.log

namespace Affords

/-- Where nothing is due, the windows are what the peer has left. -/
theorem credit (h : v.Affords T none) :
    v.window.available = T.credit v.log .connection ∧
      ∀ id st, v.table.get? id = some st → st.sendWindow.available = T.credit v.log id := by
  have left : ∀ id, T.credit v.log id = v.left T id := by
    intro id
    unfold Tap.credit Tap.opening Outlet.left
    rw [h.settings]
    rfl
  refine ⟨?_, fun id st live => ?_⟩
  · rw [left, ← h.window]
    exact (Int.add_zero _).symm
  · rw [left, ← (h.stream id st live).2.1]
    exact (Int.add_zero _).symm

/-- The log grows by what costs nothing. -/
theorem spare {log : List α} (h : v.Affords T due) (grows : Adds T.Free v.log log) :
    ({ v with log } : Outlet α).Affords T due := by
  have left : ∀ id, ({ v with log } : Outlet α).left T id = v.left T id := by
    intro id
    obtain ⟨added, rfl, free⟩ := grows
    exact Meter.left_append_aside (fun a ha => Tap.grant_free (free a ha)) fun a ha => (free a ha).2 id
  refine ⟨?_, h.bounded, h.initialSendWindow, ?_, fun id st live => ?_, fun id new => ?_, h.other,
    h.covered.adds grows fun _ free => free.2⟩
  · rw [Tap.settings_unheard (grows.mono fun _ free => free.1)]
    exact h.settings
  · rw [left]
    exact h.window
  · rw [left]
    exact h.stream id st live
  · rw [left]
    exact h.unseen id new

theorem quiet (h : v.Affords T due) (steady : v.Steady T v') : v'.Affords T due := by
  have h := h.spare (steady.log.mono fun _ => Tap.Aside.free)
  have left : ∀ id, v'.left T id = ({ v with log := v'.log } : Outlet α).left T id := by
    intro id
    unfold Outlet.left
    rw [steady.peer]
  refine ⟨?_, ?_, ?_, ?_, fun id st' live => ?_, fun id new => ?_, steady.other.trans h.other,
    h.covered⟩
  · rw [steady.peer]
    exact h.settings
  · rw [steady.peer]
    exact h.bounded
  · rw [steady.initialSendWindow, steady.peer]
    exact h.initialSendWindow
  · rw [steady.window, left]
    exact h.window
  · rw [left, steady.peer]
    obtain ⟨st, hst, same⟩ | ⟨new, seen, fresh⟩ := steady.windows id st' live
    · rw [same]
      obtain ⟨⟨stream, seen⟩, holds⟩ := h.stream id st hst
      exact ⟨⟨stream, Nat.le_trans seen steady.top⟩, holds⟩
    · refine ⟨⟨?_, seen⟩, ?_⟩
      · rintro rfl
        exact new (Nat.zero_le _)
      · have initial : v.table.initialSendWindow = v.peer.initialWindowSize := h.initialSendWindow
        have bounded : (v.peer.initialWindowSize : Int) ≤ maxWindowSize := h.bounded
        rw [fresh, h.unseen id new]
        dsimp only
        rw [initial]
        unfold maxWindowSize at *
        omega
  · rw [left, steady.peer]
    exact h.unseen id fun seen => new (Nat.le_trans seen steady.top)

/-- A frame is heard, and due. -/
theorem hear (h : v.Affords T none) (heard : T.heard a = some f) (sent : T.sent a = none) :
    ({ v with log := v.log ++ [a] } : Outlet α).Affords T (some f) := by
  have free : ∀ id, T.meter.spend id a = 0 := by
    intro id
    show (T.sent a).elim 0 _ = 0
    rw [sent]
    rfl
  have grant : T.meter.grant a = f.increment? := by
    show (T.heard a).bind _ = _
    rw [heard]
    rfl
  have left : ∀ id, ({ v with log := v.log ++ [a] } : Outlet α).left T id =
      v.left T id + owed (some f) id := by
    intro id
    have granted : T.meter.granted id a = owed (some f) id := by
      cases hf : f.increment? with
      | none =>
        rw [Meter.granted_of_none (grant.trans hf)]
        unfold owed
        rw [Option.bind_some, hf]
        rfl
      | some r =>
        rw [Meter.granted_of_some (grant.trans hf)]
        unfold owed
        rw [Option.bind_some, hf]
        rfl
    show T.meter.left _ id (v.log ++ [a]) = _
    rw [Meter.left_snoc, free, granted]
    show v.left T id + _ - _ = _
    push_cast
    omega
  refine ⟨?_, h.bounded, h.initialSendWindow, ?_, fun id st live => ?_, fun id new => ?_, h.other, ?_⟩
  · rw [Tap.settings_snoc, heard, h.settings]
    rfl
  · rw [left, ← h.window]
    show _ = v.window.available + (0 : Nat) + _
    push_cast
    omega
  · obtain ⟨stream, holds, low⟩ := h.stream id st live
    refine ⟨stream, ?_, low⟩
    rw [left, ← holds]
    show _ = st.sendWindow.available + (0 : Nat) + _
    push_cast
    omega
  · rw [left, h.unseen id new]
    show _ + ((0 : Nat) : Int) + _ = _
    push_cast
    omega
  · exact h.covered.adds (.one free) fun _ => id

/-- A frame that neither grants nor settles anything is acted on. -/
theorem heed (h : v.Affords T (some f)) (silent : f.increment? = none)
    (settles : ∀ s, f.settle s = s) : v.Affords T none := by
  have nothing : ∀ id, owed (some f) id = owed none id := by
    intro id
    unfold owed
    rw [Option.bind_some, silent]
    rfl
  obtain ⟨settings, bounded, initial, window, stream, unseen, other, covered⟩ := h
  refine ⟨settings.trans (settles _), bounded, initial, ?_, fun id st live => ?_,
    fun id new => ?_, other, covered⟩
  · rw [← nothing]
    exact window
  · rw [← nothing]
    exact stream id st live
  · rw [← nothing]
    exact unseen id new

theorem owed_windowUpdate (id id' : StreamId) (n : Nat) :
    owed (some (.windowUpdate id n)) id' = if id = id' then n else 0 := rfl

/-- Credit for a stream that is seen and not live is nobody's. -/
theorem forfeit {n : Nat} (h : v.Affords T (some (.windowUpdate id n))) (conn : id ≠ .connection)
    (gone : v.table.get? id = none) (seen : id ≤ v.top) : v.Affords T none := by
  have other : ∀ id', id' ≠ id → owed (some (.windowUpdate id n)) id' = owed none id' := by
    intro id' ne
    rw [owed_windowUpdate, if_neg (Ne.symm ne)]
    rfl
  refine ⟨h.settings, h.bounded, h.initialSendWindow, ?_, fun id' st live => ?_,
    fun id' new => ?_, h.other, h.covered⟩
  · rw [← other _ conn.symm]
    exact h.window
  · rw [← other id' fun same => by rw [same, gone] at live; cases live]
    exact h.stream id' st live
  · rw [← other id' fun same => new (same ▸ seen)]
    exact h.unseen id' new

/-- An increment of nothing. -/
theorem naught (h : v.Affords T (some (.windowUpdate id 0))) : v.Affords T none := by
  have nothing : ∀ id', owed (some (.windowUpdate id 0)) id' = owed none id' := by
    intro id'
    rw [owed_windowUpdate, ite_self]
    rfl
  refine ⟨h.settings, h.bounded, h.initialSendWindow, ?_, fun id' st live => ?_,
    fun id' new => ?_, h.other, h.covered⟩
  · rw [← nothing]
    exact h.window
  · rw [← nothing]
    exact h.stream id' st live
  · rw [← nothing]
    exact h.unseen id' new

/-- Credit for the connection goes to its window. -/
theorem fund {n : Nat} (h : v.Affords T (some (.windowUpdate .connection n))) {window : Window}
    (credited : window.available = v.window.available + n) :
    ({ v with window } : Outlet α).Affords T none := by
  refine ⟨h.settings, h.bounded, h.initialSendWindow, ?_, fun id st live => ?_,
    fun id new => ?_, h.other, h.covered⟩
  · have holds := h.window
    rw [owed_windowUpdate, if_pos rfl] at holds
    show window.available + (0 : Nat) = v.left T .connection
    rw [credited]
    push_cast
    omega
  · obtain ⟨stream, holds, low⟩ := h.stream id st live
    refine ⟨stream, ?_, low⟩
    rw [owed_windowUpdate, if_neg (Ne.symm stream.1)] at holds
    exact holds
  · have holds := h.unseen id new
    rw [owed_windowUpdate, if_neg] at holds
    · exact holds
    · rintro rfl
      exact new (Nat.zero_le _)

/-- Credit for a live stream goes to its window. -/
theorem fundStream {n : Nat} (h : v.Affords T (some (.windowUpdate id n))) {st : Stream}
    (live : v.table.get? id = some st) {window : Window}
    (credited : window.available = st.sendWindow.available + n) :
    ({ v with table := v.table.modify id ({ · with sendWindow := window }) } : Outlet α).Affords T
      none := by
  obtain ⟨⟨conn, seen⟩, holds, low⟩ := h.stream id st live
  rw [owed_windowUpdate, if_pos rfl] at holds
  refine ⟨h.settings, h.bounded, h.initialSendWindow, ?_, fun id' st' live' => ?_,
    fun id' new => ?_, h.other, h.covered⟩
  · have holds := h.window
    rw [owed_windowUpdate, if_neg conn] at holds
    exact holds
  · have live' : (v.table.modify id _).get? id' = some st' := live'
    rw [StreamTable.get?_modify] at live'
    split at live'
    · rename_i same
      subst same
      rw [live] at live'
      cases live'
      refine ⟨⟨conn, seen⟩, ?_, ?_⟩
      · show window.available + (0 : Nat) = v.left T _
        rw [credited]
        push_cast
        omega
      · show -maxWindowSize ≤ window.available - v.peer.initialWindowSize
        rw [credited]
        omega
    · rename_i other
      obtain ⟨conn', holds', low'⟩ := h.stream id' st' live'
      rw [owed_windowUpdate, if_neg (Ne.symm other)] at holds'
      exact ⟨conn', holds', low'⟩
  · have holds := h.unseen id' new
    rw [owed_windowUpdate, if_neg] at holds
    · exact holds
    · rintro rfl
      exact new seen

/-- SETTINGS that move every stream's window by as much as the initial size. -/
theorem shift {params : List (UInt16 × UInt32)} (h : v.Affords T (some (.settings false params)))
    {peer : Settings} (settled : peer = (v.peer.apply params).1) {table : StreamTable}
    {encoder : HpackEncoder}
    (initial : table.initialSendWindow = peer.initialWindowSize)
    (windows : ∀ id st', table.get? id = some st' → ∃ st, v.table.get? id = some st ∧
      st'.sendWindow.available = st.sendWindow.available +
        (peer.initialWindowSize - v.peer.initialWindowSize)) :
    ({ v with table, peer, encoder } : Outlet α).Affords T none := by
  have left : ∀ id, ({ v with table, peer, encoder } : Outlet α).left T id = v.left T id +
      (initialCredit peer.initialWindowSize id - initialCredit v.peer.initialWindowSize id) :=
    fun id => Meter.left_shift _ _ id v.log
  have ofStream : ∀ {id : StreamId}, id ≠ .connection →
      ({ v with table, peer, encoder } : Outlet α).left T id =
        v.left T id + (peer.initialWindowSize - v.peer.initialWindowSize) := by
    intro id stream
    rw [left]
    unfold initialCredit
    rw [if_neg stream, if_neg stream]
  refine ⟨h.settings.trans settled.symm, ?_, initial, ?_, fun id st' live => ?_, fun id new => ?_,
    h.other, h.covered⟩
  · rw [settled]
    exact Settings.apply_initialWindowSize params h.bounded
  · rw [left, ← h.window]
    unfold initialCredit
    rw [if_pos rfl, if_pos rfl]
    show v.window.available + ((0 : Nat) : Int) = v.window.available + ((0 : Nat) : Int) + _
    omega
  · obtain ⟨st, hst, moved⟩ := windows id st' live
    obtain ⟨stream, holds, low⟩ := h.stream id st hst
    refine ⟨stream, ?_, ?_⟩
    · rw [ofStream stream.1, ← holds, moved]
      show _ + ((0 : Nat) : Int) = _ + ((0 : Nat) : Int) + _
      omega
    · show -maxWindowSize ≤ _ - (peer.initialWindowSize : Int)
      rw [moved]
      omega
  · have stream : id ≠ .connection := by
      rintro rfl
      exact new (Nat.zero_le _)
    rw [ofStream stream, h.unseen id new]
    show _ + ((0 : Nat) : Int) + _ = (peer.initialWindowSize : Int) + ((0 : Nat) : Int)
    omega

/-- SETTINGS that leave the initial size alone. -/
theorem settle_same {params : List (UInt16 × UInt32)}
    (h : v.Affords T (some (.settings false params))) {peer : Settings}
    (settled : peer = (v.peer.apply params).1)
    (same : (peer.initialWindowSize : Int) - v.peer.initialWindowSize = 0) {encoder : HpackEncoder} :
    ({ v with peer, encoder } : Outlet α).Affords T none := by
  refine h.shift settled ?_ fun id st live => ⟨st, live, ?_⟩
  · rw [h.initialSendWindow]
    omega
  · omega

/-- SETTINGS that change the initial size: no clamp bites. -/
theorem settle {params : List (UInt16 × UInt32)}
    (h : v.Affords T (some (.settings false params))) {peer : Settings}
    (settled : peer = (v.peer.apply params).1) {delta : Int}
    (moved : delta = peer.initialWindowSize - v.peer.initialWindowSize)
    (shifted : (v.table.applyInitialWindowDelta delta).2 = .ok ()) {encoder : HpackEncoder} :
    ({ v with table := (v.table.applyInitialWindowDelta delta).1, peer, encoder } :
      Outlet α).Affords T none := by
  have bounded : (peer.initialWindowSize : Int) ≤ maxWindowSize :=
    settled ▸ Settings.apply_initialWindowSize params h.bounded
  have bounded' := h.bounded
  refine h.shift settled ?_ fun id st' live => ?_
  · show max (-(2 ^ 31)) (min maxWindowSize (v.table.initialSendWindow + delta)) = _
    rw [h.initialSendWindow, moved]
    unfold maxWindowSize at *
    omega
  · obtain ⟨st, hst, applied⟩ := Tally.applyInitialWindowDelta_ok shifted live
    obtain ⟨-, -, low⟩ := h.stream id st hst
    refine ⟨st, hst, ?_⟩
    unfold Window.applyDelta at applied
    split at applied
    · cases applied
    · injection applied with same
      rw [← same, ← moved]
      dsimp only
      unfold maxWindowSize at *
      omega

/-- DATA that both windows hold is sent, and paid for. -/
theorem pay (h : v.Affords T none) {st : Stream} (live : v.table.get? id = some st)
    {octets : Bytes} {endStream : Bool} (heard : T.heard a = none)
    (sent : T.sent a = some (.data id octets endStream)) {own window : Window}
    (spentOwn : own.available = st.sendWindow.available - octets.length)
    (spent : window.available = v.window.available - octets.length)
    (fits : 0 < octets.length → 0 ≤ own.available ∧ 0 ≤ window.available) :
    ({ v with
      log := v.log ++ [a], table := v.table.modify id ({ · with sendWindow := own }), window } :
      Outlet α).Affords T none := by
  obtain ⟨⟨stream, seen⟩, holds, low⟩ := h.stream id st live
  have silent : T.meter.grant a = none := by
    show (T.heard a).bind _ = none
    rw [heard]
    rfl
  have spends : ∀ id', T.meter.spend id' a =
      if id' = .connection ∨ id = id' then octets.length else 0 := by
    intro id'
    show (T.sent a).elim 0 _ = _
    rw [sent]
    rfl
  have left : ∀ id', T.meter.left (initialCredit v.peer.initialWindowSize) id' (v.log ++ [a]) =
      v.left T id' - (if id' = .connection ∨ id = id' then octets.length else 0 : Nat) := by
    intro id'
    rw [Meter.left_snoc, Meter.granted_of_none silent, spends]
    show v.left T id' + ((0 : Nat) : Int) - _ = _
    omega
  have settings : T.settings (v.log ++ [a]) = T.settings v.log := by
    rw [Tap.settings_snoc, heard]
    rfl
  have window_ : v.window.available + ((0 : Nat) : Int) = v.left T .connection := h.window
  refine ⟨settings.trans h.settings, h.bounded, h.initialSendWindow, ?_, fun id' st' live' => ?_,
    fun id' new => ?_, h.other, ?_⟩
  · refine Eq.trans ?_ (left .connection).symm
    rw [if_pos (.inl rfl), ← window_]
    show window.available + ((0 : Nat) : Int) = _
    omega
  · have live' : (v.table.modify id _).get? id' = some st' := live'
    rw [StreamTable.get?_modify] at live'
    split at live'
    · rename_i same
      subst same
      rw [live] at live'
      cases live'
      refine ⟨⟨stream, seen⟩, ?_, ?_⟩
      · refine Eq.trans ?_ (left id').symm
        rw [if_pos (.inr rfl), ← holds]
        show own.available + ((0 : Nat) : Int) = st.sendWindow.available + ((0 : Nat) : Int) - _
        omega
      · have bounded := h.bounded
        show -maxWindowSize ≤ own.available - v.peer.initialWindowSize
        omega
    · rename_i other
      obtain ⟨stream', holds', low'⟩ := h.stream id' st' live'
      refine ⟨stream', ?_, low'⟩
      refine Eq.trans ?_ (left id').symm
      rw [if_neg (not_or.mpr ⟨stream'.1, Ne.symm other⟩)]
      exact holds'.trans (Int.sub_zero _).symm
  · refine (left id').trans ?_
    have other : ¬ (id' = .connection ∨ id = id') := by
      rintro (rfl | rfl)
      · exact new (Nat.zero_le _)
      · exact new seen
    rw [if_neg other]
    exact (Int.sub_zero _).trans (h.unseen id' new)
  · refine h.covered.snoc fun id' positive => ?_
    rw [spends] at positive ⊢
    have opening : T.meter.left (T.opening v.log) id' v.log = v.left T id' := by
      unfold Tap.opening Outlet.left
      rw [h.settings]
      rfl
    rw [opening]
    split at positive
    · rename_i concerned
      rw [if_pos concerned]
      obtain ⟨ownFits, windowFits⟩ := fits positive
      obtain rfl | rfl := concerned
      · rw [← window_]
        omega
      · rw [← holds]
        show _ ≤ st.sendWindow.available + ((0 : Nat) : Int)
        omega
    · omega

end Affords

end Outlet

end H2Proxy
