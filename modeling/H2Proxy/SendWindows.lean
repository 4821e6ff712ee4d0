import H2Proxy.Settings
import H2Proxy.Stream

/-
  The send windows of a stream table, counted.

  `Tally` runs the operations on a table's send windows beside an account of each stream:
  the credit it was given and the octets sent on it. `Exact` says that every window is the
  initial size in force and its account, so no clamp of the source ever bites.
-/

namespace H2Proxy

/-- An operation on the send windows of a table. -/
inductive WindowOp
  | openPeer (id : StreamId)
  | openLocal (id : StreamId)
  | retire (id : StreamId)
  | consume (id : StreamId) (len : Nat)
  | increase (id : StreamId) (increment : Nat)
  /-- The peer's `INITIAL_WINDOW_SIZE`, from its SETTINGS. -/
  | initialWindowSize (value : Nat)
deriving DecidableEq

/-- A table, the peer's `INITIAL_WINDOW_SIZE`, and the account of each stream. -/
structure Tally where
  table : StreamTable
  initial : Nat
  credited : StreamId → Nat
  sent : StreamId → Nat

namespace Tally

/-- A fresh table under this `INITIAL_WINDOW_SIZE`. -/
def start (maxConcurrent initial : Nat) (recvWindow : Int) : Tally :=
  ⟨.new maxConcurrent initial recvWindow, initial, fun _ => 0, fun _ => 0⟩

/-- What an operation does to one window, where it is on that window. -/
def onWindow (s : Tally) (id : StreamId) (w : Window) : WindowOp → Option (Except ErrorCode Window)
  | .consume id' len => if id' = id then some (w.consume len) else none
  | .increase id' increment => if id' = id then some (w.increase increment) else none
  | .initialWindowSize value => some (w.applyDelta ((value : Int) - s.initial))
  | _ => none

/-- Open a stream, with an empty account. -/
def opened (s : Tally) (id : StreamId) (r : StreamTable × Except OpenRejection Unit) :
    Tally × Bool :=
  match r.2 with
  | .ok () => (⟨r.1, s.initial, Function.update s.credited id 0, Function.update s.sent id 0⟩, true)
  | .error _ => ({ s with table := r.1 }, false)

/-- Run a window operation on one stream and enter it in an account. -/
def onStream (s : Tally) (id : StreamId) (f : Window → Except ErrorCode Window) (entered : Tally) :
    Tally × Bool :=
  match s.table.get? id with
  | none => (s, true)
  | some stream =>
    match f stream.sendWindow with
    | .error _ => (s, false)
    | .ok sendWindow =>
      ({ entered with table := s.table.modify id ({ · with sendWindow }) }, true)

/-- One operation, and whether it went well. A size that SETTINGS may not carry is refused. -/
def step (op : WindowOp) (s : Tally) : Tally × Bool :=
  match op with
  | .openPeer id => s.opened id (s.table.openPeer id)
  | .openLocal id => s.opened id (s.table.openLocal id)
  | .retire id => ({ s with table := s.table.retire id }, true)
  | .consume id len =>
    s.onStream id (·.consume len)
      { s with sent := Function.update s.sent id (s.sent id + len) }
  | .increase id increment =>
    s.onStream id (·.increase increment)
      { s with credited := Function.update s.credited id (s.credited id + increment) }
  | .initialWindowSize value =>
    if (value : Int) > maxWindowSize then (s, false)
    else
      let (table, result) := s.table.applyInitialWindowDelta (value - s.initial)
      ({ s with table, initial := value }, match result with
        | .ok () => true
        | .error _ => false)

/-- The state after operations that all went well. -/
def run (s : Tally) : List WindowOp → Option Tally
  | [] => some s
  | op :: ops => if (step op s).2 then run (step op s).1 ops else none

/-- The credit a stream was given beyond what was sent on it. -/
def net (s : Tally) (id : StreamId) : Int := (s.credited id : Int) - s.sent id

/-- Every window is the initial size and the account of its stream, within bounds. The net
    credit bounds how far a smaller initial size can push it. -/
structure Exact (s : Tally) : Prop where
  initial : (s.initial : Int) ≤ maxWindowSize
  table : s.table.initialSendWindow = s.initial
  window : ∀ id st, s.table.get? id = some st →
    st.sendWindow.available = s.initial + s.net id ∧ -maxWindowSize ≤ s.net id ∧
      st.sendWindow.available ≤ maxWindowSize

theorem start_exact {maxConcurrent initial : Nat} {recvWindow : Int}
    (h : (initial : Int) ≤ maxWindowSize) : (start maxConcurrent initial recvWindow).Exact where
  initial := h
  table := rfl
  window := nofun

variable {s : Tally}

/-- A stream that is opened starts with the initial size and an empty account. -/
theorem Exact.insertNew (h : s.Exact) (id : StreamId) {table : StreamTable}
    (live : table.live = s.table.live)
    (initial : table.initialSendWindow = s.table.initialSendWindow) :
    Exact ⟨table.insertNew id, s.initial, Function.update s.credited id 0,
      Function.update s.sent id 0⟩ where
  initial := h.initial
  table := initial.trans h.table
  window := by
    intro id' st hst
    change (table.insertNew id).get? id' = some st at hst
    rw [StreamTable.get?_insertNew] at hst
    unfold net
    by_cases here : id' = id
    · subst here
      rw [if_pos rfl] at hst
      cases hst
      have := h.initial
      dsimp only [Stream.new]
      rw [Function.update_self, Function.update_self, initial, h.table]
      unfold maxWindowSize at this ⊢
      omega
    · rw [if_neg here] at hst
      dsimp only
      rw [Function.update_of_ne here, Function.update_of_ne here]
      refine h.window id' st ?_
      unfold StreamTable.get? at hst ⊢
      rw [live] at hst
      exact hst

theorem Exact.retire (h : s.Exact) (id : StreamId) :
    Exact { s with table := s.table.retire id } where
  initial := h.initial
  table := by
    refine Eq.trans ?_ h.table
    unfold StreamTable.retire
    split
    · rfl
    · rfl
  window := by
    intro id' st hst
    change (s.table.retire id).get? id' = some st at hst
    rw [StreamTable.get?_retire] at hst
    split at hst
    · cases hst
    · exact h.window id' st hst

theorem Exact.opened (h : s.Exact) (id : StreamId) {r : StreamTable × Except OpenRejection Unit}
    (entry : r.2 = .ok () → ∃ table : StreamTable, r.1 = table.insertNew id ∧
      table.live = s.table.live ∧ table.initialSendWindow = s.table.initialSendWindow)
    (ok : (s.opened id r).2 = true) : (s.opened id r).1.Exact := by
  unfold Tally.opened at ok ⊢
  cases hr : r.2 with
  | ok u =>
    obtain ⟨table, htable, hlive, hinitial⟩ := entry hr
    dsimp only
    rw [htable]
    exact h.insertNew id hlive hinitial
  | error e =>
    rw [hr] at ok
    cases ok

/-- An account and a window that move together stay exact. -/
theorem Exact.onStream (h : s.Exact) (id : StreamId) {f : Window → Except ErrorCode Window}
    {entered : Tally} (initial : entered.initial = s.initial)
    (other : ∀ id', id' ≠ id → entered.net id' = s.net id')
    (moves : ∀ st w, s.table.get? id = some st → f st.sendWindow = .ok w →
      w.available = st.sendWindow.available + (entered.net id - s.net id) ∧
        -maxWindowSize ≤ entered.net id ∧ w.available ≤ maxWindowSize)
    (ok : (s.onStream id f entered).2 = true) : (s.onStream id f entered).1.Exact := by
  unfold Tally.onStream at ok ⊢
  cases hst : s.table.get? id with
  | none => exact h
  | some st =>
    rw [hst] at ok
    dsimp only at ok ⊢
    cases hw : f st.sendWindow with
    | error e =>
      rw [hw] at ok
      cases ok
    | ok w =>
      obtain ⟨hmove, hnet, hmax⟩ := moves st w hst hw
      refine ⟨initial ▸ h.initial, ?_, fun id' st' hst' => ?_⟩
      · show s.table.initialSendWindow = entered.initial
        rw [initial, h.table]
      · change (s.table.modify id _).get? id' = some st' at hst'
        show _ = (entered.initial : Int) + entered.net id' ∧ _ ≤ entered.net id' ∧ _
        rw [StreamTable.get?_modify] at hst'
        by_cases here : id' = id
        · subst here
          rw [if_pos rfl, hst] at hst'
          cases hst'
          obtain ⟨hwas, -, -⟩ := h.window id' st hst
          refine ⟨?_, hnet, hmax⟩
          show w.available = _
          rw [hmove, hwas, initial]
          omega
        · rw [if_neg here] at hst'
          rw [initial, other id' here]
          exact h.window id' st' hst'

/-- A change of the initial size that goes well has been made to every window. -/
theorem applyInitialWindowDelta_ok {t : StreamTable} {delta : Int}
    (ok : (t.applyInitialWindowDelta delta).2 = .ok ()) {id : StreamId} {st : Stream}
    (hst : (t.applyInitialWindowDelta delta).1.get? id = some st) :
    ∃ old, t.get? id = some old ∧ old.sendWindow.applyDelta delta = .ok st.sendWindow := by
  have whole : (t.live.updateAll fun s =>
      (s.sendWindow.applyDelta delta).map fun w => { s with sendWindow := w }).2 = none := by
    unfold StreamTable.applyInitialWindowDelta at ok
    dsimp only at ok
    split at ok
    · cases ok
    · assumption
  have known : (t.get? id).isSome := by
    rw [← Option.isSome_iff_exists.mpr ⟨st, hst⟩]
    exact (AList.lookup_updateAll_isSome _ _ _).symm
  obtain ⟨old, hold⟩ := Option.isSome_iff_exists.mp known
  obtain ⟨new, hnew, hlookup⟩ := AList.lookup_updateAll_ok whole hold
  have same : new = st := Option.some.inj (hlookup.symm.trans hst)
  subst same
  refine ⟨old, hold, ?_⟩
  cases hw : old.sendWindow.applyDelta delta with
  | error e =>
    rw [hw] at hnew
    cases hnew
  | ok w =>
    rw [hw] at hnew
    cases hnew
    rfl

/-- A change of the initial size moves every window by as much; no clamp bites. -/
theorem Exact.initialWindowSize (h : s.Exact) {value : Nat} (hv : (value : Int) ≤ maxWindowSize)
    (ok : (s.table.applyInitialWindowDelta (value - s.initial)).2 = .ok ()) :
    Exact { s with
      table := (s.table.applyInitialWindowDelta (value - s.initial)).1, initial := value } where
  initial := hv
  table := by
    show max (-(2 ^ 31)) (min maxWindowSize (s.table.initialSendWindow + (value - s.initial))) =
      (value : Int)
    rw [h.table]
    have := h.initial
    unfold maxWindowSize at *
    omega
  window := by
    intro id st hst
    obtain ⟨old, hold, hupdate⟩ : ∃ old, s.table.get? id = some old ∧
        old.sendWindow.applyDelta (value - s.initial) = .ok st.sendWindow :=
      applyInitialWindowDelta_ok ok hst
    obtain ⟨hwas, hnet, -⟩ := h.window id old hold
    unfold Window.applyDelta at hupdate
    split at hupdate
    · cases hupdate
    · rename_i within
      injection hupdate with hnew
      have hinitial := h.initial
      show _ = (value : Int) + s.net id ∧ _ ≤ s.net id ∧ _
      rw [← hnew]
      dsimp only
      unfold maxWindowSize at *
      omega

theorem net_sent (s : Tally) (id : StreamId) (len : Nat) (id' : StreamId) :
    ({ s with sent := Function.update s.sent id (s.sent id + len) } : Tally).net id' =
      if id' = id then s.net id - len else s.net id' := by
  unfold net
  dsimp only
  by_cases here : id' = id
  · subst here
    rw [if_pos rfl, Function.update_self]
    omega
  · rw [if_neg here, Function.update_of_ne here]

theorem net_credited (s : Tally) (id : StreamId) (increment : Nat) (id' : StreamId) :
    ({ s with credited := Function.update s.credited id (s.credited id + increment) } : Tally).net
      id' = if id' = id then s.net id + increment else s.net id' := by
  unfold net
  dsimp only
  by_cases here : id' = id
  · subst here
    rw [if_pos rfl, Function.update_self]
    omega
  · rw [if_neg here, Function.update_of_ne here]

/-- What is sent was available, so the account stays above the lowest a window may go. -/
theorem Exact.consume (h : s.Exact) {id : StreamId} {len : Nat}
    (ok : (step (.consume id len) s).2 = true) : (step (.consume id len) s).1.Exact := by
  refine h.onStream id rfl (fun id' other => ?_) (fun st w hst hw => ?_) ok
  · rw [net_sent, if_neg other]
  · obtain ⟨hle, hmove⟩ := Window.consume_ok hw
    obtain ⟨hwas, hnet, hmax⟩ := h.window id st hst
    have := h.initial
    rw [net_sent, if_pos rfl, hmove]
    omega

theorem Exact.increase (h : s.Exact) {id : StreamId} {increment : Nat}
    (ok : (step (.increase id increment) s).2 = true) :
    (step (.increase id increment) s).1.Exact := by
  refine h.onStream id rfl (fun id' other => ?_) (fun st w hst hw => ?_) ok
  · rw [net_credited, if_neg other]
  · obtain ⟨hmove, hmax⟩ := Window.increase_ok hw
    obtain ⟨hwas, hnet, -⟩ := h.window id st hst
    rw [net_credited, if_pos rfl]
    omega

/-- An operation that goes well keeps the windows exact. -/
theorem Exact.step (h : s.Exact) {op : WindowOp} (ok : (step op s).2 = true) :
    (Tally.step op s).1.Exact := by
  cases op with
  | openPeer id =>
    refine h.opened id (fun opened => ?_) ok
    obtain ⟨-, -, htable⟩ := StreamTable.openPeer_ok opened
    exact ⟨_, htable, rfl, rfl⟩
  | openLocal id =>
    refine h.opened id (fun opened => ?_) ok
    obtain ⟨-, -, -, htable⟩ := StreamTable.openLocal_ok opened
    exact ⟨_, htable, rfl, rfl⟩
  | retire id => exact h.retire id
  | consume id len => exact h.consume ok
  | increase id increment => exact h.increase ok
  | initialWindowSize value =>
    unfold Tally.step at ok ⊢
    by_cases hv : (value : Int) > maxWindowSize
    · simp only [if_pos hv] at ok
      cases ok
    · simp only [if_neg hv] at ok ⊢
      refine h.initialWindowSize (Int.not_lt.mp hv) ?_
      cases hr : (s.table.applyInitialWindowDelta (value - s.initial)).2 with
      | ok u => rfl
      | error e =>
        rw [hr] at ok
        cases ok

theorem Exact.run (h : s.Exact) {ops : List WindowOp} {t : Tally} (ran : s.run ops = some t) :
    t.Exact := by
  induction ops generalizing s with
  | nil =>
    cases ran
    exact h
  | cons op ops ih =>
    rw [Tally.run] at ran
    split at ran
    · rename_i ok
      exact ih (h.step ok) ran
    · cases ran

/-- A window keeps its value where the operation on it fails. -/
theorem step_failed (s : Tally) {op : WindowOp} {id : StreamId} {st : Stream} {e : ErrorCode}
    (hst : s.table.get? id = some st) (hop : s.onWindow id st.sendWindow op = some (.error e)) :
    (step op s).1.table.get? id = some st := by
  have unchanged : ∀ (f : Window → Except ErrorCode Window) (entered : Tally),
      f st.sendWindow = .error e → (s.onStream id f entered).1.table.get? id = some st := by
    intro f entered hf
    unfold Tally.onStream
    simp only [hst, hf]
  cases op with
  | openPeer id' => cases hop
  | openLocal id' => cases hop
  | retire id' => cases hop
  | consume id' len =>
    simp only [onWindow] at hop
    split at hop
    · rename_i here
      subst here
      exact unchanged _ _ (Option.some.inj hop)
    · cases hop
  | increase id' increment =>
    simp only [onWindow] at hop
    split at hop
    · rename_i here
      subst here
      exact unchanged _ _ (Option.some.inj hop)
    · cases hop
  | initialWindowSize value =>
    have hfail : st.sendWindow.applyDelta (value - s.initial) = .error e := Option.some.inj hop
    unfold Tally.step
    dsimp only
    split
    · exact hst
    · refine AList.lookup_updateAll_error (e := e) hst ?_
      rw [hfail]
      rfl

/-- While nothing fails, every send window is the initial size in force plus the credit its
    stream was given less the octets sent on it, and lies within the legal range; the next
    change of the initial size moves the table's own value and every window without wrapping,
    saturating or clamping. A window on which an operation fails keeps its value. -/
theorem windows_exact (maxConcurrent : Nat) {initial : Nat} (recvWindow : Int)
    (legal : (initial : Int) ≤ maxWindowSize) {ops : List WindowOp} {s : Tally}
    (ran : (start maxConcurrent initial recvWindow).run ops = some s) :
    (∀ id st, s.table.get? id = some st →
      st.sendWindow.available = s.initial + s.credited id - s.sent id ∧
        -maxWindowSize ≤ st.sendWindow.available ∧ st.sendWindow.available ≤ maxWindowSize) ∧
    s.table.initialSendWindow = s.initial ∧
    (∀ value : Nat, (value : Int) ≤ maxWindowSize → ∀ delta : Int, delta = value - s.initial →
      -(2 ^ 31) ≤ delta ∧ delta < 2 ^ 31 ∧ s.table.initialSendWindow + delta = value ∧
        ∀ id st, s.table.get? id = some st → -(2 ^ 31) ≤ st.sendWindow.available + delta) ∧
    ∀ op id st e, s.table.get? id = some st → s.onWindow id st.sendWindow op = some (.error e) →
      (step op s).1.table.get? id = some st := by
  have started : (start maxConcurrent initial recvWindow).Exact := start_exact legal
  have h := started.run ran
  have hinitial := h.initial
  unfold maxWindowSize at hinitial
  refine ⟨fun id st hst => ?_, h.table, fun value hv delta hdelta => ?_,
    fun op id st e => step_failed s⟩
  · obtain ⟨hwindow, hnet, hmax⟩ := h.window id st hst
    unfold net at hwindow hnet
    unfold maxWindowSize at *
    omega
  · have htable := h.table
    unfold maxWindowSize at hv
    refine ⟨by omega, by omega, by omega, fun id st hst => ?_⟩
    obtain ⟨hwindow, hnet, -⟩ := h.window id st hst
    unfold maxWindowSize at hnet
    omega

/-- Two streams, a smaller size that leaves the first window negative, and credit. -/
def shrunk : List WindowOp :=
  [.openPeer (.new 1), .consume (.new 1) 60000, .initialWindowSize 1000, .openPeer (.new 3),
    .increase (.new 1) 70000, .consume (.new 3) 1000]

theorem windows_exact_shrunk :
    (((start 8 65535 65535).run shrunk).get (by decide)).table.initialSendWindow = (1000 : Nat) :=
  (windows_exact 8 65535 (by decide) (Option.some_get _).symm).2.1

end Tally

end H2Proxy
