import H2Proxy.Frame
import H2Proxy.Flow
import H2Proxy.Lib.Meter
import H2Proxy.Settings

/-
  What a receive window may announce.

  `RecvWindow.Open` is kept by an engine about each of its receive windows, beside what the
  peer has left by its own account. An increment that comes out of `release` is then never
  zero, and neither it nor what the peer has after it is past 2^31 - 1.
-/

namespace H2Proxy

/-- A window granted as `granted`, of which `held` octets are neither available nor batched; the
    peer believes it has `left` of it. -/
structure RecvWindow.Open (r : RecvWindow) (granted : Int) (held : Nat) (left : Int) : Prop where
  initial : r.initial = granted
  pos : 1 ≤ granted
  high : granted ≤ maxWindowSize
  solvent : 0 ≤ r.available
  room : r.available + r.unreleased + held ≤ granted
  left : left ≤ r.available

namespace RecvWindow.Open

variable {r r' : RecvWindow} {granted left left' : Int} {held held' : Nat}

theorem new (pos : 1 ≤ granted) (high : granted ≤ maxWindowSize) (le : left ≤ granted) :
    (RecvWindow.new granted).Open granted 0 left :=
  ⟨rfl, pos, high, Int.le_trans (by decide) pos, by simp [RecvWindow.new, available], le⟩

theorem mono (h : r.Open granted held left) (lessHeld : held' ≤ held) (lessLeft : left' ≤ left) :
    r.Open granted held' left' := by
  have room := h.room
  exact ⟨h.initial, h.pos, h.high, h.solvent, by omega, Int.le_trans lessLeft h.left⟩

/-- Octets that arrive are held, and the peer has spent them. -/
theorem record (h : r.Open granted held left) {len : Nat} (hr : r.record len = .ok r') :
    r'.Open granted (held + len) (left - len) := by
  obtain ⟨le, available, unreleased, initial⟩ := record_ok hr
  have room := h.room
  have kept := h.left
  refine ⟨initial.trans h.initial, h.pos, h.high, by omega, ?_, by omega⟩
  rw [available, unreleased]
  push_cast
  omega

/-- Octets that were held are released; an increment that is announced for them is legal. -/
theorem release {n : Nat} (h : r.Open granted (held + n) left) :
    (r.release n).1.Open granted held (left + ((r.release n).2.getD 0 : Nat)) ∧
      ∀ increment, (r.release n).2 = some increment →
        1 ≤ increment ∧ (increment : Int) ≤ maxWindowSize ∧ left + increment ≤ maxWindowSize := by
  obtain ⟨initial, pos, high, solvent, room, kept⟩ := h
  push_cast at room
  have sum := release_sum r n (by omega) (by omega)
  have grown := release_increment r n (by omega) (by omega)
  refine ⟨⟨(release_initial r n).trans initial, pos, high, by omega, by omega, by omega⟩, ?_⟩
  intro increment announced
  rw [announced, Option.getD_some] at grown
  have enough : ¬ (increment : Int) * 2 < granted := by
    unfold RecvWindow.release at announced
    dsimp only at announced
    split at announced
    · cases announced
    · rename_i most
      cases announced
      rw [← initial]
      exact most
  refine ⟨by omega, by omega, by omega⟩

end RecvWindow.Open

/-- What a peer may send before any WINDOW_UPDATE: 65535 octets in all, and on each stream what
    our SETTINGS allow. -/
def initialCredit (streamWindow : Int) (id : StreamId) : Int :=
  if id = .connection then defaultInitialWindowSize else streamWindow

/-- The increment a frame grants, and to which window. -/
def Frame.increment? : Frame → Option (StreamId × Nat)
  | .windowUpdate id increment => some (id, increment)
  | _ => none

/-- The octets of body that a frame spends of a window: of its stream's and of the connection's. -/
def WireFrame.spends (w : WireFrame) (id : StreamId) : Nat :=
  w.octets fun id' => id = .connection || id' = id

theorem WireFrame.spends_of {w : WireFrame} {id : StreamId} {data : Bytes} {endStream : Bool}
    (frame : w.data? = some (id, data, endStream)) (id' : StreamId) :
    w.spends id' = if id' = .connection ∨ id = id' then data.length else 0 := by
  unfold WireFrame.spends WireFrame.octets
  rw [frame]
  simp only [Bool.or_eq_true, decide_eq_true_eq]

/-! ## The handshake -/

section Bootstrap

variable {α : Type} {m : Meter StreamId α} {settings bootstrap : α} {window streamWindow : Int}

theorem bootstrap_eq (low : defaultInitialWindowSize ≤ window) (high : window ≤ maxWindowSize) :
    (connectionWindowBootstrap window : Int) = window - defaultInitialWindowSize := by
  unfold connectionWindowBootstrap
  unfold maxWindowSize at high
  unfold defaultInitialWindowSize at *
  omega

/-- The SETTINGS and the WINDOW_UPDATE of a handshake leave each window as it was tuned. -/
theorem left_handshake (silent : m.grant settings = none) (free : ∀ id, m.spend id settings = 0)
    (free' : ∀ id, m.spend id bootstrap = 0)
    (grant : m.grant bootstrap = some (.connection, connectionWindowBootstrap window))
    (low : defaultInitialWindowSize ≤ window) (high : window ≤ maxWindowSize) (id : StreamId) :
    m.left (initialCredit streamWindow) id [settings, bootstrap] =
      if id = .connection then window else streamWindow := by
  have boot := bootstrap_eq low high
  show m.left _ id ([settings] ++ [bootstrap]) = _
  rw [Meter.left_snoc, Meter.granted_of_some grant, free']
  show m.left _ id ([] ++ [settings]) + _ - _ = _
  rw [Meter.left_snoc, Meter.granted_of_none silent, free]
  show initialCredit streamWindow id + _ - _ + _ - _ = _
  unfold initialCredit
  by_cases conn : id = .connection
  · rw [if_pos conn, if_pos conn, if_pos conn.symm, boot]
    push_cast
    omega
  · rw [if_neg conn, if_neg conn, if_neg (Ne.symm conn)]
    push_cast
    omega

/-- It is lawful unless the window is tuned to the protocol's own: then it grants nothing. -/
theorem lawful_handshake (silent : m.grant settings = none) (free : ∀ id, m.spend id settings = 0)
    (free' : ∀ id, m.spend id bootstrap = 0)
    (grant : m.grant bootstrap = some (.connection, connectionWindowBootstrap window))
    (low : defaultInitialWindowSize < window) (high : window ≤ maxWindowSize) :
    m.Lawful (initialCredit streamWindow) maxWindowSize [settings, bootstrap] := by
  have boot := bootstrap_eq (Int.le_of_lt low) high
  have left : m.left (initialCredit streamWindow) .connection [settings, bootstrap] = _ :=
    left_handshake silent free free' grant (Int.le_of_lt low) high .connection
  have first : m.Lawful (initialCredit streamWindow) maxWindowSize ([] ++ [settings]) :=
    Meter.Lawful.nil.quiet fun a ha => List.mem_singleton.mp ha ▸ silent
  refine first.snoc (a := bootstrap) fun k n granted => ?_
  cases grant.symm.trans granted
  refine ⟨?_, ?_, Int.le_trans (Int.le_of_eq left) ?_⟩
  · omega
  · rw [boot]
    unfold defaultInitialWindowSize
    omega
  · rw [if_pos rfl]
    exact high

theorem not_lawful_handshake (added : List α)
    (grant : m.grant bootstrap = some (.connection, connectionWindowBootstrap window))
    (same : window = defaultInitialWindowSize) :
    ¬ m.Lawful (initialCredit streamWindow) maxWindowSize ([settings, bootstrap] ++ added) := by
  intro lawful
  obtain ⟨pos, -⟩ := lawful [settings] bootstrap added _ _ rfl grant
  rw [same] at pos
  exact absurd pos (by decide)

end Bootstrap

namespace Tuning

/-- `tuning` of the daemon: what its environment says, clamped; a default where it is silent or
    makes no sense. -/
def ofEnv (connectionWindow streamWindow : Option Int32) (maxConcurrentStreams : Option UInt32)
    (maxPending : Option Int64) (growth : Option PoolGrowth) : Tuning :=
  let d := Tuning.default
  { connectionWindow :=
      min (max ((connectionWindow.map Int32.toInt).getD d.connectionWindow)
        defaultInitialWindowSize) maxWindowSize
    streamWindow :=
      min (max ((streamWindow.map Int32.toInt).getD d.streamWindow) 1) maxWindowSize
    maxConcurrentStreams :=
      max ((maxConcurrentStreams.map UInt32.toNat).getD d.maxConcurrentStreams) 1
    maxPending := (max ((maxPending.map Int64.toInt).getD d.maxPending) 0).toNat
    growth := growth.getD d.growth }

/-- What the clamps promise of the windows. -/
structure Clamped (t : Tuning) : Prop where
  connectionWindow_ge : defaultInitialWindowSize ≤ t.connectionWindow
  connectionWindow_le : t.connectionWindow ≤ maxWindowSize
  streamWindow_pos : 1 ≤ t.streamWindow
  streamWindow_le : t.streamWindow ≤ maxWindowSize

theorem ofEnv_clamped (connectionWindow streamWindow : Option Int32)
    (maxConcurrentStreams : Option UInt32) (maxPending : Option Int64)
    (growth : Option PoolGrowth) :
    (ofEnv connectionWindow streamWindow maxConcurrentStreams maxPending growth).Clamped := by
  refine ⟨Int.le_min.mpr ⟨Int.le_max_right .., by decide⟩, Int.min_le_right .., ?_,
    Int.min_le_right ..⟩
  exact Int.le_min.mpr ⟨Int.le_max_right .., by decide⟩

variable {t : Tuning}

/-- A tuning the daemon runs under. -/
def Accepted (t : Tuning) : Prop :=
  ∃ connectionWindow streamWindow maxConcurrentStreams maxPending growth,
    t = ofEnv connectionWindow streamWindow maxConcurrentStreams maxPending growth

theorem Accepted.clamped (h : t.Accepted) : t.Clamped := by
  obtain ⟨_, _, _, _, _, rfl⟩ := h
  exact ofEnv_clamped ..

/-- A clamped stream window comes through SETTINGS as it is. -/
theorem Clamped.asI32_streamWindow (h : t.Clamped) :
    (t.streamWindow % 2 ^ 32).toNat < 2 ^ 32 ∧
      asI32 (t.streamWindow % 2 ^ 32).toNat = t.streamWindow := by
  have pos := h.streamWindow_pos
  have high := h.streamWindow_le
  unfold maxWindowSize at high
  have same : ((t.streamWindow % 2 ^ 32).toNat : Int) = t.streamWindow := by omega
  refine ⟨by omega, ?_⟩
  unfold asI32
  rw [if_pos (by omega), same]

end Tuning

end H2Proxy
