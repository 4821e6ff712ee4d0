import H2Proxy.Flow
import H2Proxy.Frame

/-
  SETTINGS and the tuning they come from (`core/src/conn.rs`).
-/

namespace H2Proxy

/-- `MAX_CONCURRENT_STREAMS` we advertise by default. -/
def maxConcurrentStreams : Nat := 256

/-- How many requests may wait for an upstream stream. -/
def maxPending : Nat := 2048

/-- The `MAX_HEADER_LIST_SIZE` we advertise, and the bound on a buffered header block. -/
def maxHeaderListSize : Nat := 64 * 1024
def maxHeaderBlockBytes : Nat := maxHeaderListSize

/-- Past this many octets waiting, no more DATA is scheduled. -/
def maxWriteQueue : Nat := 256 * 1024

namespace SettingId

def headerTableSize : UInt16 := 0x1
def enablePush : UInt16 := 0x2
def maxConcurrentStreams : UInt16 := 0x3
def initialWindowSize : UInt16 := 0x4
def maxFrameSize : UInt16 := 0x5
def maxHeaderListSize : UInt16 := 0x6

end SettingId

structure Settings where
  headerTableSize : Nat
  enablePush : Bool
  maxConcurrentStreams : Option Nat
  initialWindowSize : Nat
  maxFrameSize : Nat
  maxHeaderListSize : Option Nat
deriving DecidableEq

namespace Settings

/-- `Settings::default()`: the protocol's initial values. -/
def default : Settings := ⟨4096, true, none, 65535, 16384, none⟩

def server : Settings :=
  { default with
    enablePush := false
    maxConcurrentStreams := some H2Proxy.maxConcurrentStreams
    initialWindowSize := streamInitialWindow.toNat
    maxHeaderListSize := some H2Proxy.maxHeaderListSize }

def client : Settings :=
  { default with
    enablePush := false
    initialWindowSize := streamInitialWindow.toNat
    maxHeaderListSize := some H2Proxy.maxHeaderListSize }

/-- One parameter of a SETTINGS frame. -/
def applyOne (s : Settings) (id : UInt16) (value : Nat) : Except ConnectionError Settings :=
  if id = SettingId.headerTableSize then .ok { s with headerTableSize := value }
  else if id = SettingId.enablePush then
    match value with
    | 0 => .ok { s with enablePush := false }
    | 1 => .ok { s with enablePush := true }
    | other => .error ⟨.protocolError, s!"ENABLE_PUSH must be 0 or 1, got {other}"⟩
  else if id = SettingId.maxConcurrentStreams then .ok { s with maxConcurrentStreams := some value }
  else if id = SettingId.initialWindowSize then
    if (value : Int) > maxWindowSize then
      .error ⟨.flowControlError, s!"INITIAL_WINDOW_SIZE {value} exceeds {maxWindowSize}"⟩
    else .ok { s with initialWindowSize := value }
  else if id = SettingId.maxFrameSize then
    if defaultMaxFrameSize ≤ value && value ≤ maxAllowedFrameSize then
      .ok { s with maxFrameSize := value }
    else .error ⟨.protocolError,
      s!"MAX_FRAME_SIZE {value} outside [{defaultMaxFrameSize}, {maxAllowedFrameSize}]"⟩
  else if id = SettingId.maxHeaderListSize then .ok { s with maxHeaderListSize := some value }
  else .ok s

/-- Fold the parameters in, in order. The parameters before a rejected one stay applied. -/
def apply (s : Settings) : List (UInt16 × UInt32) → Settings × Except ConnectionError Unit
  | [] => (s, .ok ())
  | (id, value) :: params =>
    match s.applyOne id value.toNat with
    | .error e => (s, .error e)
    | .ok s => s.apply params

/-- A limit that was advertised is not taken back. -/
theorem apply_maxConcurrentStreams {s : Settings} {params : List (UInt16 × UInt32)}
    (h : (s.apply params).1.maxConcurrentStreams = none) : s.maxConcurrentStreams = none := by
  induction params generalizing s with
  | nil => exact h
  | cons param params ih =>
    obtain ⟨id, value⟩ := param
    rw [apply] at h
    cases hone : s.applyOne id value.toNat with
    | error e =>
      rw [hone] at h
      exact h
    | ok s' =>
      rw [hone] at h
      have hs' := ih h
      unfold applyOne at hone
      repeat' split at hone
      all_goals cases hone
      all_goals first | exact hs' | cases hs'

/-- The frame that advertises these settings: what differs from the protocol's defaults. -/
def toFrame (s : Settings) : Frame :=
  let put (id : UInt16) (n : Nat) : UInt16 × UInt32 := (id, UInt32.ofNat n)
  .settings false
    ([put SettingId.enablePush s.enablePush.toNat] ++
      (if s.headerTableSize ≠ default.headerTableSize then
        [put SettingId.headerTableSize s.headerTableSize] else []) ++
      (s.maxConcurrentStreams.map (put SettingId.maxConcurrentStreams)).toList ++
      (if s.initialWindowSize ≠ default.initialWindowSize then
        [put SettingId.initialWindowSize s.initialWindowSize] else []) ++
      (if s.maxFrameSize ≠ default.maxFrameSize then
        [put SettingId.maxFrameSize s.maxFrameSize] else []) ++
      (s.maxHeaderListSize.map (put SettingId.maxHeaderListSize)).toList)

/-- The fields fit the `u32`s the source keeps them in. -/
structure InU32 (s : Settings) : Prop where
  headerTableSize_lt : s.headerTableSize < 2 ^ 32
  initialWindowSize_lt : s.initialWindowSize < 2 ^ 32
  maxFrameSize_lt : s.maxFrameSize < 2 ^ 32

/-- The frame sizes a peer may ask for. -/
def FrameSizeOk (s : Settings) : Prop :=
  defaultMaxFrameSize ≤ s.maxFrameSize ∧ s.maxFrameSize ≤ maxAllowedFrameSize

theorem applyOne_frameSizeOk {s s' : Settings} {id : UInt16} {value : Nat}
    (h : s.applyOne id value = .ok s') (hs : s.FrameSizeOk) : s'.FrameSizeOk := by
  unfold applyOne at h
  split at h
  · cases h; exact hs
  split at h
  · split at h <;> cases h <;> exact hs
  split at h
  · cases h; exact hs
  split at h
  · split at h <;> cases h
    exact hs
  split at h
  · split at h
    · rename_i hv
      cases h
      simpa [FrameSizeOk] using hv
    · cases h
  split at h <;> cases h <;> exact hs

theorem apply_frameSizeOk (params : List (UInt16 × UInt32)) {s : Settings} (hs : s.FrameSizeOk) :
    (s.apply params).1.FrameSizeOk := by
  induction params generalizing s with
  | nil => exact hs
  | cons p ps ih =>
    simp only [apply]
    split
    · exact hs
    · rename_i h
      exact ih (applyOne_frameSizeOk h hs)

end Settings

/-- How an idle proxy grows its pool. -/
inductive PoolGrowth
  | queue | eager
deriving DecidableEq

/-- The knobs of both legs. -/
structure Tuning where
  connectionWindow : Int
  streamWindow : Int
  maxConcurrentStreams : Nat
  maxPending : Nat
  growth : PoolGrowth
deriving DecidableEq

namespace Tuning

def default : Tuning :=
  ⟨H2Proxy.connectionWindow, streamInitialWindow, H2Proxy.maxConcurrentStreams,
    H2Proxy.maxPending, .queue⟩

/-- `stream_window as u32`, which wraps. -/
def serverSettings (t : Tuning) : Settings :=
  { Settings.server with
    maxConcurrentStreams := some t.maxConcurrentStreams
    initialWindowSize := (t.streamWindow % 2 ^ 32).toNat }

def clientSettings (t : Tuning) : Settings :=
  { Settings.client with initialWindowSize := (t.streamWindow % 2 ^ 32).toNat }

end Tuning

end H2Proxy
