import H2Proxy.Basic
import Mathlib.Data.Int.Init

/-
  Flow-control windows (`core/src/flow.rs`). `Window` is the send side, `RecvWindow` the
  receive side with arrival (`record`) and consumption (`release`) kept apart.

  An `i32` window is an `Int`: every operation of the source compares in `i64` before it
  stores, so no store wraps.
-/

namespace H2Proxy

def defaultInitialWindowSize : Int := 65535
def maxWindowSize : Int := 2 ^ 31 - 1

/-- The connection-level receive window. -/
def connectionWindow : Int := 1024 * 1024

/-- The stream-level receive window, advertised as `INITIAL_WINDOW_SIZE`. -/
def streamInitialWindow : Int := 256 * 1024

/-- The stream-0 increment that lifts the connection window from the protocol default to
    `window`; the cast to `u32` wraps. -/
def connectionWindowBootstrap (window : Int) : Nat :=
  ((window - defaultInitialWindowSize) % 2 ^ 32).toNat

/-- The largest run of octets one stream may send before the scheduler rotates. -/
def sendBudget : Nat := 16 * 1024

/-! ## The send window -/

/-- A single flow-control window. -/
structure Window where
  available : Int
deriving DecidableEq

namespace Window

/-- Octets available to send, floored at zero. -/
def sendable (w : Window) : Nat := w.available.toNat

/-- Deduct `len` octets; `FLOW_CONTROL_ERROR` if `len` exceeds the window. -/
def consume (w : Window) (len : Nat) : Except ErrorCode Window :=
  if (len : Int) > w.available then .error .flowControlError
  else .ok ⟨w.available - len⟩

/-- Credit the window, rejecting an increment that would push it past the maximum. -/
def increase (w : Window) (increment : Nat) : Except ErrorCode Window :=
  if w.available + increment > maxWindowSize then .error .flowControlError
  else .ok ⟨w.available + increment⟩

/-- The retroactive `INITIAL_WINDOW_SIZE` change. -/
def applyDelta (w : Window) (delta : Int) : Except ErrorCode Window :=
  if w.available + delta > maxWindowSize then .error .flowControlError
  else .ok ⟨max (w.available + delta) (-(2 ^ 31))⟩

theorem consume_ok {w w' : Window} {len : Nat} (h : w.consume len = .ok w') :
    (len : Int) ≤ w.available ∧ w'.available = w.available - len := by
  unfold consume at h
  split at h
  · cases h
  · rename_i hle
    cases h
    exact ⟨by omega, rfl⟩

theorem consume_of_le {w : Window} {len : Nat} (h : (len : Int) ≤ w.available) :
    w.consume len = .ok ⟨w.available - len⟩ := by
  unfold consume
  rw [if_neg (by omega)]

theorem increase_ok {w w' : Window} {n : Nat} (h : w.increase n = .ok w') :
    w'.available = w.available + n ∧ w'.available ≤ maxWindowSize := by
  unfold increase at h
  split at h
  · cases h
  · rename_i hle
    cases h
    exact ⟨rfl, by simpa using hle⟩

theorem increase_error {w : Window} {n : Nat} {e : ErrorCode} (h : w.increase n = .error e) :
    e = .flowControlError := by
  unfold increase at h
  split at h <;> cases h
  rfl

end Window

/-! ## The receive window -/

/-- The receive half of a window: credit we issued, spent by the peer. -/
structure RecvWindow where
  window : Window
  /-- Octets consumed but not yet announced back as a WINDOW_UPDATE. -/
  unreleased : Nat
  /-- The window size we replenish back up to. -/
  initial : Int
deriving DecidableEq

namespace RecvWindow

def new (initial : Int) : RecvWindow := ⟨⟨initial⟩, 0, initial⟩

def available (r : RecvWindow) : Int := r.window.available

/-- Account for `len` octets of DATA arriving. -/
def record (r : RecvWindow) (len : Nat) : Except ErrorCode RecvWindow :=
  (r.window.consume len).map fun w => { r with window := w }

/-- Note that `len` octets have been consumed; the increment to announce once half the
    window has accumulated. A failed `increase` leaves the window as it was: the source
    binds its result and only a debug assertion looks at it. -/
def release (r : RecvWindow) (len : Nat) : RecvWindow × Option Nat :=
  let unreleased := satAdd32 r.unreleased len
  if (unreleased : Int) * 2 < r.initial then
    ({ r with unreleased }, none)
  else
    let window := match r.window.increase unreleased with
      | .ok w => w
      | .error _ => r.window
    ({ r with window, unreleased := 0 }, some unreleased)

theorem record_ok {r r' : RecvWindow} {len : Nat} (h : r.record len = .ok r') :
    (len : Int) ≤ r.available ∧ r'.available = r.available - len ∧
      r'.unreleased = r.unreleased ∧ r'.initial = r.initial := by
  unfold record at h
  cases hc : r.window.consume len with
  | error e => rw [hc] at h; cases h
  | ok w =>
    rw [hc] at h
    cases h
    obtain ⟨h1, h2⟩ := Window.consume_ok hc
    exact ⟨h1, h2, rfl, rfl⟩

theorem record_error {r : RecvWindow} {len : Nat} {e : ErrorCode}
    (h : r.record len = .error e) : r.available < len ∧ e = .flowControlError := by
  unfold record Window.consume at h
  split at h
  · cases h; exact ⟨by assumption, rfl⟩
  · cases h

@[simp] theorem release_initial (r : RecvWindow) (n : Nat) :
    (r.release n).1.initial = r.initial := by
  unfold release; dsimp only; split <;> rfl

/-- Where nothing saturates or overflows, `release` moves `n` octets of credit: what is
    available and what is batched grow by `n` together. -/
theorem release_sum (r : RecvWindow) (n : Nat)
    (h : r.available + r.unreleased + n ≤ maxWindowSize) (h0 : -(2 ^ 31) ≤ r.available) :
    (r.release n).1.available + (r.release n).1.unreleased = r.available + r.unreleased + n := by
  have hs : satAdd32 r.unreleased n = r.unreleased + n := by
    apply satAdd32_eq
    unfold maxWindowSize at h
    unfold u32Max
    omega
  unfold release
  rw [hs]
  dsimp only
  split
  · simp only [available]; push_cast; omega
  · have : r.window.increase (r.unreleased + n) = .ok ⟨r.window.available + (r.unreleased + n : Nat)⟩ := by
      unfold Window.increase
      rw [if_neg]
      unfold available at h
      push_cast; omega
    rw [this]
    simp only [available]; push_cast; omega

/-- What is batched stays below half the window. -/
theorem release_batch (r : RecvWindow) (n : Nat) :
    ((r.release n).1.unreleased : Int) * 2 < r.initial ∨ (r.release n).1.unreleased = 0 := by
  unfold release
  dsimp only
  split
  · rename_i h
    exact Or.inl h
  · exact Or.inr rfl

/-- `release` announces exactly what it adds to the window. -/
theorem release_increment (r : RecvWindow) (n : Nat)
    (h : r.available + r.unreleased + n ≤ maxWindowSize) (h0 : -(2 ^ 31) ≤ r.available) :
    (r.release n).1.available = r.available + ((r.release n).2.getD 0 : Nat) := by
  have hs : satAdd32 r.unreleased n = r.unreleased + n := by
    apply satAdd32_eq
    unfold maxWindowSize at h
    unfold u32Max
    omega
  unfold release
  rw [hs]
  dsimp only
  split
  · simp [available]
  · have : r.window.increase (r.unreleased + n) = .ok ⟨r.window.available + (r.unreleased + n : Nat)⟩ := by
      unfold Window.increase
      rw [if_neg]
      unfold available at h
      push_cast; omega
    rw [this]
    simp [available]

end RecvWindow

end H2Proxy
