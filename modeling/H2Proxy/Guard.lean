import H2Proxy.Basic
import Mathlib.Algebra.Order.Field.Rat
import Mathlib.Tactic.GCongr
import Mathlib.Tactic.Positivity
import Mathlib.Data.Nat.Cast.Order.Ring

/-
  The abuse guard of one client connection (`core/src/guard.rs`): token buckets over resets
  and control frames, counters over empty DATA and CONTINUATION. A bucket's `f64` tokens
  are rationals here.
-/

namespace H2Proxy

/-- What tripped. -/
inductive Signal
  | resets | unansweredResets | controlFrames | emptyFrames | continuations
deriving DecidableEq

def Signal.asStr : Signal → String
  | resets => "resets"
  | unansweredResets => "unanswered_resets"
  | controlFrames => "control_frames"
  | emptyFrames => "empty_frames"
  | continuations => "continuations"

inductive Verdict
  | ok
  | trip (signal : Signal)
deriving DecidableEq

structure Limits where
  resetBurst : Rat
  resetRate : Rat
  unansweredBurst : Rat
  unansweredRate : Rat
  controlBurst : Rat
  controlRate : Rat
  maxConsecutiveEmpty : Nat
  maxContinuations : Nat
  observeOnly : Bool

/-- `Limits::default()`. -/
def Limits.default : Limits := ⟨100, 20, 50, 15, 200, 50, 32, 64, false⟩

structure Bucket where
  tokens : Rat
  rate : Rat
  burst : Rat
  last : Instant

namespace Bucket

def new (burst rate : Rat) (now : Instant) : Bucket := ⟨burst, rate, burst, now⟩

/-- Refill for the time since the last take, then take one token if there is one. -/
def take (b : Bucket) (now : Instant) : Bucket × Bool :=
  let elapsed : Rat := ((now - b.last : Nat) : Rat) / 1000000000
  let tokens := min (b.tokens + elapsed * b.rate) b.burst
  if tokens < 1 then ({ b with tokens, last := now }, false)
  else ({ b with tokens := tokens - 1, last := now }, true)

/-- The tokens a take at this time would find. -/
def level (b : Bucket) (now : Instant) : Rat :=
  min (b.tokens + ((now - b.last : Nat) : Rat) / 1000000000 * b.rate) b.burst

variable {b : Bucket} {now : Instant}

theorem level_le_burst : b.level now ≤ b.burst := min_le_right _ _

theorem take_rate : (b.take now).1.rate = b.rate := by
  unfold take
  dsimp only
  split <;> rfl

theorem take_burst : (b.take now).1.burst = b.burst := by
  unfold take
  dsimp only
  split <;> rfl

/-- A token is there to take when there is at least one. -/
theorem take_iff : (b.take now).2 = true ↔ 1 ≤ b.level now := by
  unfold take level
  dsimp only
  split
  · rename_i low
    exact ⟨nofun, fun h => absurd h (not_le.mpr low)⟩
  · rename_i high
    exact ⟨fun _ => not_lt.mp high, fun _ => rfl⟩

/-- A take that finds a token leaves one less. -/
theorem level_take (h : (b.take now).2 = true) : (b.take now).1.level now ≤ b.level now - 1 := by
  have high := take_iff.mp h
  unfold take at h ⊢
  dsimp only at h ⊢
  split at h
  · cases h
  · rename_i enough
    rw [if_neg enough]
    refine (min_le_left _ _).trans ?_
    rw [Nat.sub_self, Nat.cast_zero, zero_div, zero_mul, add_zero]
    exact le_refl _

theorem level_take_le : (b.take now).1.level now ≤ b.level now := by
  cases h : (b.take now).2 with
  | true => exact (level_take h).trans (sub_le_self _ zero_le_one)
  | false =>
    unfold take at h ⊢
    dsimp only at h ⊢
    split at h
    · rename_i low
      rw [if_pos low]
      refine (min_le_left _ _).trans ?_
      rw [Nat.sub_self, Nat.cast_zero, zero_div, zero_mul, add_zero]
      exact le_refl _
    · cases h

/-- What time adds to a bucket. -/
theorem level_later (rate : 0 ≤ b.rate) (now later : Instant) :
    b.level later ≤ b.level now + ((later - now : Nat) : Rat) / 1000000000 * b.rate := by
  have span : ((later - b.last : Nat) : Rat) ≤ ((now - b.last : Nat) : Rat) + ((later - now : Nat) : Rat) := by
    rw [← Nat.cast_add, Nat.cast_le]
    omega
  have gained : ((later - b.last : Nat) : Rat) / 1000000000 * b.rate ≤
      ((now - b.last : Nat) : Rat) / 1000000000 * b.rate +
        ((later - now : Nat) : Rat) / 1000000000 * b.rate := by
    rw [← add_mul, ← add_div]
    gcongr
  have more : 0 ≤ ((later - now : Nat) : Rat) / 1000000000 * b.rate := by positivity
  unfold level
  rw [← min_add_add_right]
  refine le_min ?_ ?_
  · refine (min_le_left _ _).trans ?_
    rw [add_assoc]
    exact add_le_add_right gained _
  · exact (min_le_right _ _).trans (le_add_of_nonneg_right more)

end Bucket

structure Guard where
  limits : Limits
  resets : Bucket
  unanswered : Bucket
  control : Bucket
  consecutiveEmpty : Nat
  continuations : Nat

namespace Guard

def new (limits : Limits) (now : Instant) : Guard :=
  ⟨limits, .new limits.resetBurst limits.resetRate now,
    .new limits.unansweredBurst limits.unansweredRate now,
    .new limits.controlBurst limits.controlRate now, 0, 0⟩

def verdict (g : Guard) (signal : Signal) : Verdict :=
  if g.limits.observeOnly then .ok else .trip signal

/-- A client reset; `answered` says whether a response had gone out on the stream. -/
def onReset (g : Guard) (answered : Bool) (now : Instant) : Guard × Verdict :=
  let (resets, took) := g.resets.take now
  let g := { g with resets }
  if !took then (g, g.verdict .resets)
  else if !answered then
    let (unanswered, took) := g.unanswered.take now
    let g := { g with unanswered }
    (g, if took then .ok else g.verdict .unansweredResets)
  else (g, .ok)

def onControlFrame (g : Guard) (now : Instant) : Guard × Verdict :=
  let (control, took) := g.control.take now
  let g := { g with control }
  (g, if took then .ok else g.verdict .controlFrames)

def onData (g : Guard) (len : Nat) (endStream : Bool) : Guard × Verdict :=
  if len > 0 || endStream then ({ g with consecutiveEmpty := 0 }, .ok)
  else
    let g := { g with consecutiveEmpty := g.consecutiveEmpty + 1 }
    (g, if g.consecutiveEmpty > g.limits.maxConsecutiveEmpty then g.verdict .emptyFrames
      else .ok)

def onContinuation (g : Guard) : Guard × Verdict :=
  let g := { g with continuations := g.continuations + 1 }
  (g, if g.continuations > g.limits.maxContinuations then g.verdict .continuations else .ok)

def onHeaderBlockEnd (g : Guard) : Guard := { g with continuations := 0 }

/-- At this time the guard of unanswered resets has at most been drawn on. -/
structure Drawn (now : Instant) (g g' : Guard) : Prop where
  limits : g'.limits = g.limits
  rate : g'.unanswered.rate = g.unanswered.rate
  burst : g'.unanswered.burst = g.unanswered.burst
  level : g'.unanswered.level now ≤ g.unanswered.level now

variable {now : Instant}

theorem Drawn.refl (now : Instant) (g : Guard) : Drawn now g g := ⟨rfl, rfl, rfl, le_refl _⟩

theorem Drawn.trans {g g' g'' : Guard} (h : Drawn now g g') (h' : Drawn now g' g'') :
    Drawn now g g'' :=
  ⟨h'.limits.trans h.limits, h'.rate.trans h.rate, h'.burst.trans h.burst, h'.level.trans h.level⟩

/-- A guard with the same limits and the same bucket. -/
theorem Drawn.same {g g' : Guard} (limits : g'.limits = g.limits)
    (unanswered : g'.unanswered = g.unanswered) : Drawn now g g' :=
  ⟨limits, by rw [unanswered], by rw [unanswered], by rw [unanswered]⟩

theorem onControlFrame_drawn (g : Guard) : Drawn now g (g.onControlFrame now).1 := .same rfl rfl

theorem onData_drawn (g : Guard) (len : Nat) (endStream : Bool) :
    Drawn now g (g.onData len endStream).1 := by
  unfold onData
  split
  · exact .same rfl rfl
  · exact .same rfl rfl

theorem onReset_drawn (g : Guard) (answered : Bool) : Drawn now g (g.onReset answered now).1 := by
  unfold onReset
  dsimp only
  split
  · exact .same rfl rfl
  · split
    · exact ⟨rfl, Bucket.take_rate, Bucket.take_burst, Bucket.level_take_le⟩
    · exact .same rfl rfl

/-- Where the guard enforces, an unanswered reset is let through for a token. -/
theorem onReset_passes {g : Guard} (enforcing : g.limits.observeOnly = false)
    (h : (g.onReset false now).2 = .ok) :
    1 ≤ g.unanswered.level now ∧
      (g.onReset false now).1.unanswered.level now ≤ g.unanswered.level now - 1 := by
  have trips : ∀ g : Guard, g.limits.observeOnly = false → ∀ signal, g.verdict signal ≠ .ok := by
    intro g enforcing signal
    unfold verdict
    rw [if_neg (by rw [enforcing]; nofun)]
    nofun
  unfold onReset at h ⊢
  dsimp only at h ⊢
  split at h
  · exact absurd h (trips _ enforcing _)
  · rename_i took
    rw [if_neg took]
    cases hu : (g.unanswered.take now).2 with
    | true => exact ⟨Bucket.take_iff.mp hu, Bucket.level_take hu⟩
    | false =>
      simp only [Bool.not_false, if_true] at h
      rw [hu] at h
      exact absurd h (trips _ enforcing _)

end Guard

end H2Proxy
