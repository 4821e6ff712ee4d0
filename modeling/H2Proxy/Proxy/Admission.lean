import H2Proxy.Lib.Machine
import H2Proxy.Settings

/-
  The admission controller (`recompute_admission` in `core/src/proxy.rs`): how many streams
  a client connection is told it may open, steered by a total that is halved on distress and
  grows back.

  `budget_iff` says when a sample publishes a budget at all: the two clamps panic where their
  bounds cross. `sample_law` says what a sample does to the total and the threshold,
  `calm_recovers` that calm samples bring the total back to the ceiling.
-/

namespace H2Proxy

/-- The fewest streams a client connection is ever told it may open. -/
def minAdmit : Nat := 2

/-- The floor on the total. -/
def minTotal : Nat := 64

/-- The smallest additive increase. -/
def minStep : Nat := 32

/-- `u64::saturating_mul`. -/
def satMul64 (a b : Nat) : Nat := min (a * b) u64Max

/-- `u64::clamp`: a panic where the bounds cross. -/
def clamp (lower upper n : Nat) : Option Nat :=
  if lower ≤ upper then some (max lower (min n upper)) else none

/-- What a sample reads: connections, requests shed so far, the queue of each upstream
    connection. -/
structure AdmissionSample where
  clientConns : Nat
  shedTotal : Nat
  queued : List Nat

namespace AdmissionSample

/-- Those who share the total. -/
def conns (s : AdmissionSample) : Nat := max s.clientConns 1

/-- `near_shed_limit`: a queue holds a third of what it may. -/
def nearShedLimit (s : AdmissionSample) (maxPending : Nat) : Bool :=
  s.queued.any (· ≥ max (maxPending / 3) 1)

end AdmissionSample

/-- The controller's state, kept in atomics by the source. -/
structure Admission where
  /-- What a client connection may open, as published. -/
  admission : Nat
  /-- Streams admitted over all connections. -/
  admitTotal : Nat
  /-- The last total known to be servable. -/
  ssthresh : Nat
  /-- Requests shed as of the last sample. -/
  lastShed : Nat
deriving DecidableEq

namespace Admission

def start (tuning : Tuning) : Admission := ⟨tuning.maxConcurrentStreams, u64Max, u64Max, 0⟩

def ceilingTotal (tuning : Tuning) (s : AdmissionSample) : Nat :=
  satMul64 tuning.maxConcurrentStreams s.conns

/-- A request was shed since the last sample, or soon will be. -/
def distressed (tuning : Tuning) (s : AdmissionSample) (a : Admission) : Bool :=
  s.shedTotal > a.lastShed || s.nearShedLimit tuning.maxPending

/-- The next total and threshold. -/
def steer (tuning : Tuning) (s : AdmissionSample) (a : Admission) (current : Nat) : Nat × Nat :=
  if distressed tuning s a then
    let half := max (current / 2) minTotal
    (half, half)
  else if current < a.ssthresh then
    (min (satMul64 current 2) (ceilingTotal tuning s), a.ssthresh)
  else
    let step := max (current / 16) minStep
    (min (satAdd64 current step) (ceilingTotal tuning s), a.ssthresh)

/-- `recompute_admission`: the state it leaves, and the budget it returns unless it panics. -/
def recompute (tuning : Tuning) (s : AdmissionSample) (a : Admission) : Admission × Option Nat :=
  match clamp minTotal (ceilingTotal tuning s) a.admitTotal with
  | none => ({ a with lastShed := s.shedTotal }, none)
  | some clamped =>
    let (admitTotal, ssthresh) := steer tuning s a (max clamped 1)
    let a := { a with admitTotal, ssthresh, lastShed := s.shedTotal }
    match clamp minAdmit tuning.maxConcurrentStreams (admitTotal / s.conns) with
    | none => (a, none)
    | some admission => ({ a with admission }, some admission)

variable {tuning : Tuning} {s : AdmissionSample} {a : Admission}

theorem clamp_isSome {lower upper n : Nat} : (clamp lower upper n).isSome ↔ lower ≤ upper := by
  unfold clamp
  split
  · rename_i h
    exact ⟨fun _ => h, fun _ => rfl⟩
  · rename_i h
    exact ⟨nofun, fun h' => absurd h' h⟩

theorem clamp_bounds {lower upper n m : Nat} (h : clamp lower upper n = some m) :
    lower ≤ m ∧ m ≤ upper := by
  unfold clamp at h
  split at h
  · cases h
    omega
  · cases h

/-- A floor of 64 streams fits under the ceiling on the total exactly where it fits without
    saturation. -/
theorem minTotal_le_ceilingTotal :
    minTotal ≤ ceilingTotal tuning s ↔ minTotal ≤ tuning.maxConcurrentStreams * s.conns := by
  have : minTotal ≤ u64Max := by decide
  unfold ceilingTotal satMul64
  omega

/-- A sample publishes a budget within bounds exactly where neither clamp has crossed bounds:
    the ceiling of a connection is at least two, and that of all of them at least 64. -/
theorem budget_iff (tuning : Tuning) (s : AdmissionSample) (a : Admission) :
    (∃ budget, (recompute tuning s a).2 = some budget ∧
      (recompute tuning s a).1.admission = budget ∧
      1 ≤ budget ∧ budget ≤ tuning.maxConcurrentStreams) ↔
    2 ≤ tuning.maxConcurrentStreams ∧ 64 ≤ tuning.maxConcurrentStreams * s.conns := by
  rw [show 64 = minTotal from rfl, ← minTotal_le_ceilingTotal]
  unfold recompute
  cases htotal : clamp minTotal (ceilingTotal tuning s) a.admitTotal with
  | none =>
    have crossed : ¬ minTotal ≤ ceilingTotal tuning s := by
      rw [← clamp_isSome (n := a.admitTotal), htotal]
      nofun
    exact ⟨fun ⟨_, h, _⟩ => (nomatch h), fun h => absurd h.2 crossed⟩
  | some clamped =>
    have total : minTotal ≤ ceilingTotal tuning s := by
      rw [← clamp_isSome (n := a.admitTotal), htotal]
      rfl
    dsimp only
    cases hshare : clamp minAdmit tuning.maxConcurrentStreams
        ((steer tuning s a (max clamped 1)).1 / s.conns) with
    | none =>
      have crossed : ¬ minAdmit ≤ tuning.maxConcurrentStreams := by
        rw [← clamp_isSome, hshare]
        nofun
      exact ⟨fun ⟨_, h, _⟩ => (nomatch h), fun h => absurd h.1 crossed⟩
    | some budget =>
      obtain ⟨low, high⟩ := clamp_bounds hshare
      unfold minAdmit at low
      exact ⟨fun _ => ⟨Nat.le_trans low high, total⟩, fun _ => ⟨budget, rfl, rfl, by omega, high⟩⟩

/-- One client connection under a ceiling of 32, and two hundred under a ceiling of one: both
    samples panic. -/
theorem budget_panics :
    (recompute { Tuning.default with maxConcurrentStreams := 32 } ⟨1, 0, []⟩
      (start { Tuning.default with maxConcurrentStreams := 32 })).2 = none ∧
    (recompute { Tuning.default with maxConcurrentStreams := 1 } ⟨200, 0, []⟩
      (start { Tuning.default with maxConcurrentStreams := 1 })).2 = none := by
  decide

/-! ## The law -/

/-- The total a sample starts from: what the last one left, between the floor and the ceiling. -/
def current (tuning : Tuning) (s : AdmissionSample) (a : Admission) : Nat :=
  max minTotal (min a.admitTotal (ceilingTotal tuning s))

theorem clamp_admitTotal (legal : minTotal ≤ tuning.maxConcurrentStreams * s.conns) :
    clamp minTotal (ceilingTotal tuning s) a.admitTotal = some (current tuning s a) :=
  if_pos (minTotal_le_ceilingTotal.mpr legal)

theorem current_bounds (legal : minTotal ≤ tuning.maxConcurrentStreams * s.conns) :
    minTotal ≤ current tuning s a ∧ current tuning s a ≤ ceilingTotal tuning s := by
  have := minTotal_le_ceilingTotal.mpr legal
  unfold current
  omega

/-- Whether or not the share can be published, the total and the threshold are steered. -/
theorem recompute_steer (legal : minTotal ≤ tuning.maxConcurrentStreams * s.conns) :
    (recompute tuning s a).1.admitTotal = (steer tuning s a (current tuning s a)).1 ∧
      (recompute tuning s a).1.ssthresh = (steer tuning s a (current tuning s a)).2 := by
  obtain ⟨low, -⟩ := current_bounds (a := a) legal
  unfold minTotal at low
  unfold recompute
  rw [clamp_admitTotal legal]
  dsimp only
  rw [Nat.max_eq_left (by omega : 1 ≤ current tuning s a)]
  split
  · exact ⟨rfl, rfl⟩
  · exact ⟨rfl, rfl⟩

/-- The total a calm sample leaves, saturation being out of reach below the ceiling. -/
def raised (tuning : Tuning) (s : AdmissionSample) (a : Admission) : Nat :=
  let current := current tuning s a
  if current < a.ssthresh then min (2 * current) (ceilingTotal tuning s)
  else min (current + max (current / 16) minStep) (ceilingTotal tuning s)

theorem steer_distressed (h : distressed tuning s a = true) (n : Nat) :
    steer tuning s a n = (max (n / 2) minTotal, max (n / 2) minTotal) := if_pos h

theorem steer_calm (h : distressed tuning s a = false) :
    steer tuning s a (current tuning s a) = (raised tuning s a, a.ssthresh) := by
  have bounded : ceilingTotal tuning s ≤ u64Max := Nat.min_le_right _ _
  unfold steer raised
  rw [if_neg (by rw [h]; nofun)]
  unfold satMul64 satAdd64
  dsimp only
  by_cases below : current tuning s a < a.ssthresh
  · rw [if_pos below, if_pos below]
    congr 1
    omega
  · rw [if_neg below, if_neg below]
    congr 1
    omega

/-- A calm sample raises the total by 32 streams at least, up to the ceiling. -/
theorem raised_bounds (legal : minTotal ≤ tuning.maxConcurrentStreams * s.conns) :
    min (current tuning s a + minStep) (ceilingTotal tuning s) ≤ raised tuning s a ∧
      raised tuning s a ≤ ceilingTotal tuning s := by
  obtain ⟨low, high⟩ := current_bounds (a := a) legal
  unfold raised
  dsimp only
  unfold minTotal at low
  unfold minStep
  split
  · omega
  · omega

/-- The controller, sampled again and again. -/
def machine (tuning : Tuning) : Machine Admission AdmissionSample :=
  ⟨(· = start tuning), fun s a => (recompute tuning s a).1⟩

/-- A calm sample of this many connections. -/
def Calm (tuning : Tuning) (conns : Nat) (a : Admission) (s : AdmissionSample) : Prop :=
  s.conns = conns ∧ distressed tuning s a = false

instance (tuning : Tuning) (conns : Nat) (a : Admission) (s : AdmissionSample) :
    Decidable (Calm tuning conns a s) :=
  inferInstanceAs (Decidable (_ ∧ _))

/-- Calm samples raise the total by 32 each until it is at the ceiling. The induction is on the
    samples, from any total that the next one will start from. -/
theorem calm_raises {conns ceiling : Nat}
    (hceiling : ceiling = satMul64 tuning.maxConcurrentStreams conns)
    (legal : minTotal ≤ tuning.maxConcurrentStreams * conns) {samples : List AdmissionSample}
    (calm : (machine tuning).Meets (Calm tuning conns) a samples) {n : Nat}
    (start : min n ceiling ≤ a.admitTotal) (below : a.admitTotal ≤ ceiling) :
    min (n + minStep * samples.length) ceiling ≤
        ((machine tuning).run a samples).admitTotal ∧
      ((machine tuning).run a samples).admitTotal ≤ ceiling := by
  induction samples generalizing a n with
  | nil => exact ⟨start, below⟩
  | cons s samples ih =>
    obtain ⟨⟨hconns, hcalm⟩, hrest⟩ := calm
    rw [← hconns] at legal
    have same : ceilingTotal tuning s = ceiling := by
      rw [hceiling, ← hconns]
      rfl
    have htotal : ((machine tuning).step s a).admitTotal = raised tuning s a := by
      show (recompute tuning s a).1.admitTotal = _
      rw [(recompute_steer legal).1, steer_calm hcalm]
    obtain ⟨low, high⟩ := raised_bounds (a := a) legal
    rw [same] at low high
    have from_ : a.admitTotal ≤ current tuning s a := by
      unfold current
      rw [same]
      omega
    have next : min (n + minStep) ceiling ≤ ((machine tuning).step s a).admitTotal := by
      rw [htotal]
      omega
    obtain ⟨hlow, hhigh⟩ := ih hrest next (by rw [htotal]; exact high)
    refine ⟨?_, hhigh⟩
    rw [List.length_cons]
    refine Nat.le_trans ?_ hlow
    rw [Nat.mul_succ]
    omega

/-- What a sample does where the connections may hold 64 streams at all. On distress total and
    threshold are halved, to the floor at least; otherwise the total doubles below the threshold
    and grows by a sixteenth above it, strictly until it is at the ceiling and never past it.
    While the number of connections stays, as many calm samples as a 32nd of the ceiling bring
    it there, from any state. -/
theorem sample_law (tuning : Tuning) (s : AdmissionSample) (a : Admission)
    (legal : 64 ≤ tuning.maxConcurrentStreams * s.conns) :
    let ceiling := satMul64 tuning.maxConcurrentStreams s.conns
    let current := max 64 (min a.admitTotal ceiling)
    let next := (recompute tuning s a).1
    (distressed tuning s a = true →
      next.admitTotal = max (current / 2) 64 ∧ next.ssthresh = max (current / 2) 64) ∧
    (distressed tuning s a = false →
      next.admitTotal = (if current < a.ssthresh then min (2 * current) ceiling
        else min (current + max (current / 16) 32) ceiling) ∧
      next.ssthresh = a.ssthresh ∧ (current < ceiling → current < next.admitTotal) ∧
      next.admitTotal ≤ ceiling) ∧
    ∀ samples, (machine tuning).Meets (Calm tuning s.conns) a samples →
      ceiling / 32 ≤ samples.length → ((machine tuning).run a samples).admitTotal = ceiling := by
  dsimp only
  obtain ⟨htotal, hthresh⟩ := recompute_steer (a := a) legal
  refine ⟨fun distress => ?_, fun calm => ?_, fun samples calm long => ?_⟩
  · rw [htotal, hthresh, steer_distressed distress]
    exact ⟨rfl, rfl⟩
  · obtain ⟨low, high⟩ := raised_bounds (a := a) legal
    rw [htotal, hthresh, steer_calm calm]
    refine ⟨rfl, rfl, fun below => ?_, high⟩
    change current tuning s a < ceilingTotal tuning s at below
    show current tuning s a < raised tuning s a
    unfold minStep at low
    omega
  · have wide := minTotal_le_ceilingTotal.mpr legal
    have ceiling : satMul64 tuning.maxConcurrentStreams s.conns = ceilingTotal tuning s := rfl
    unfold minTotal at wide
    rw [ceiling] at long ⊢
    cases samples with
    | nil =>
      rw [List.length_nil] at long
      omega
    | cons first samples =>
      -- The first sample brings the total between the floor and the ceiling.
      obtain ⟨⟨hconns, hcalm⟩, hrest⟩ := calm
      rw [List.length_cons] at long
      have same : ceilingTotal tuning first = ceilingTotal tuning s := by
        show satMul64 _ first.conns = _
        rw [hconns]
        rfl
      have legal' : minTotal ≤ tuning.maxConcurrentStreams * first.conns := hconns ▸ legal
      obtain ⟨low, high⟩ := raised_bounds (a := a) legal'
      obtain ⟨floor, -⟩ := current_bounds (a := a) legal'
      have hfirst : ((machine tuning).step first a).admitTotal = raised tuning first a := by
        show (recompute tuning first a).1.admitTotal = _
        rw [(recompute_steer legal').1, steer_calm hcalm]
      rw [same] at low high
      rw [← hfirst] at low high
      obtain ⟨hlow, hhigh⟩ := calm_raises ceiling.symm legal hrest low high
      show ((machine tuning).run ((machine tuning).step first a) samples).admitTotal = _
      unfold minTotal at floor
      unfold minStep at hlow
      omega

/-- Two connections, brought to the floor by distress: sixteen calm samples later the total is
    at their ceiling. -/
theorem sample_law_two :
    ((machine .default).run ⟨256, 64, 64, 1⟩ (List.replicate 16 ⟨2, 1, []⟩)).admitTotal = 512 :=
  (sample_law .default ⟨2, 1, []⟩ ⟨256, 64, 64, 1⟩ (by decide)).2.2 _ (by decide) (by decide)

end Admission

end H2Proxy
