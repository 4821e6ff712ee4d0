import H2Proxy.Conn.Ledger
import H2Proxy.Conn.Reclaim

/-
  The receive window of a client connection over a whole run.

  Nothing of the window is lost and nothing is released twice, whatever the client sends and
  however the responder's credits interleave with it, provided that the responder never
  accepts more of a stream than it was given (`window_balanced`).
-/

namespace H2Proxy

/-- `release` of `n` octets would not overflow the window. -/
def RecvWindow.CanRelease (r : RecvWindow) (n : Nat) : Prop :=
  (r.window.increase (satAdd32 r.unreleased n)).isOk

/-- What is held can be released. -/
theorem RecvWindow.Account.canRelease {r : RecvWindow} {granted : Int}
    {held heard announced n : Nat} (h : r.Account granted held heard announced)
    (high : granted ≤ maxWindowSize) (le : n ≤ held) : r.CanRelease n := by
  have hb := h.balance
  have hlow := h.low
  have hsat : satAdd32 r.unreleased n = r.unreleased + n := by
    apply satAdd32_eq
    unfold maxWindowSize at high
    unfold u32Max
    omega
  unfold CanRelease Window.increase
  rw [hsat, if_neg]
  · rfl
  · show ¬ r.available + _ > _
    push_cast
    omega

/-- Once nothing is held, the window is whole or more than half of it is available. -/
theorem RecvWindow.Account.half {r : RecvWindow} {granted : Int} {heard announced : Nat}
    (h : r.Account granted 0 heard announced) :
    r.available = granted ∨ granted < 2 * r.available := by
  have hb := h.balance
  obtain hlt | hz := h.batch
  · right
    push_cast at hb
    omega
  · left
    push_cast at hb
    omega

namespace Conn

variable {σ μ : Type}

/-- The books of a connection whose receive window was configured as `window`. -/
structure Balanced (s : Conn σ μ) (window : Int) : Prop where
  /-- What is available, batched, held by live streams and left by retired ones is the
      window. -/
  balance : s.connRecvWindow.available + s.connRecvWindow.unreleased +
    s.streams.live.total (·.pendingConnRelease) + s.streams.reclaimed = window
  /-- The window has every increment that was announced: no `release` has failed. -/
  announced : s.connRecvWindow.available + tally (ConnObs.received fun _ => true) s.log +
      connectionWindowBootstrap window =
    window + tally (ConnObs.announced .connection) s.log
  /-- Nor will the `release` of what is held, after any DATA the window has room for. -/
  released : ∀ len r n, s.connRecvWindow.record len = .ok r → n ≤ s.streams.held + len →
    r.CanRelease n
  streamReleased : ∀ id st, s.streams.get? id = some st →
    ∀ len r n, st.recvWindow.record len = .ok r → n ≤ st.pendingConnRelease + len → r.CanRelease n
  /-- The client may send no more than the window. -/
  granted : s.connRecvWindow.available ≤ window
  /-- What retired streams left is returned, where no reset is owed. -/
  returned : s.pendingReset = [] → s.streams.reclaimed = 0
  /-- Once every octet has been accepted, and retired streams have nothing left, as where no reset
      is owed, the client may send at least half the window. -/
  half : (∀ id st, s.streams.get? id = some st →
      tally (ConnObs.accepted id) s.log = tally (ConnObs.given id) s.log) →
    s.streams.reclaimed = 0 ∨ s.pendingReset = [] →
    s.connRecvWindow.available = window ∨ window < 2 * s.connRecvWindow.available

theorem start_ledger {service : σ} {localSettings : Settings} {window : Int} {limits : Limits}
    {policy : DrainPolicy} {admission : Option Nat} {now : Instant} (low : -(2 ^ 31) ≤ window) :
    Ledger window (asI32 localSettings.initialWindowSize) (connectionWindowBootstrap window)
      (fun _ => 0) 0
      (start service localSettings window limits policy admission now : Conn σ μ).toConnCore := by
  refine ⟨⟨0, ?_, ?_⟩, rfl, rfl, ?_, ?_, ?_⟩
  · simp [start, ConnObs.announced, Settings.toFrame]
  · show RecvWindow.Account (.new window) window 0 (tally _ (start ..).log) 0
    simp only [start, tally_cons, tally_nil, ConnObs.received]
    exact .new low
  · intro id s hs
    cases hs
  · intro id s hs
    cases hs
  · intro id hid
    have hne : ¬ StreamId.connection = id := by
      rintro rfl
      exact hid (Nat.le_refl _)
    simp [start, ConnObs.announced, ConnObs.received, ConnObs.given, ConnObs.accepted,
      Settings.toFrame, hne]

variable [Service σ μ]

/-- The books of a running connection balance. -/
theorem reach_ledger {s₀ s : Conn σ μ} (fresh : Fresh s₀)
    (h : ((machine σ μ).startedAt s₀).Reach (Permits honest) s) (running : s.stop = none) :
    ∃ initial, initial ≤ maxWindowSize ∧ s₀.connRecvWindow.initial ≤ maxWindowSize ∧
      Ledger s₀.connRecvWindow.initial initial
        (connectionWindowBootstrap s₀.connRecvWindow.initial) (fun _ => 0) 0 s.toConnCore := by
  have ht := startedAt_traced (fun _ _ h => h) fresh.sound h
  obtain ⟨service, localSettings, window, limits, policy, admission, now, hu, hlow, hhigh, rfl⟩ :=
    fresh
  obtain ⟨low, high⟩ := asI32_bounds hu.initialWindowSize_lt
  refine ⟨asI32 localSettings.initialWindowSize, high, hhigh, ?_⟩
  exact ht.running_invariant running (start_ledger hlow)
    fun c c' hc m => m.ledger hhigh high low hc

/-- In every run in which the responder accepts only what it was given, a running connection's
    books balance to the window it was configured with. -/
theorem window_balanced {s₀ s : Conn σ μ} (fresh : Fresh s₀)
    (h : ((machine σ μ).startedAt s₀).Reach (Permits honest) s) (running : s.stop = none) :
    s.Balanced s₀.connRecvWindow.initial := by
  obtain ⟨initial, high', high, ledger⟩ := reach_ledger fresh h running
  obtain ⟨announced, hann, account⟩ := ledger.conn
  rw [Nat.add_zero] at account
  have hbalance := account.balance
  have clear : s.Clear := startedAt_clear fresh h running
  refine ⟨?_, ?_, ?_, ?_, ?_, clear, ?_⟩
  · unfold StreamTable.held at hbalance
    push_cast at hbalance
    omega
  · have := account.counted
    rw [hann]
    push_cast
    omega
  · intro len r n hr hn
    exact (account.record hr).canRelease high hn
  · intro id st hs len r n hr hn
    obtain ⟨-, -, hacc⟩ := ledger.live id st hs
    exact (hacc.record hr).canRelease high' hn
  · omega
  · intro accepted unclaimed
    have none_ : s.streams.held = 0 := by
      unfold StreamTable.held
      rw [unclaimed.elim id clear, Nat.add_zero]
      refine AList.total_eq_zero fun id st hs => ?_
      have := ledger.backed id st hs
      rw [accepted id st hs] at this
      omega
    rw [none_] at account
    exact account.half

/-- `POST /` on stream 1, with its body to follow. -/
def postRoot : WireFrame :=
  .ofParts .headers Flags.endHeaders (.new 1) [0x83, 0x86, 0x84] (by decide)

/-- Three octets of body on stream 1. -/
def dataFirst : WireFrame := .ofParts .data 0 (.new 1) [1, 2, 3] (by decide)

/-- `POST /`, of whose body three octets have come in and were echoed and accepted. -/
theorem postRoot_balanced :
    ((machine Echo Empty).run (withService (.new 4)) [(0, .frame postRoot), (1, .frame dataFirst),
      (2, .event), (3, .event), (4, .event), (5, .pump 0)]).Balanced connectionWindow :=
  window_balanced (fresh_withService (.new 4))
    (Machine.Reach.run (.init rfl) _ (by decide +kernel)) (by decide +kernel)

end Conn

end H2Proxy
