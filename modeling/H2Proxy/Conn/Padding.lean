import H2Proxy.Conn.Windows

/-
  What padded DATA costs a client.

  The windows are debited by the octets of body, not by the payload, and exactly those are
  handed back. So the windows of a connection are those the peer computes as long as no DATA
  frame is padded, and not from the first padded one on (`restored_iff`).
-/

namespace H2Proxy

section Tallies

variable {μ : Type}

theorem ConnObs.received_le_charged (p : StreamId → Bool) (o : ConnObs μ) :
    o.received p ≤ o.charged p := by
  cases o with
  | heard w => exact w.octets_le_cost p
  | _ => exact Nat.le_refl _

/-- Padded DATA was heard. -/
def ConnObs.padded : ConnObs μ → Bool
  | .heard w => w.isPaddedData
  | _ => false

/-- No DATA frame heard was padded. -/
def Unpadded (log : List (ConnObs μ)) : Prop := ∀ w, .heard w ∈ log → w.isPaddedData = false

/-- The octets received fall short of the payloads exactly where a DATA frame was padded. -/
theorem received_eq_charged_iff (log : List (ConnObs μ)) :
    tally (ConnObs.received fun _ => true) log = tally (ConnObs.charged fun _ => true) log ↔
      Unpadded log := by
  unfold Unpadded
  rw [tally_eq_iff _ _ (ConnObs.received_le_charged _)]
  constructor
  · intro h w hw
    exact w.octets_eq_cost_iff.mp (h _ hw)
  · intro h o ho
    cases o with
    | heard w => exact w.octets_eq_cost_iff.mpr (h w ho)
    | _ => rfl

theorem Unpadded.received_eq {log : List (ConnObs μ)} (h : Unpadded log) (p : StreamId → Bool) :
    tally (ConnObs.received p) log = tally (ConnObs.charged p) log := by
  rw [tally_eq_iff _ _ (ConnObs.received_le_charged _)]
  intro o ho
  cases o with
  | heard w => exact w.octets_eq_cost p (h w ho)
  | _ => rfl

end Tallies

namespace Conn

variable {σ μ : Type}

/-- The windows are the peer's: each is what was granted and announced less the payloads of
    the DATA heard; and once every octet is consumed, all that was debited is announced, but
    for less than half a window. -/
structure Restored (s : Conn σ μ) : Prop where
  conn : s.connRecvWindow.available + tally (ConnObs.charged fun _ => true) s.log +
      connectionWindowBootstrap s.connRecvWindow.initial =
    s.connRecvWindow.initial + tally (ConnObs.announced .connection) s.log
  stream : ∀ id st, s.streams.get? id = some st →
    st.recvWindow.available + tally (ConnObs.charged (· = id)) s.log =
      st.recvWindow.initial + tally (ConnObs.announced id) s.log
  consumed : s.streams.held = 0 →
    tally (ConnObs.announced .connection) s.log + s.connRecvWindow.unreleased =
        connectionWindowBootstrap s.connRecvWindow.initial +
          tally (ConnObs.charged fun _ => true) s.log ∧
      ((s.connRecvWindow.unreleased : Int) * 2 < s.connRecvWindow.initial ∨
        s.connRecvWindow.unreleased = 0)
  streamConsumed : ∀ id st, s.streams.get? id = some st → st.pendingConnRelease = 0 →
    tally (ConnObs.announced id) s.log + st.recvWindow.unreleased =
        tally (ConnObs.charged (· = id)) s.log ∧
      ((st.recvWindow.unreleased : Int) * 2 < st.recvWindow.initial ∨
        st.recvWindow.unreleased = 0)

variable [Service σ μ]

/-- In every run in which the responder accepts only what it was given, the windows are the
    peer's exactly as long as no DATA frame was padded. -/
theorem restored_iff {s : Conn σ μ} (h : (machine σ μ).Reach (Permits honest) s)
    (running : s.stop = none) : s.Restored ↔ Unpadded s.log := by
  obtain ⟨s₀, h₀, hs⟩ := h.startedAt
  obtain ⟨initial, -, -, ledger⟩ := reach_ledger h₀ hs running
  obtain ⟨announced, hann, hacc⟩ := ledger.conn
  have hinit := hacc.initial
  have hbal := hacc.balance
  have hcount := hacc.counted
  rw [Nat.add_zero] at hbal
  constructor
  · intro hr
    have hconn := hr.conn
    rw [← received_eq_charged_iff]
    rw [hinit, hann] at hconn
    push_cast at hconn
    omega
  · intro hu
    have hall := hu.received_eq fun _ => true
    rw [hall] at hcount
    refine ⟨?_, ?_, ?_, ?_⟩
    · rw [hinit, hann]
      push_cast
      omega
    · intro id st hs
      obtain ⟨-, -, hst⟩ := ledger.live id st hs
      rw [← hu.received_eq, hst.initial]
      exact hst.counted
    · intro hz
      rw [hinit, hann]
      refine ⟨?_, hacc.batch⟩
      rw [hz] at hbal
      push_cast at hbal
      omega
    · intro id st hs hz
      obtain ⟨-, -, hst⟩ := ledger.live id st hs
      rw [← hu.received_eq, hst.initial]
      refine ⟨?_, hst.batch⟩
      have hb := hst.balance
      have hc := hst.counted
      rw [hz] at hb
      push_cast at hb
      omega

/-- `POST /`, an octet of whose body comes with a pad of another. -/
def paddedPost : List (Instant × ConnInput) :=
  [(0, .frame postRoot), (1, .frame (.ofParts .data Flags.padded (.new 1) [1, 7, 0] (show 3 < 2 ^ 24 by decide))),
    (2, .event), (3, .event), (4, .event), (5, .pump 0)]

theorem paddedPost_not_restored :
    ¬ ((machine Echo Empty).run (withService (.new 4)) paddedPost).Restored := by
  have reached : (machine Echo Empty).Reach (Permits honest)
      ((machine Echo Empty).run (withService (.new 4)) paddedPost) :=
    Machine.Reach.run (.init (fresh_withService _)) _ (by decide +kernel)
  rw [restored_iff reached (by decide +kernel)]
  intro unpadded
  have heard : ((machine Echo Empty).run (withService (.new 4)) paddedPost).log.any
      ConnObs.padded = true := by decide +kernel
  obtain ⟨o, ho, padded⟩ := List.any_eq_true.mp heard
  cases o with
  | heard w =>
    rw [show ConnObs.padded (.heard w) = w.isPaddedData from rfl, unpadded w ho] at padded
    cases padded
  | _ => cases padded

end Conn

end H2Proxy
