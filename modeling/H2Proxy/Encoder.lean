import H2Proxy.Conn.Dealings
import H2Proxy.Conn.StaleEvent
import H2Proxy.Up.Dealings

/-
  The header encoders of both legs keep to the table that their peers allow.
-/

namespace H2Proxy

/-- What the entries of an encoder's table count for. -/
def HpackEncoder.octets (e : HpackEncoder) : Nat := (e.table.entries.map Hpack.DynamicTable.cost).sum

theorem HpackEncoder.Within.octets_le {e : HpackEncoder} {bound : Nat} (h : e.Within bound) :
    e.octets ≤ bound := by
  have size := h.table.size_le
  rw [h.table.size_eq, h.maxSize] at size
  exact size

/-- In every run of either leg the encoder's table holds no more octets than the
    HEADER_TABLE_SIZE of the peer's last SETTINGS, or 4096 before any. -/
theorem encoder_tables_bounded {σ μ : Type} [Service σ μ] :
    (∀ s : Conn σ μ, (Conn.machine σ μ).Reachable s → s.stop = none →
      s.hpackEnc.octets ≤ s.peerSettings.headerTableSize ∧
        s.peerSettings.headerTableSize < 2 ^ 32) ∧
    (∀ s : Upstream, Upstream.machine.Reachable s → s.stop = none →
      s.hpackEnc.octets ≤ s.peerSettings.headerTableSize ∧
        s.peerSettings.headerTableSize < 2 ^ 32) ∧
    (∀ s : Conn σ μ, Conn.Fresh s → s.peerSettings.headerTableSize = 4096) ∧
    ∀ s : Upstream, Upstream.Fresh s → s.peerSettings.headerTableSize = 4096 := by
  refine ⟨fun s h running => ?_, fun s h running => ?_, ?_, ?_⟩
  · have encodes := ((Conn.reach_dealing h).running running).encodes
    exact ⟨encodes.octets_le, encodes.bound_lt⟩
  · have encodes := ((Upstream.reach_dealing h).running running).encodes
    exact ⟨encodes.octets_le, encodes.bound_lt⟩
  · rintro s ⟨service, localSettings, window, limits, policy, admission, now, -, -, -, rfl⟩
    rfl
  · rintro s ⟨tuning, idle, timeout, now, -, -, rfl⟩
    rfl

/-- SETTINGS with a HEADER_TABLE_SIZE of 65536. -/
def raisedSettings : WireFrame := .ofParts .settings 0 .connection [0, 1, 0, 1, 0, 0] (by decide)

/-- A client raises the bound and has a request answered. -/
def answeredRaised : Conn Echo Empty :=
  (Conn.machine Echo Empty).run (Conn.withService (.new 4))
    [(0, .frame raisedSettings), (1, .frame Conn.getRoot), (2, .event)]

theorem answeredRaised_reachable : (Conn.machine Echo Empty).Reachable answeredRaised :=
  Machine.Reach.run (.init (Conn.fresh_withService _)) _ (by simp [Machine.Meets])

theorem encoder_table_raised : answeredRaised.hpackEnc.octets ≤ 65536 := by
  have bounded := encoder_tables_bounded.1 answeredRaised answeredRaised_reachable (by decide +kernel)
  have raised : answeredRaised.peerSettings.headerTableSize = 65536 := by decide +kernel
  exact raised ▸ bounded.1

end H2Proxy
