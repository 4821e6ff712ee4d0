import H2Proxy.Service
import H2Proxy.Lib.Monitor

/-
  The order of a request's events: one head, then body, then at most one ending
  (`ServiceEvent` in `core/src/service.rs`). A reset or a refusal may take the place of
  anything that is still to come. `BodyAccepted` is credit for the request and keeps no order.
-/

namespace H2Proxy

/-- How far the telling of a response has come. -/
inductive Telling
  /-- No request was made. -/
  | unknown
  | due
  | body
  | done
deriving DecidableEq

/-- What the telling comes to after one more event, where the event is in turn. -/
def Telling.hear : Telling → ServiceEvent → Option Telling
  | g, .bodyAccepted .. => some g
  | .due, .head _ _ endStream => some (if endStream then .done else .body)
  | .body, .data _ _ endStream => some (if endStream then .done else .body)
  | .body, .trailers .. => some .done
  | .due, .reset .. | .due, .gone _ | .due, .shed _ => some .done
  | .body, .reset .. | .body, .gone _ | .body, .shed _ => some .done
  | _, _ => none

namespace Telling

theorem hear_head {g g' : Telling} {id : StreamId} {r : Response} {endStream : Bool}
    (h : g.hear (.head id r endStream) = some g') :
    g = due ∧ g' = if endStream then done else body := by
  cases g with
  | due => exact ⟨rfl, (Option.some.inj h).symm⟩
  | _ => cases h

theorem hear_data {g g' : Telling} {id : StreamId} {data : Bytes} {endStream : Bool}
    (h : g.hear (.data id data endStream) = some g') :
    g = body ∧ g' = if endStream then done else body := by
  cases g with
  | body => exact ⟨rfl, (Option.some.inj h).symm⟩
  | _ => cases h

theorem hear_trailers {g g' : Telling} {id : StreamId} {fields : List Header}
    (h : g.hear (.trailers id fields) = some g') : g = body ∧ g' = done := by
  cases g with
  | body => exact ⟨rfl, (Option.some.inj h).symm⟩
  | _ => cases h

theorem hear_bodyAccepted (g : Telling) (id : StreamId) (n : Nat) :
    g.hear (.bodyAccepted id n) = some g := by
  cases g <;> rfl

/-- A refusal comes where something is still due. -/
theorem hear_refusal {g g' : Telling} {e : ServiceEvent} (refusal : e.isRefusal)
    (h : g.hear e = some g') : g ≠ unknown ∧ g' = done := by
  cases e with
  | gone | shed =>
    cases g with
    | due | body => exact ⟨nofun, (Option.some.inj h).symm⟩
    | _ => cases h
  | _ => cases refusal

end Telling

end H2Proxy
