import Mathlib.Order.Lattice
import Mathlib.Order.Defs.LinearOrder

/-
  A limit that another party is told of, and that it confirms in order.

  The other party goes by the limit it confirmed last, and the one that enforces cannot know yet
  what it has read of those on their way: `relied` lists these, the confirmed one first. Raising
  the limit at once and lowering it only when nothing is on its way never enforces less than any of
  them (`Lenient`), and enforces the latest once all are confirmed.
-/

/-- The enforcing side of a limit. -/
structure Notice (α : Type) where
  enforced : α
  /-- The limit announced last. -/
  latest : α
  /-- How many announcements are not confirmed. -/
  awaiting : Nat

namespace Notice

variable {α : Type} [LinearOrder α] {n : Notice α} {relied : List α}

/-- Announce a limit; a higher one holds at once. -/
def announce (v : α) (n : Notice α) : Notice α := ⟨max n.enforced v, v, n.awaiting + 1⟩

/-- An announcement is confirmed; the latest holds once none is open. -/
def confirm (n : Notice α) : Notice α :=
  { n with
    enforced := if n.awaiting - 1 = 0 then n.latest else n.enforced
    awaiting := n.awaiting - 1 }

/-- No limit that the other party may be going by is above the enforced one. -/
structure Lenient (n : Notice α) (relied : List α) : Prop where
  length : relied.length = n.awaiting + 1
  latest : relied.getLast? = some n.latest
  le : ∀ v ∈ relied, v ≤ n.enforced
  settled : n.awaiting = 0 → n.enforced = n.latest

namespace Lenient

/-- Nothing but the first announcement is open, of no more than what is enforced. -/
theorem start {ceiling v : α} (h : v ≤ ceiling) : Lenient ⟨ceiling, v, 1⟩ [ceiling, v] := by
  refine ⟨rfl, rfl, fun w hw => ?_, nofun⟩
  obtain rfl | rfl : w = ceiling ∨ w = v := by simpa using hw
  · exact le_refl _
  · exact h

theorem announce (h : n.Lenient relied) (v : α) : (n.announce v).Lenient (relied ++ [v]) := by
  refine ⟨?_, List.getLast?_concat, fun w hw => ?_, nofun⟩
  · rw [List.length_append, h.length]
    rfl
  · obtain hw | hw := List.mem_append.mp hw
    · exact le_trans (h.le w hw) (le_max_left _ _)
    · rw [List.mem_singleton.mp hw]
      exact le_max_right _ _

theorem confirm (h : n.Lenient relied) (open_ : 0 < n.awaiting) : n.confirm.Lenient relied.tail := by
  have length : relied.tail.length = n.awaiting - 1 + 1 := by
    rw [List.length_tail, h.length]
    omega
  have latest : relied.tail.getLast? = some n.latest := by
    rw [List.getLast?_tail, if_neg (by rw [h.length]; omega), h.latest]
  refine ⟨length, latest, fun w hw => ?_, fun settled => if_pos settled⟩
  unfold Notice.confirm
  dsimp only
  split
  · rename_i last
    -- Only the latest is left.
    rw [last] at length
    obtain ⟨v, hv⟩ := List.length_eq_one_iff.mp length
    rw [hv] at hw latest
    rw [List.mem_singleton.mp hw]
    exact le_of_eq (Option.some.inj latest)
  · exact h.le w (List.mem_of_mem_tail hw)

/-- What was confirmed last is not above what is enforced. -/
theorem headD_le (h : n.Lenient relied) (v : α) : relied.headD v ≤ n.enforced := by
  cases relied with
  | nil => cases h.length
  | cons first rest => exact h.le first List.mem_cons_self

/-- Once all is confirmed, the limit confirmed last is enforced. -/
theorem all_confirmed {v : α} (h : n.Lenient relied) (one : relied.length = 1) :
    n.enforced = relied.headD v := by
  have none_ : n.awaiting = 0 := by
    have length := h.length
    omega
  obtain ⟨w, rfl⟩ := List.length_eq_one_iff.mp one
  rw [h.settled none_]
  exact (Option.some.inj h.latest).symm

end Lenient

end Notice
