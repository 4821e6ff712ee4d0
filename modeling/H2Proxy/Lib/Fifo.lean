import H2Proxy.Lib.Monitor
import Mathlib.Data.List.DropRight

/-
  A first-in first-out queue, as a monitor.

  `fifo` holds what waits, and is stuck where something is taken that was not the front of it. So
  what was put since the queue was last cleared is what was taken since, and what waits, in
  that order (`watch_conserved`).
-/

namespace H2Proxy

/-- What happens at a queue. -/
inductive Traffic (α : Type)
  | clear
  | put (items : List α)
  | take (items : List α)
  /-- The last are taken. -/
  | drain (items : List α)

namespace Traffic

variable {α β : Type}

def isClear : Traffic α → Bool
  | clear => true
  | _ => false

def given : Traffic α → List α
  | put items => items
  | _ => []

def taken : Traffic α → List α
  | take items | drain items => items
  | _ => []

variable [DecidableEq α]

/-- What waits afterwards, where the front is taken, or all there is. -/
def next (waiting : List α) : Traffic α → Option (List α)
  | clear => some []
  | put items => some (waiting ++ items)
  | take items => if items <+: waiting then some (waiting.drop items.length) else none
  | drain items => if items = waiting then some [] else none

def fifo : Monitor (Traffic α) (List α) := ⟨[], next⟩

theorem next_take (items rest : List α) : next (items ++ rest) (take items) = some rest := by
  have front : items <+: items ++ rest := List.prefix_append items rest
  refine (if_pos front).trans ?_
  rw [List.drop_left]

theorem next_conserved {a : Traffic α} (unbroken : a.isClear = false) {w w' : List α}
    (h : next w a = some w') : w ++ a.given = a.taken ++ w' := by
  cases a with
  | clear => cases unbroken
  | put items =>
    cases h
    rfl
  | take items =>
    have h : (if items <+: w then some (w.drop items.length) else none) = some w' := h
    split at h
    · rename_i front
      obtain ⟨rest, rfl⟩ := front
      cases h
      simp [given, taken]
    · cases h
  | drain items =>
    have h : (if items = w then some [] else none) = some w' := h
    split at h
    · rename_i all
      cases h
      cases all
      rfl
    · cases h

variable (f : β → Option (Traffic α))

omit [DecidableEq α] in
/-- What came after the queue was last cleared. -/
def since (log : List β) : List (Traffic α) := (log.filterMap f).rtakeWhile (!·.isClear)

variable {f}

/-- Nothing is lost, repeated or moved. -/
theorem watch_conserved {log : List β} {w : List α} (h : fifo.watch f log = some w) :
    (since f log).flatMap given = (since f log).flatMap taken ++ w := by
  unfold since
  unfold Monitor.watch at h
  generalize log.filterMap f = word at h ⊢
  induction word using List.reverseRecOn generalizing w with
  | nil =>
    cases h
    rfl
  | append_singleton word a ih =>
    rw [List.foldlM_append] at h
    obtain ⟨v, before, last⟩ := Option.bind_eq_some_iff.mp h
    have last : fifo.next v a = some w := by simpa using last
    rw [List.rtakeWhile_concat]
    cases clear : a.isClear with
    | true =>
      cases a with
      | clear =>
        cases last
        rfl
      | _ => cases clear
    | false =>
      have kept := next_conserved clear last
      simp only [Bool.not_false, if_true, List.flatMap_append, List.flatMap_singleton]
      rw [ih before, List.append_assoc, kept, List.append_assoc]

/-- Where the last are taken, nothing that was put is left. -/
theorem drain_conserved {before after : List β} {b : β} {items : List α}
    (h : fifo.Accepts f (before ++ b :: after)) (last : f b = some (drain items)) :
    (since f before).flatMap given = (since f before).flatMap taken ++ items := by
  rw [List.append_cons] at h
  obtain ⟨w', read⟩ := Option.isSome_iff_exists.mp h.earlier
  obtain ⟨w, waits, next⟩ := Monitor.watch_concat_some last read
  have next : (if items = w then some [] else none) = some w' := next
  split at next
  · rename_i all
    rw [all]
    exact watch_conserved waits
  · cases next

end Traffic

end H2Proxy
