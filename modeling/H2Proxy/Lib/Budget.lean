import Mathlib.Algebra.Ring.Nat
import Mathlib.Algebra.BigOperators.Group.List.Basic

/-
  A list under a budget: the longest front of it whose costs add up to no more than a
  target. This is what a queue that evicts from its far end keeps.
-/

namespace Budget

variable {α : Type} (cost : α → Nat)

/-- The longest front of the list that costs at most `target`. -/
def fit (target : Nat) : List α → List α
  | [] => []
  | a :: as => if cost a ≤ target then a :: fit (target - cost a) as else []

/-- What a list costs. -/
def total (as : List α) : Nat := (as.map cost).sum

variable {cost}

@[simp] theorem total_nil : total cost [] = 0 := rfl

@[simp] theorem total_cons (a : α) (as : List α) :
    total cost (a :: as) = cost a + total cost as := by
  simp [total]

theorem fit_prefix (target : Nat) (as : List α) : fit cost target as <+: as := by
  induction as generalizing target with
  | nil => exact List.prefix_rfl
  | cons a as ih =>
    rw [fit]
    split
    · exact List.cons_prefix_cons.2 ⟨rfl, ih _⟩
    · exact List.nil_prefix

/-- A list within the budget stays whole. -/
theorem fit_of_le {target : Nat} {as : List α} (h : total cost as ≤ target) :
    fit cost target as = as := by
  induction as generalizing target with
  | nil => rfl
  | cons a as ih =>
    rw [total_cons] at h
    have htail : total cost as ≤ target - cost a := by omega
    rw [fit, if_pos (by omega), ih htail]

/-- Fitting twice is fitting once, to the smaller target. -/
theorem fit_fit (s t : Nat) (as : List α) :
    fit cost s (fit cost t as) = fit cost (min s t) as := by
  induction as generalizing s t with
  | nil => rfl
  | cons a as ih =>
    by_cases ht : cost a ≤ t
    · rw [fit, if_pos ht, fit, fit, ih]
      by_cases hs : cost a ≤ s
      · rw [if_pos hs, if_pos (by omega), show min (s - cost a) (t - cost a) = min s t - cost a by
          omega]
      · rw [if_neg hs, if_neg (by omega)]
    · rw [fit, if_neg ht, fit, fit, if_neg (by omega)]

/-- A front of the list keeps a front of what the list keeps. -/
theorem fit_mono {as bs : List α} (h : as <+: bs) (target : Nat) :
    fit cost target as <+: fit cost target bs := by
  induction as generalizing bs target with
  | nil => exact List.nil_prefix
  | cons a as ih =>
    obtain ⟨cs, rfl⟩ := h
    rw [List.cons_append, fit, fit]
    split
    · exact List.cons_prefix_cons.2 ⟨rfl, ih (List.prefix_append as cs) _⟩
    · exact List.nil_prefix

/-- Dropping the last element of a list over the budget changes nothing of what fits. -/
theorem fit_dropLast {target : Nat} {as : List α} (h : target < total cost as) :
    fit cost target as.dropLast = fit cost target as := by
  induction as generalizing target with
  | nil => exact absurd h (Nat.not_lt_zero _)
  | cons a as ih =>
    rw [total_cons] at h
    cases as with
    | nil =>
      rw [total_nil] at h
      rw [List.dropLast_singleton, fit, fit, if_neg (by omega)]
    | cons b bs =>
      rw [List.dropLast_cons_cons, fit, fit]
      split
      · rw [ih (by omega)]
      · rfl

end Budget
