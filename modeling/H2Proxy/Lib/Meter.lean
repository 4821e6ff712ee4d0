import H2Proxy.Lib.Log
import Mathlib.Algebra.Ring.Int.Defs
import Mathlib.Data.List.Basic
import Mathlib.Data.List.Induction
import Mathlib.Data.List.Infix

/-
  Credit, metered over a log.

  A `Meter` reads an event as a grant of credit to one account, and says what it spends of any.
  `Lawful` asks of every grant in a log that it is not empty and that neither it nor what the
  account then holds is past a limit; `Covered` asks of every event that the accounts hold what
  it spends. Whoever keeps a log need only look at the event at its end (`Lawful.snoc`,
  `Covered.snoc`).
-/

/-- How events of `α` move the credit of the accounts `κ`. -/
structure Meter (κ α : Type) where
  grant : α → Option (κ × Nat)
  spend : κ → α → Nat

namespace Meter

variable {κ α : Type} [DecidableEq κ]

/-- The credit an event grants one account. -/
def granted (m : Meter κ α) (k : κ) (a : α) : Nat :=
  match m.grant a with
  | some (k', n) => if k' = k then n else 0
  | none => 0

/-- What is left of an account that was opened with `start`. -/
def left (m : Meter κ α) (start : κ → Int) (k : κ) (log : List α) : Int :=
  log.foldl (fun rest a => rest + m.granted k a - m.spend k a) (start k)

/-- No grant is empty, too large, or takes its account past the limit. -/
def Lawful (m : Meter κ α) (start : κ → Int) (limit : Int) (log : List α) : Prop :=
  ∀ before a after k n, log = before ++ a :: after → m.grant a = some (k, n) →
    1 ≤ n ∧ (n : Int) ≤ limit ∧ m.left start k (before ++ [a]) ≤ limit

variable {m : Meter κ α} {start : κ → Int} {limit : Int} {k : κ} {a : α} {log : List α}

theorem granted_of_none (h : m.grant a = none) (k : κ) : m.granted k a = 0 := by
  unfold granted
  rw [h]

theorem granted_of_some {n : Nat} (h : m.grant a = some (k, n)) (k' : κ) :
    m.granted k' a = if k = k' then n else 0 := by
  unfold granted
  rw [h]

theorem left_snoc (m : Meter κ α) (start : κ → Int) (k : κ) (log : List α) (a : α) :
    m.left start k (log ++ [a]) = m.left start k log + m.granted k a - m.spend k a := by
  unfold left
  rw [List.foldl_append]
  rfl

/-- Events that grant nothing leave no more than there was. -/
theorem left_append_le {added : List α} (silent : ∀ a ∈ added, m.grant a = none) (k : κ) :
    m.left start k (log ++ added) ≤ m.left start k log := by
  induction added generalizing log with
  | nil => exact Int.le_of_eq (by rw [List.append_nil])
  | cons a added ih =>
    have rest : m.left start k (log ++ [a] ++ added) ≤ m.left start k (log ++ [a]) :=
      ih fun b hb => silent b (List.mem_cons_of_mem _ hb)
    rw [left_snoc, granted_of_none (silent a List.mem_cons_self), List.append_assoc] at rest
    refine Int.le_trans rest ?_
    push_cast
    omega

/-- An event that neither grants nor spends leaves what there was. -/
theorem left_append_aside {added : List α} (silent : ∀ a ∈ added, m.grant a = none)
    (free : ∀ a ∈ added, m.spend k a = 0) :
    m.left start k (log ++ added) = m.left start k log := by
  induction added generalizing log with
  | nil => rw [List.append_nil]
  | cons a added ih =>
    have rest : m.left start k (log ++ [a] ++ added) = m.left start k (log ++ [a]) :=
      ih (fun b hb => silent b (List.mem_cons_of_mem _ hb))
        fun b hb => free b (List.mem_cons_of_mem _ hb)
    rw [left_snoc, granted_of_none (silent a List.mem_cons_self), free a List.mem_cons_self,
      List.append_assoc] at rest
    refine rest.trans ?_
    push_cast
    omega

/-- What an account was opened with stays in it. -/
theorem left_shift (start start' : κ → Int) (k : κ) (log : List α) :
    m.left start' k log = m.left start k log + (start' k - start k) := by
  induction log using List.reverseRecOn with
  | nil =>
    show start' k = start k + _
    omega
  | append_singleton log a ih =>
    rw [left_snoc, left_snoc, ih]
    omega

namespace Lawful

theorem nil : m.Lawful start limit [] := by
  intro before a after k n split_
  cases before <;> cases split_

/-- The event at the end of a log is lawful, where it grants anything. -/
theorem snoc (h : m.Lawful start limit log)
    (legal : ∀ k n, m.grant a = some (k, n) →
      1 ≤ n ∧ (n : Int) ≤ limit ∧ m.left start k (log ++ [a]) ≤ limit) :
    m.Lawful start limit (log ++ [a]) := by
  intro before b after k n parts grant
  obtain rfl | ⟨after, c, rfl⟩ := after.eq_nil_or_concat
  · obtain ⟨rfl, same⟩ := List.append_inj' parts rfl
    cases same
    exact legal k n grant
  · rw [List.concat_eq_append, ← List.cons_append, ← List.append_assoc] at parts
    obtain ⟨rfl, -⟩ := List.append_inj' parts rfl
    exact h before b after k n rfl grant

/-- Events that grant nothing are lawful anywhere. -/
theorem quiet (h : m.Lawful start limit log) {added : List α}
    (silent : ∀ a ∈ added, m.grant a = none) : m.Lawful start limit (log ++ added) := by
  induction added generalizing log with
  | nil =>
    rw [List.append_nil]
    exact h
  | cons a added ih =>
    have none_ := silent a List.mem_cons_self
    have first : m.Lawful start limit (log ++ [a]) :=
      h.snoc fun k n grant => by rw [none_] at grant; cases grant
    have rest := ih first fun b hb => silent b (List.mem_cons_of_mem _ hb)
    rwa [List.append_assoc] at rest

theorem of_prefix {before : List α} (h : m.Lawful start limit log) (begins : before <+: log) :
    m.Lawful start limit before := by
  obtain ⟨rest, rfl⟩ := begins
  rintro early a late k n rfl grant
  refine h early a (late ++ rest) k n ?_ grant
  rw [List.append_assoc, List.cons_append]

end Lawful

/-- A log that goes on from `first`, lawfully if `first` was. -/
structure LawfulFrom (m : Meter κ α) (start : κ → Int) (limit : Int) (first log : List α) : Prop where
  begins : first <+: log
  lawful : m.Lawful start limit first → m.Lawful start limit log

namespace LawfulFrom

variable {first : List α}

theorem refl (first : List α) : m.LawfulFrom start limit first first :=
  ⟨List.prefix_refl _, id⟩

theorem snoc (h : m.LawfulFrom start limit first log)
    (legal : ∀ k n, m.grant a = some (k, n) →
      1 ≤ n ∧ (n : Int) ≤ limit ∧ m.left start k (log ++ [a]) ≤ limit) :
    m.LawfulFrom start limit first (log ++ [a]) :=
  ⟨h.begins.trans (List.prefix_append ..), fun lawful => (h.lawful lawful).snoc legal⟩

theorem quiet (h : m.LawfulFrom start limit first log) {added : List α}
    (silent : ∀ a ∈ added, m.grant a = none) :
    m.LawfulFrom start limit first (log ++ added) :=
  ⟨h.begins.trans (List.prefix_append ..), fun lawful => (h.lawful lawful).quiet silent⟩

theorem lawful_iff (h : m.LawfulFrom start limit first log) :
    m.Lawful start limit log ↔ m.Lawful start limit first :=
  ⟨fun lawful => lawful.of_prefix h.begins, h.lawful⟩

end LawfulFrom

/-- No event spends more of an account than is left of it. What the accounts are opened with may
    itself be settled by the log so far. -/
def Covered (m : Meter κ α) (start : List α → κ → Int) (log : List α) : Prop :=
  Throughout (fun before a => ∀ k, 0 < m.spend k a →
    (m.spend k a : Int) ≤ m.left (start before) k before) log

/-- Events that spend nothing are covered anywhere. -/
theorem Covered.adds {start : List α → κ → Int} {log log' : List α} {p : α → Prop}
    (h : m.Covered start log) (grows : Adds p log log') (free : ∀ a, p a → ∀ k, m.spend k a = 0) :
    m.Covered start log' :=
  Throughout.adds h grows fun _ a ha k spends => by
    rw [free a ha k] at spends
    omega

end Meter
