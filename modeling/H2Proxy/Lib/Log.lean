import Mathlib.Data.List.Basic

/-
  Logs, oldest event first.

  `Adds p` relates a log to those it may grow into by events of `p`. `Throughout P` holds of a log
  whose every event is right where it stands, after the events before it; whoever keeps such a log
  need only look at the event at its end. `Amid P` says it of the events after it as well, and is
  kept by adding events in one go.
-/

variable {α : Type}

/-- The log has grown by such events. -/
def Adds (p : α → Prop) (log log' : List α) : Prop := ∃ added, log' = log ++ added ∧ ∀ a ∈ added, p a

namespace Adds

variable {p q : α → Prop} {log log' log'' : List α}

theorem refl (p : α → Prop) (log : List α) : Adds p log log :=
  ⟨[], (List.append_nil _).symm, nofun⟩

theorem one {a : α} (h : p a) : Adds p log (log ++ [a]) :=
  ⟨[a], rfl, fun _ hx => List.mem_singleton.mp hx ▸ h⟩

theorem trans (h : Adds p log log') (h' : Adds p log' log'') : Adds p log log'' := by
  obtain ⟨added, rfl, ha⟩ := h
  obtain ⟨added', rfl, ha'⟩ := h'
  refine ⟨added ++ added', List.append_assoc .., fun o ho => ?_⟩
  exact (List.mem_append.mp ho).elim (ha o) (ha' o)

theorem mono (h : Adds p log log') (hq : ∀ a, p a → q a) : Adds q log log' := by
  obtain ⟨added, hlog, ha⟩ := h
  exact ⟨added, hlog, fun a mem => hq a (ha a mem)⟩

/-- What every such event keeps. -/
theorem keeps {I : List α → Prop} (grows : Adds p log log') (h : I log)
    (step : ∀ log a, I log → p a → I (log ++ [a])) : I log' := by
  obtain ⟨added, rfl, ha⟩ := grows
  induction added generalizing log with
  | nil =>
    rw [List.append_nil]
    exact h
  | cons a added ih =>
    have rest := ih (step log a h (ha a List.mem_cons_self))
      fun b hb => ha b (List.mem_cons_of_mem _ hb)
    rwa [List.append_assoc] at rest

end Adds

/-- Every event of the log is right after those before it. -/
def Throughout (P : List α → α → Prop) (log : List α) : Prop :=
  ∀ before a after, log = before ++ a :: after → P before a

namespace Throughout

variable {P : List α → α → Prop} {log : List α} {a : α}

theorem nil : Throughout P [] := by
  intro before a after split_
  cases before <;> cases split_

theorem snoc (h : Throughout P log) (last : P log a) : Throughout P (log ++ [a]) := by
  intro before b after parts
  obtain rfl | ⟨after, c, rfl⟩ := after.eq_nil_or_concat
  · obtain ⟨rfl, same⟩ := List.append_inj' parts rfl
    cases same
    exact last
  · rw [List.concat_eq_append, ← List.cons_append, ← List.append_assoc] at parts
    obtain ⟨rfl, -⟩ := List.append_inj' parts rfl
    exact h before b after rfl

/-- Events that are right anywhere. -/
theorem adds {p : α → Prop} {log' : List α} (h : Throughout P log) (grows : Adds p log log')
    (right : ∀ before a, p a → P before a) : Throughout P log' :=
  grows.keeps h fun log a kept ha => kept.snoc (right log a ha)

end Throughout

/-- Every event of the log is right between those before it and those after it. -/
def Amid (P : List α → α → List α → Prop) (log : List α) : Prop :=
  ∀ before a after, log = before ++ a :: after → P before a after

namespace Amid

variable {P : List α → α → List α → Prop} {log added : List α}

/-- What is right stays so, and what is added is right among itself. -/
theorem append (h : Amid P log)
    (stays : ∀ before a after, P before a after → P before a (after ++ added))
    (new : ∀ before a after, added = before ++ a :: after → P (log ++ before) a after) :
    Amid P (log ++ added) := by
  intro before a after parts
  rcases List.append_eq_append_iff.mp parts with ⟨between, hbefore, hadded⟩ | ⟨between, hlog, hafter⟩
  · rw [hbefore]
    exact new between a after hadded
  · cases between with
    | nil =>
      rw [List.append_nil] at hlog
      have first := new [] a after hafter.symm
      rwa [List.append_nil, hlog] at first
    | cons b between =>
      obtain ⟨rfl, rfl⟩ := List.cons.inj hafter
      exact stays before a between (h before a between hlog)

end Amid
