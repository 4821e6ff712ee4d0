import Mathlib.Data.List.Basic

/-
  Monitors: partial deterministic automata over the entries of a log.

  A monitor reads the letters a log spells, entry by entry, and is stuck from the first
  letter out of turn. `watch` is the state it is in after a log, read through a partial
  spelling `f`; entries that spell nothing leave it where it was.
-/

/-- An automaton over letters `α` whose missing transitions are violations. -/
structure Monitor (α τ : Type) where
  start : τ
  next : τ → α → Option τ

namespace Monitor

variable {α β τ : Type} (M : Monitor α τ) (f : β → Option α)

/-- The state after a log, where every letter came in turn. -/
def watch (log : List β) : Option τ := (log.filterMap f).foldlM M.next M.start

/-- Every letter came in turn. -/
def Accepts (log : List β) : Prop := (M.watch f log).isSome

instance (log : List β) : Decidable (M.Accepts f log) := inferInstanceAs (Decidable (_ = true))

variable {M f}

theorem Accepts.intro {log : List β} {s : τ} (h : M.watch f log = some s) : M.Accepts f log := by
  unfold Accepts
  rw [h]
  rfl

theorem watch_append (log added : List β) :
    M.watch f (log ++ added) =
      (M.watch f log).bind fun s => (added.filterMap f).foldlM M.next s := by
  unfold watch
  rw [List.filterMap_append, List.foldlM_append]
  rfl

/-- Entries that spell nothing leave the monitor where it was. -/
theorem watch_silent {log added : List β} (silent : ∀ o ∈ added, f o = none) :
    M.watch f (log ++ added) = M.watch f log := by
  have spelled : added.filterMap f = [] := List.filterMap_eq_nil_iff.mpr silent
  rw [watch_append, spelled]
  cases M.watch f log <;> rfl

/-- Where nothing is said, the monitor stays where it starts. -/
theorem watch_start {log : List β} (silent : ∀ o ∈ log, f o = none) :
    M.watch f log = some M.start := by
  show M.watch f ([] ++ log) = M.watch f []
  exact watch_silent silent

/-- One letter is one transition. -/
theorem watch_concat {log : List β} {s : τ} {o : β} {a : α} (h : M.watch f log = some s)
    (spelled : f o = some a) : M.watch f (log ++ [o]) = M.next s a := by
  rw [watch_append, h, Option.bind_some]
  simp only [List.filterMap_cons, spelled, List.filterMap_nil, List.foldlM_cons, List.foldlM_nil,
    bind_pure]

/-- A letter that was in turn was the transition of some state. -/
theorem watch_concat_some {log : List β} {o : β} {a : α} {s' : τ} (spelled : f o = some a)
    (h : M.watch f (log ++ [o]) = some s') :
    ∃ s, M.watch f log = some s ∧ M.next s a = some s' := by
  cases hs : M.watch f log with
  | none => rw [watch_append, hs] at h; cases h
  | some s => exact ⟨s, rfl, (watch_concat hs spelled).symm.trans h⟩

/-- A property of the states that no letter of the log disturbs. -/
theorem watch_keeps {P : τ → Prop} {Q : α → Prop} (start : P M.start)
    (next : ∀ s a s', P s → Q a → M.next s a = some s' → P s') {log : List β}
    (letters : ∀ o ∈ log, ∀ a, f o = some a → Q a) {s : τ} (h : M.watch f log = some s) : P s := by
  have spelled : ∀ a ∈ log.filterMap f, Q a := by
    intro a ha
    obtain ⟨o, ho, hf⟩ := List.mem_filterMap.mp ha
    exact letters o ho a hf
  unfold watch at h
  generalize log.filterMap f = word at spelled h
  generalize M.start = s₀ at start h
  induction word generalizing s₀ with
  | nil =>
    cases h
    exact start
  | cons a word ih =>
    rw [List.foldlM_cons] at h
    cases hs : M.next s₀ a with
    | none => rw [hs] at h; cases h
    | some s₁ =>
      rw [hs] at h
      exact ih (fun b hb => spelled b (List.mem_cons_of_mem _ hb)) s₁
        (next _ _ _ start (spelled a List.mem_cons_self) hs) h

/-- What was accepted was accepted at every earlier time. -/
theorem Accepts.earlier {log added : List β} (h : M.Accepts f (log ++ added)) :
    M.Accepts f log := by
  unfold Accepts at h ⊢
  rw [watch_append] at h
  cases hs : M.watch f log with
  | none => rw [hs] at h; cases h
  | some s => rfl

end Monitor
