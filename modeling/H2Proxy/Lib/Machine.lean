import Mathlib.Data.List.Induction

/-
  Machines that take one input at a time, and their runs under a condition on each step.

  `Reach ok` holds of the states a run can be in when every step of it meets `ok`; with the
  condition that is always true it is plain reachability. `Reach.invariant` is the induction
  every safety result uses.
-/

/-- A deterministic machine over states `σ` and inputs `ι`. -/
structure Machine (σ ι : Type) where
  init : σ → Prop
  step : ι → σ → σ

namespace Machine

variable {σ ι : Type} {M : Machine σ ι}

/-- The states of the runs whose every step meets `ok`. -/
inductive Reach (M : Machine σ ι) (ok : σ → ι → Prop) : σ → Prop
  | init {s : σ} : M.init s → Reach M ok s
  | step {s : σ} {i : ι} : Reach M ok s → ok s i → Reach M ok (M.step i s)

/-- The states any run can be in. -/
abbrev Reachable (M : Machine σ ι) (s : σ) : Prop := M.Reach (fun _ _ => True) s

/-- An invariant of the steps that meet `ok` holds in every state reached by them. -/
theorem Reach.invariant {ok : σ → ι → Prop} {I : σ → Prop} (init : ∀ s, M.init s → I s)
    (step : ∀ s i, I s → ok s i → I (M.step i s)) {s : σ} (h : M.Reach ok s) : I s := by
  induction h with
  | init h => exact init _ h
  | step _ hok ih => exact step _ _ ih hok

/-- The machine, started in one of its states. -/
def startedAt (M : Machine σ ι) (s : σ) : Machine σ ι := { M with init := (· = s) }

/-- Every run starts in one of the initial states. -/
theorem Reach.startedAt {ok : σ → ι → Prop} {s : σ} (h : M.Reach ok s) :
    ∃ s₀, M.init s₀ ∧ (M.startedAt s₀).Reach ok s := by
  refine h.invariant (I := fun s => ∃ s₀, M.init s₀ ∧ (M.startedAt s₀).Reach ok s) ?_ ?_
  · exact fun s hs => ⟨s, hs, .init rfl⟩
  · rintro s i ⟨s₀, h₀, hs⟩ hok
    exact ⟨s₀, h₀, hs.step hok⟩

/-- The state after a list of inputs. -/
def run (M : Machine σ ι) (s : σ) (is : List ι) : σ := is.foldl (fun s i => M.step i s) s

/-- Every step of the run from `s` meets `ok`. -/
def Meets (M : Machine σ ι) (ok : σ → ι → Prop) (s : σ) : List ι → Prop
  | [] => True
  | i :: is => ok s i ∧ M.Meets ok (M.step i s) is

instance Meets.decidable {ok : σ → ι → Prop} [∀ s i, Decidable (ok s i)] (s : σ) :
    (is : List ι) → Decidable (M.Meets ok s is)
  | [] => .isTrue trivial
  | i :: is => @instDecidableAnd _ _ _ (Meets.decidable (M.step i s) is)

theorem run_append (s : σ) (is js : List ι) : M.run s (is ++ js) = M.run (M.run s is) js :=
  List.foldl_append ..

theorem Meets.of_all {ok : σ → ι → Prop} (h : ∀ s i, ok s i) (s : σ) :
    (is : List ι) → M.Meets ok s is
  | [] => trivial
  | i :: is => ⟨h s i, of_all h (M.step i s) is⟩

/-- A run meets `ok` in both its parts. -/
theorem Meets.append {ok : σ → ι → Prop} {s : σ} {is js : List ι} :
    M.Meets ok s (is ++ js) ↔ M.Meets ok s is ∧ M.Meets ok (M.run s is) js := by
  induction is generalizing s with
  | nil => exact ⟨fun h => ⟨trivial, h⟩, fun h => h.2⟩
  | cons i is ih =>
    show ok s i ∧ M.Meets ok (M.step i s) (is ++ js) ↔ _
    rw [ih]
    exact and_assoc.symm

theorem Reach.run {ok : σ → ι → Prop} {s : σ} (hs : M.Reach ok s) (is : List ι)
    (h : M.Meets ok s is) : M.Reach ok (M.run s is) := by
  induction is generalizing s with
  | nil => exact hs
  | cons i is ih => exact ih (hs.step h.1) h.2

/-- Where `ok` is exactly what makes a step keep `P`, the runs whose every step meets `ok` are
    those whose every state has `P`. -/
theorem meets_iff_forall_isPrefix {ok : σ → ι → Prop} {I P : σ → Prop}
    (keep : ∀ s i, I s → I (M.step i s)) (exact_ok : ∀ s i, I s → P s → (P (M.step i s) ↔ ok s i))
    {s : σ} (hI : I s) (hP : P s) (is : List ι) :
    M.Meets ok s is ↔ ∀ js, js <+: is → P (M.run s js) := by
  induction is generalizing s with
  | nil =>
    refine ⟨fun _ js hjs => ?_, fun _ => trivial⟩
    rw [List.prefix_nil.mp hjs]
    exact hP
  | cons i is ih =>
    have hstep := exact_ok s i hI hP
    constructor
    · rintro ⟨hok, hrest⟩ js hjs
      cases js with
      | nil => exact hP
      | cons j js =>
        obtain ⟨rfl, hrun⟩ := List.cons_prefix_cons.mp hjs
        exact (ih (keep s j hI) (hstep.mpr hok)).mp hrest js hrun
    · intro hall
      have hnext : P (M.step i s) := hall [i] (List.cons_prefix_cons.mpr ⟨rfl, List.nil_prefix⟩)
      refine ⟨hstep.mp hnext, (ih (keep s i hI) hnext).mpr fun js hjs => ?_⟩
      exact hall (i :: js) (List.cons_prefix_cons.mpr ⟨rfl, hjs⟩)

/-- Every step of a run that meets `ok` does, from the state that the run so far ends in. -/
theorem Meets.step {ok : σ → ι → Prop} {s : σ} {is js : List ι} {i : ι} (h : M.Meets ok s is)
    (hjs : js ++ [i] <+: is) : ok (M.run s js) i := by
  obtain ⟨rest, rfl⟩ := hjs
  exact (Meets.append.mp (Meets.append.mp h).1).2.1

/-- Where the steps that meet `ok` keep an invariant of the inputs so far, and any other step
    breaks `P`, the runs whose every step meets `ok` are those with `P` throughout. -/
theorem meets_iff_forall_history {ok : σ → ι → Prop} {s : σ} {I P : List ι → Prop}
    (is : List ι) (start : I []) (holds : ∀ js, js <+: is → I js → P js)
    (keeps : ∀ js i, js ++ [i] <+: is → I js → ok (M.run s js) i → I (js ++ [i]))
    (breaks : ∀ js i, js ++ [i] <+: is → I js → P (js ++ [i]) → ok (M.run s js) i) :
    M.Meets ok s is ↔ ∀ js, js <+: is → P js := by
  have kept : ∀ js, js <+: is → M.Meets ok s js → I js := by
    intro js
    induction js using List.reverseRecOn with
    | nil => exact fun _ _ => start
    | append_singleton js i ih =>
      intro hjs hmeets
      have before := ih ((List.prefix_append js [i]).trans hjs) (Meets.append.mp hmeets).1
      exact keeps js i hjs before (hmeets.step (List.prefix_refl _))
  constructor
  · intro hmeets js hjs
    refine holds js hjs (kept js hjs ?_)
    obtain ⟨rest, rfl⟩ := hjs
    exact (Meets.append.mp hmeets).1
  · intro hall
    have meets : ∀ js, js <+: is → M.Meets ok s js := by
      intro js
      induction js using List.reverseRecOn with
      | nil => exact fun _ => trivial
      | append_singleton js i ih =>
        intro hjs
        have hrun := (List.prefix_append js [i]).trans hjs
        have before := kept js hrun (ih hrun)
        exact Meets.append.mpr ⟨ih hrun, breaks js i hjs before (hall _ hjs), trivial⟩
    exact meets is (List.prefix_refl is)

/-- Where `ok` is exactly what a step needs for `ok'`, the runs whose every step meets the one
    are those whose every step meets the other. -/
theorem Reach.meets_iff {ok ok' : σ → ι → Prop} (h : ∀ s, M.Reach ok s → ∀ i, ok' s i ↔ ok s i)
    {s : σ} (hs : M.Reach ok s) (is : List ι) : M.Meets ok' s is ↔ M.Meets ok s is := by
  induction is generalizing s with
  | nil => exact Iff.rfl
  | cons i is ih =>
    constructor
    · rintro ⟨first, rest⟩
      have met := (h s hs i).mp first
      exact ⟨met, (ih (hs.step met)).mp rest⟩
    · rintro ⟨met, rest⟩
      exact ⟨(h s hs i).mpr met, (ih (hs.step met)).mpr rest⟩

end Machine
