import Mathlib.Init

/-
  Programs in `EStateM` that neither read nor write a part of the state.

  `Carries g x`: a change `g` of the state may be made before `x` or after it. Where `g`
  overwrites a field, that says that `x` leaves the field alone and that nothing it does
  depends on it; where `g` puts something before a log, that `x` only appends to the log.
  The rules take a program apart along its syntax.
-/

variable {ε σ α β : Type}

/-- A change of the state a program stopped in. -/
def onState (g : σ → σ) : EStateM.Result ε σ α → EStateM.Result ε σ α
  | .ok a s => .ok a (g s)
  | .error e s => .error e (g s)

/-- `g` before `x` is `g` after `x`. -/
structure Carries (g : σ → σ) (x : EStateM ε σ α) : Prop where
  run : ∀ s, x (g s) = onState g (x s)

namespace Carries

variable {g : σ → σ}

theorem pure (a : α) : Carries g (pure a : EStateM ε σ α) := ⟨fun _ => rfl⟩

theorem throw (e : ε) : Carries g (throw e : EStateM ε σ α) := ⟨fun _ => rfl⟩

theorem modify {f : σ → σ} (h : ∀ s, f (g s) = g (f s)) :
    Carries g (modify f : EStateM ε σ Unit) := by
  constructor
  intro s
  show EStateM.Result.ok () (f (g s)) = .ok () (g (f s))
  rw [h]

theorem bind {x : EStateM ε σ β} {f : β → EStateM ε σ α} (hx : Carries g x)
    (hf : ∀ b, Carries g (f b)) : Carries g (x >>= f) := by
  constructor
  intro s
  show EStateM.bind x f (g s) = onState g (EStateM.bind x f s)
  unfold EStateM.bind
  rw [hx.run s]
  cases x s with
  | ok b t => exact (hf b).run t
  | error e t => rfl

/-- What is read of the state must be the same on both sides. -/
theorem get {f : σ → EStateM ε σ α} (same : ∀ s, f (g s) = f s) (h : ∀ s, Carries g (f s)) :
    Carries g (get >>= f : EStateM ε σ α) := by
  constructor
  intro s
  show f (g s) (g s) = onState g (f s s)
  rw [same, (h s).run s]

theorem ite {c : Prop} [Decidable c] {x y : EStateM ε σ α} (hx : Carries g x)
    (hy : Carries g y) : Carries g (if c then x else y) := by
  by_cases h : c
  · rw [if_pos h]
    exact hx
  · rw [if_neg h]
    exact hy

end Carries
