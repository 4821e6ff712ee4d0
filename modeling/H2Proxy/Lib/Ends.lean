import Mathlib.Order.Defs.Unbundled

/-
  Postconditions for programs in `EStateM`.

  `Ends r Q E` says of a result that it satisfies `Q` if it is a value and `E` if it is an
  error; both see the state the program stopped in. The `ends_*` lemmas take a program apart
  along its syntax, so that a proof about a function follows its text: unfold it, simplify
  with `ends_*`, split where it branches, and use `Ends.mono` with the specification of each
  function it calls.

  `Follows R s r` is the special case of a program that stays within a preorder, whether it
  ends with a value or with an error; its rules need no postconditions.
-/

variable {ε σ α β : Type}

/-- The result is a value that satisfies `Q`, or an error that satisfies `E`. -/
def Ends (r : EStateM.Result ε σ α) (Q : α → σ → Prop) (E : ε → σ → Prop) : Prop :=
  match r with
  | .ok a s => Q a s
  | .error e s => E e s

variable {Q Q' : α → σ → Prop} {E E' : ε → σ → Prop} {s : σ}

theorem Ends.mono {r : EStateM.Result ε σ α} (h : Ends r Q E) (hQ : ∀ a s, Q a s → Q' a s)
    (hE : ∀ e s, E e s → E' e s) : Ends r Q' E' := by
  cases r with
  | ok a s => exact hQ a s h
  | error e s => exact hE e s h

/-- A result may be described twice. -/
theorem Ends.and {r : EStateM.Result ε σ α} (h : Ends r Q E) (h' : Ends r Q' E') :
    Ends r (fun a s => Q a s ∧ Q' a s) fun e s => E e s ∧ E' e s := by
  cases r with
  | ok a s => exact ⟨h, h'⟩
  | error e s => exact ⟨h, h'⟩

/-- A program that cannot fail meets any error condition. -/
theorem Ends.ok {r : EStateM.Result ε σ α} (h : Ends r Q fun _ _ => False)
    (hQ : ∀ a s, Q a s → Q' a s) : Ends r Q' E' :=
  h.mono hQ fun _ _ h => h.elim

theorem ends_bind {x : EStateM ε σ β} {f : β → EStateM ε σ α} :
    Ends ((x >>= f) s) Q E ↔ Ends (x s) (fun b s' => Ends (f b s') Q E) E := by
  show Ends (EStateM.bind x f s) Q E ↔ _
  unfold EStateM.bind
  cases x s <;> rfl

theorem ends_pure {a : α} : Ends ((pure a : EStateM ε σ α) s) Q E ↔ Q a s := Iff.rfl

theorem ends_ok {a : α} : Ends (.ok a s) Q E ↔ Q a s := Iff.rfl

theorem ends_get {Q : σ → σ → Prop} : Ends ((get : EStateM ε σ σ) s) Q E ↔ Q s s := Iff.rfl

theorem ends_modify {f : σ → σ} {Q : Unit → σ → Prop} :
    Ends ((modify f : EStateM ε σ Unit) s) Q E ↔ Q () (f s) := Iff.rfl

theorem ends_ite {c : Prop} [Decidable c] {x y : EStateM ε σ α} :
    Ends ((if c then x else y) s) Q E ↔ (c → Ends (x s) Q E) ∧ (¬c → Ends (y s) Q E) := by
  by_cases h : c <;> simp [h]

/-! ## Staying within a preorder -/

/-- However the program ends, the state it ends in is `R` of `s`. -/
def Follows (R : σ → σ → Prop) (s : σ) (r : EStateM.Result ε σ α) : Prop :=
  Ends r (fun _ => R s) fun _ => R s

namespace Follows

variable {R : σ → σ → Prop} {t : σ}

theorem pure [Std.Refl R] (a : α) : Follows R s ((pure a : EStateM ε σ α) s) := Std.Refl.refl s

theorem throw [Std.Refl R] (e : ε) : Follows R s ((throw e : EStateM ε σ α) s) := Std.Refl.refl s

/-- What follows a state follows those before it. -/
theorem after [IsTrans σ R] (h : R s t) {r : EStateM.Result ε σ α} (hr : Follows R t r) :
    Follows R s r :=
  hr.mono (fun _ _ hu => IsTrans.trans _ _ _ h hu) fun _ _ hu => IsTrans.trans _ _ _ h hu

theorem bind [IsTrans σ R] {x : EStateM ε σ β} {f : β → EStateM ε σ α} (hx : Follows R s (x s))
    (hf : ∀ b t, R s t → Follows R t (f b t)) : Follows R s ((x >>= f) s) :=
  ends_bind.mpr (hx.mono (fun b t ht => (hf b t ht).after ht) fun _ _ h => h)

theorem get {f : σ → EStateM ε σ α} (h : Follows R s (f s s)) :
    Follows R s ((get >>= f : EStateM ε σ α) s) := h

theorem modify {f : σ → σ} (h : R s (f s)) :
    Follows R s ((modify f : EStateM ε σ Unit) s) := h

theorem ite {c : Prop} [Decidable c] {x y : EStateM ε σ α} (hx : c → Follows R s (x s))
    (hy : ¬c → Follows R s (y s)) : Follows R s ((if c then x else y) s) :=
  ends_ite.mpr ⟨hx, hy⟩

theorem mono {R' : σ → σ → Prop} {r : EStateM.Result ε σ α} (h : Follows R s r)
    (hR : ∀ t, R s t → R' s t) : Follows R' s r :=
  Ends.mono h (fun _ t => hR t) fun _ t => hR t

end Follows
