import H2Proxy.Lib.Ends
import Mathlib

/-
  Hoare triples about programs over `EStateM`, read as statements about their results.
-/

open Std.Do

variable {ε σ α : Type}

/-- A triple says how the program ends wherever its precondition holds. -/
theorem triple_iff_ends {x : EStateM ε σ α} {P : σ → Prop} {Q : α → σ → Prop} {E : ε → σ → Prop} :
    ⦃fun s => ⌜P s⌝⦄ x ⦃post⟨fun a s => ⌜Q a s⌝, fun e s => ⌜E e s⌝⟩⦄ ↔
      ∀ s, P s → Ends (x s) Q E := by
  have result : ∀ s, (wp⟦x⟧ post⟨fun a s => ⌜Q a s⌝, fun e s => ⌜E e s⌝⟩ s).down ↔
      Ends (x s) Q E := by
    intro s
    simp only [WP.wp, PredTrans.apply, EStateM.run]
    cases x s <;> rfl
  exact ⟨fun h s hs => (result s).mp (h s hs), fun h s hs => (result s).mpr (h s hs)⟩
