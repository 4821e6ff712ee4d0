import H2Proxy.Lib.Bits
import H2Proxy.Proxy.Health

/-
  Power of two choices (`core/src/lb.rs`): draw two candidates, take the less loaded.

  The draws never collide (`draws_spec`), so the pick is never the most loaded candidate, and
  the generator never falls into its fixed point (`two_choices`).
-/

namespace H2Proxy

/-- The balancer: the state of its generator. -/
structure PowerOfTwoChoices where
  state : UInt64
deriving DecidableEq

namespace PowerOfTwoChoices

def seeded (seed : UInt64) : PowerOfTwoChoices := ⟨seed⟩

def new : PowerOfTwoChoices := seeded 0x2545f4914f6cdd1d

/-- One round of xorshift64. -/
def next (lb : PowerOfTwoChoices) : UInt64 × PowerOfTwoChoices :=
  let x := lb.state
  let x := x ^^^ (x <<< 13)
  let x := x ^^^ (x >>> 7)
  let x := x ^^^ (x <<< 17)
  (x, ⟨x⟩)

/-- The less loaded of two candidates, the first where they are even. -/
def lighter (a b : BackendLoad) : BackendLoad := if a.outstanding ≤ b.outstanding then a else b

def pick (candidates : List BackendLoad) (lb : PowerOfTwoChoices) :
    Option Backend × PowerOfTwoChoices :=
  match candidates with
  | [] => (none, lb)
  | [only] => (some only.backend, lb)
  | one :: other :: rest =>
    let n := rest.length + 2
    let (x, lb) := lb.next
    let first := x.toNat % n
    let (y, lb) := lb.next
    let drawn := y.toNat % (n - 1)
    let second := if drawn ≥ first then drawn + 1 else drawn
    -- Both are in range, so the defaults are never taken.
    let a := (one :: other :: rest).getD first one
    let b := (one :: other :: rest).getD second one
    (some (lighter a b).backend, lb)

theorem getD_mem {α : Type} {xs : List α} {x : α} (hx : x ∈ xs) (i : Nat) : xs.getD i x ∈ xs := by
  rw [List.getD_eq_getElem?_getD]
  cases h : xs[i]? with
  | none => exact hx
  | some y => exact List.mem_of_getElem? h

theorem lighter_mem {candidates : List BackendLoad} {a b : BackendLoad} (ha : a ∈ candidates)
    (hb : b ∈ candidates) : lighter a b ∈ candidates := by
  unfold lighter
  split
  · exact ha
  · exact hb

/-- The backend picked is one of the candidates. -/
theorem pick_mem {candidates : List BackendLoad} {lb : PowerOfTwoChoices} {b : Backend}
    (h : (pick candidates lb).1 = some b) : ∃ c ∈ candidates, c.backend = b := by
  match candidates with
  | [] => cases h
  | [only] =>
    cases h
    exact ⟨only, List.mem_singleton_self _, rfl⟩
  | one :: other :: rest =>
    exact ⟨_, lighter_mem (getD_mem List.mem_cons_self _) (getD_mem List.mem_cons_self _),
      Option.some.inj h⟩

/-! ## The generator -/

/-- A round of the generator loses nothing. -/
theorem next_injective : Function.Injective fun lb : PowerOfTwoChoices => lb.next.2 := by
  intro lb lb' same
  obtain ⟨x⟩ := lb
  obtain ⟨y⟩ := lb'
  have words := congrArg (fun lb => lb.state.toBitVec) same
  have left13 := Bits.xor_shiftLeft_injective (w := 64) (k := 13) (by decide)
  have right7 := Bits.xor_shiftRight_injective (w := 64) (k := 7) (by decide)
  have left17 := Bits.xor_shiftLeft_injective (w := 64) (k := 17) (by decide)
  have bits : x.toBitVec = y.toBitVec := left13 (right7 (left17 words))
  exact congrArg PowerOfTwoChoices.mk (UInt64.toBitVec_inj.mp bits)

/-- Zero is the only state that the generator takes to zero. -/
theorem next_ne_zero {lb : PowerOfTwoChoices} (h : lb.state ≠ 0) : lb.next.2.state ≠ 0 := by
  intro zero
  have stuck : (⟨0⟩ : PowerOfTwoChoices).next.2 = ⟨0⟩ := by decide
  have same : lb.next.2 = (⟨0⟩ : PowerOfTwoChoices).next.2 := by
    rw [stuck]
    exact congrArg PowerOfTwoChoices.mk zero
  exact h (congrArg PowerOfTwoChoices.state (next_injective same))

/-! ## The draws -/

/-- The two candidates that `pick` draws out of `n`. -/
def draws (n : Nat) (lb : PowerOfTwoChoices) : Nat × Nat :=
  let first := lb.next.1.toNat % n
  let drawn := lb.next.2.next.1.toNat % (n - 1)
  (first, if drawn ≥ first then drawn + 1 else drawn)

/-- Both draws are candidates, and never the same one. -/
theorem draws_spec {n : Nat} (two : 2 ≤ n) (lb : PowerOfTwoChoices) :
    (draws n lb).1 < n ∧ (draws n lb).2 < n ∧ (draws n lb).1 ≠ (draws n lb).2 := by
  have first : lb.next.1.toNat % n < n := Nat.mod_lt _ (by omega)
  have drawn : lb.next.2.next.1.toNat % (n - 1) < n - 1 := Nat.mod_lt _ (by omega)
  unfold draws
  dsimp only
  split
  · omega
  · omega

/-- `pick` compares the two draws. -/
theorem pick_draws {candidates : List BackendLoad} (lb : PowerOfTwoChoices)
    (hi : (draws candidates.length lb).1 < candidates.length)
    (hj : (draws candidates.length lb).2 < candidates.length) (two : 2 ≤ candidates.length) :
    pick candidates lb = (some (lighter candidates[(draws candidates.length lb).1]
      candidates[(draws candidates.length lb).2]).backend, lb.next.2.next.2) := by
  match candidates with
  | [] => cases hi
  | [only] => exact absurd two (by simp)
  | one :: other :: rest =>
    rw [← List.getD_eq_getElem _ one hi, ← List.getD_eq_getElem _ one hj]
    rfl

/-- The balancer after it picked from each of these. -/
def afterPicks (slices : List (List BackendLoad)) (lb : PowerOfTwoChoices) : PowerOfTwoChoices :=
  slices.foldl (fun lb candidates => (pick candidates lb).2) lb

theorem pick_ne_zero {lb : PowerOfTwoChoices} (h : lb.state ≠ 0) (candidates : List BackendLoad) :
    (pick candidates lb).2.state ≠ 0 := by
  match candidates with
  | [] => exact h
  | [only] => exact h
  | one :: other :: rest => exact next_ne_zero (next_ne_zero h)

theorem afterPicks_ne_zero (slices : List (List BackendLoad)) {lb : PowerOfTwoChoices}
    (h : lb.state ≠ 0) : (afterPicks slices lb).state ≠ 0 := by
  induction slices generalizing lb with
  | nil => exact h
  | cons candidates slices ih => exact ih (pick_ne_zero h candidates)

/-- After any number of picks the generator runs on, and a pick out of two candidates or more
takes one of two different draws, the other at least as loaded: never a candidate loaded more
than every other. -/
theorem two_choices (lb : PowerOfTwoChoices) (alive : lb.state ≠ 0)
    (slices : List (List BackendLoad)) :
    (afterPicks slices lb).state ≠ 0 ∧
      ∀ candidates : List BackendLoad, 2 ≤ candidates.length →
        ∃ (i j : Nat) (hi : i < candidates.length) (hj : j < candidates.length), i ≠ j ∧
          (draws candidates.length (afterPicks slices lb) = (i, j) ∨
            draws candidates.length (afterPicks slices lb) = (j, i)) ∧
          (pick candidates (afterPicks slices lb)).1 = some candidates[i].backend ∧
          candidates[i].outstanding ≤ candidates[j].outstanding ∧
          ∀ (k : Nat) (hk : k < candidates.length), (∀ (l : Nat) (hl : l < candidates.length),
            l ≠ k → candidates[l].outstanding < candidates[k].outstanding) → k ≠ i := by
  refine ⟨afterPicks_ne_zero slices alive, fun candidates two => ?_⟩
  obtain ⟨hi, hj, apart⟩ := draws_spec two (afterPicks slices lb)
  have picked := pick_draws (afterPicks slices lb) hi hj two
  generalize draws candidates.length (afterPicks slices lb) = drawn at hi hj apart picked ⊢
  obtain ⟨i, j⟩ := drawn
  dsimp only at hi hj apart picked
  rw [picked]
  -- whichever of the two is taken, the other is no less loaded
  have heaviest : ∀ i j (hi : i < candidates.length) (hj : j < candidates.length), i ≠ j →
      candidates[i].outstanding ≤ candidates[j].outstanding →
      ∀ (k : Nat) (hk : k < candidates.length), (∀ (l : Nat) (hl : l < candidates.length),
        l ≠ k → candidates[l].outstanding < candidates[k].outstanding) → k ≠ i := by
    rintro i j hi hj apart le k hk most rfl
    exact absurd (most j hj (Ne.symm apart)) (Nat.not_lt_of_le le)
  unfold lighter
  split
  · rename_i le
    exact ⟨i, j, hi, hj, apart, .inl rfl, rfl, le, heaviest i j hi hj apart le⟩
  · rename_i more
    have le : candidates[j].outstanding ≤ candidates[i].outstanding :=
      Nat.le_of_lt (Nat.lt_of_not_le more)
    exact ⟨j, i, hj, hi, Ne.symm apart, .inr rfl, rfl, le,
      heaviest j i hj hi (Ne.symm apart) le⟩

/-- The idle one of two backends is taken, after a pick from three. -/
theorem two_choices_idle :
    (pick [⟨⟨1⟩, 10⟩, ⟨⟨2⟩, 0⟩] (afterPicks [[⟨⟨1⟩, 5⟩, ⟨⟨2⟩, 5⟩, ⟨⟨3⟩, 5⟩]] new)).1 = some ⟨2⟩ := by
  obtain ⟨-, picks⟩ := two_choices new (by decide) [[⟨⟨1⟩, 5⟩, ⟨⟨2⟩, 5⟩, ⟨⟨3⟩, 5⟩]]
  obtain ⟨i, j, hi, hj, -, -, picked, -, most⟩ :=
    picks [⟨⟨1⟩, 10⟩, ⟨⟨2⟩, 0⟩] (by decide)
  rw [picked]
  have first : 0 ≠ i := most 0 (by decide) fun l hl other => by
    obtain rfl : l = 1 := by simp at hl; omega
    exact show 0 < 10 by decide
  obtain rfl : i = 1 := by simp at hi; omega
  rfl

end PowerOfTwoChoices

end H2Proxy
