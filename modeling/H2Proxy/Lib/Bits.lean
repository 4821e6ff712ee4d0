import Mathlib.Algebra.Ring.Nat
import Mathlib.Data.Nat.Bitwise

/-
  Numbers as strings of bits, most significant first: what shifting, or-ing in and
  truncating an accumulator do to the bits in it, and what a word's xor with a shift of
  itself keeps of it.
-/

namespace Bits

/-- The `n` low bits of `x`, most significant first. -/
def low (x : Nat) : Nat → List Bool
  | 0 => []
  | n + 1 => x.testBit n :: low x n

theorem length_low (x n : Nat) : (low x n).length = n := by
  induction n with
  | zero => rfl
  | succ n ih => rw [low, List.length_cons, ih]

theorem low_congr {x y n : Nat} (h : ∀ i < n, x.testBit i = y.testBit i) :
    low x n = low y n := by
  induction n with
  | zero => rfl
  | succ n ih =>
    have htail : low x n = low y n := ih fun i hi => h i (by omega)
    rw [low, low, h n (by omega), htail]

/-- The low bits tell numbers below `2 ^ n` apart. -/
theorem eq_of_low_eq {x y n : Nat} (hx : x < 2 ^ n) (hy : y < 2 ^ n) (h : low x n = low y n) :
    x = y := by
  have hbits : ∀ m, low x m = low y m → ∀ i < m, x.testBit i = y.testBit i := by
    intro m
    induction m with
    | zero => omega
    | succ m ih =>
      intro h i hi
      rw [low, low] at h
      obtain ⟨hhead, htail⟩ := List.cons.inj h
      obtain hlast | hlow := Nat.lt_succ_iff_lt_or_eq.mp hi |>.symm
      · rw [hlast]
        exact hhead
      · exact ih htail i hlow
  refine Nat.eq_of_testBit_eq fun i => ?_
  by_cases hi : i < n
  · exact hbits n h i hi
  · have hpow : 2 ^ n ≤ 2 ^ i := Nat.pow_le_pow_right (by decide) (by omega)
    rw [Nat.testBit_lt_two_pow (by omega), Nat.testBit_lt_two_pow (by omega)]

theorem low_mod (x : Nat) {n w : Nat} (h : n ≤ w) : low (x % 2 ^ w) n = low x n := by
  refine low_congr fun i hi => ?_
  have hiw : i < w := by omega
  simp [Nat.testBit_mod_two_pow, hiw]

/-- Splitting the bits at `k`. -/
theorem low_add (x n k : Nat) : low x (n + k) = low (x >>> k) n ++ low x k := by
  induction n with
  | zero => simp [low]
  | succ n ih =>
    have hbit : x.testBit (n + k) = (x >>> k).testBit n := by
      rw [Nat.testBit_shiftRight, Nat.add_comm]
    rw [show n + 1 + k = (n + k) + 1 by omega, low, low, ih, hbit]
    rfl

/-- Appending `len` bits to an accumulator. -/
theorem low_shiftLeft_or (x c n : Nat) {len : Nat} (h : c < 2 ^ len) :
    low (x <<< len ||| c) (n + len) = low x n ++ low c len := by
  have hhigh : (x <<< len ||| c) >>> len = x := by
    rw [Nat.shiftRight_or_distrib, Nat.shiftLeft_shiftRight, Nat.shiftRight_eq_div_pow,
      Nat.div_eq_of_lt h, Nat.or_zero]
  have hlow : low (x <<< len ||| c) len = low c len := by
    refine low_congr fun i hi => ?_
    have hnot : ¬len ≤ i := by omega
    simp [Nat.testBit_or, Nat.testBit_shiftLeft, hnot]
  rw [low_add, hhigh, hlow]

theorem low_ones (n : Nat) : low (2 ^ n - 1) n = List.replicate n true := by
  have hall : ∀ k ≤ n, low (2 ^ n - 1) k = List.replicate k true := by
    intro k hk
    induction k with
    | zero => rfl
    | succ k ih =>
      have hbit : (2 ^ n - 1).testBit k = true := by
        rw [Nat.testBit_two_pow_sub_one]
        exact decide_eq_true (by omega)
      rw [low, hbit, ih (by omega), List.replicate_succ]
  exact hall n (Nat.le_refl n)

/-! ## Xor-shifts -/

/-- A word is told from its xor with its own left shift: the bits come back from the lowest up. -/
theorem xor_shiftLeft_injective {w k : Nat} (hk : 0 < k) :
    Function.Injective fun x : BitVec w => x ^^^ (x <<< k) := by
  intro x y same
  have bits : ∀ i < w, x.getLsbD i = y.getLsbD i := by
    intro i
    induction i using Nat.strongRecOn with
    | ind i ih =>
      intro hi
      have at_i := congrArg (BitVec.getLsbD · i) same
      simp only [BitVec.getLsbD_xor, BitVec.getLsbD_shiftLeft, hi, decide_true, Bool.true_and]
        at at_i
      by_cases low : i < k
      · simpa [low] using at_i
      · rw [ih (i - k) (by omega) (by omega)] at at_i
        simpa using at_i
  exact BitVec.eq_of_getLsbD_eq bits

/-- From its xor with its own right shift the bits come back from the highest down. -/
theorem xor_shiftRight_injective {w k : Nat} (hk : 0 < k) :
    Function.Injective fun x : BitVec w => x ^^^ (x >>> k) := by
  intro x y same
  have bits : ∀ n i, w ≤ i + n → x.getLsbD i = y.getLsbD i := by
    intro n
    induction n with
    | zero =>
      intro i (hi : w ≤ i)
      rw [BitVec.getLsbD_of_ge _ _ hi, BitVec.getLsbD_of_ge _ _ hi]
    | succ n ih =>
      intro i hi
      have at_i := congrArg (BitVec.getLsbD · i) same
      simp only [BitVec.getLsbD_xor, BitVec.getLsbD_ushiftRight] at at_i
      rw [ih (k + i) (by omega)] at at_i
      simpa using at_i
  exact BitVec.eq_of_getLsbD_eq fun i _ => bits w i (by omega)

end Bits
