import Mathlib.Data.Nat.Log
import Mathlib.Tactic.Ring
import Mathlib.Tactic.Positivity

/-!
# Rounding to a number of bits

A natural number rounded to `p` significant bits, ties to even, as the significand of a
binary floating-point product is.  A multiple of the unit in the last place is not changed,
and the error is at most half a unit, which is `2 ^ p` times smaller than the number.
-/

namespace Rounding

variable {p n : ℕ}

/-- The unit in the last place of `n` when it is written with `p` significant bits. -/
def ulp (p n : ℕ) : ℕ := 2 ^ (n.log2 + 1 - p)

/-- `n` rounded to `p` significant bits, ties to even. -/
def roundTo (p n : ℕ) : ℕ :=
  let q := n / ulp p n
  let r := n % ulp p n
  if 2 * r < ulp p n then q * ulp p n
  else if ulp p n < 2 * r then (q + 1) * ulp p n
  else (q + q % 2) * ulp p n

theorem ulp_pos : 0 < ulp p n := Nat.pow_pos (by decide)

theorem roundTo_of_dvd (h : ulp p n ∣ n) : roundTo p n = n := by
  unfold roundTo
  rw [Nat.mod_eq_zero_of_dvd h]
  dsimp only
  rw [Nat.mul_zero, if_pos ulp_pos, Nat.div_mul_cancel h]

/-- The error is half a unit. -/
theorem two_mul_roundTo_le : 2 * roundTo p n ≤ 2 * n + ulp p n := by
  have hsplit : n / ulp p n * ulp p n + n % ulp p n = n := Nat.div_add_mod' n (ulp p n)
  unfold roundTo
  dsimp only
  split_ifs with hlow hhigh
  · omega
  · rw [Nat.add_mul]
    omega
  · have hodd : n / ulp p n % 2 ≤ 1 := by omega
    have hstep : n / ulp p n % 2 * ulp p n ≤ 1 * ulp p n := Nat.mul_le_mul_right _ hodd
    rw [Nat.add_mul]
    omega

/-- A unit above 1 is small beside the number. -/
theorem ulp_mul_le (hp : p ≤ n.log2) (hn : n ≠ 0) : ulp p n * 2 ^ p ≤ 2 * n := by
  calc ulp p n * 2 ^ p
    _ = 2 ^ (n.log2 + 1) := by
        rw [ulp, ← Nat.pow_add, Nat.sub_add_cancel (Nat.le_succ_of_le hp)]
    _ = 2 * 2 ^ n.log2 := by rw [Nat.pow_succ, Nat.mul_comm]
    _ ≤ 2 * n := Nat.mul_le_mul_left _ (Nat.log2_self_le hn)

/-- **The error in proportion to the number.** -/
theorem two_pow_mul_roundTo_le : 2 ^ p * roundTo p n ≤ (2 ^ p + 1) * n := by
  by_cases hp : p ≤ n.log2 ∧ n ≠ 0
  · have herror := Nat.mul_le_mul_left (2 ^ p) (two_mul_roundTo_le (p := p) (n := n))
    have hunit := ulp_mul_le hp.1 hp.2
    have hexpand : 2 ^ p * (2 * n + ulp p n) = 2 * (2 ^ p * n) + ulp p n * 2 ^ p := by ring
    have hfactor : (2 ^ p + 1) * n = 2 ^ p * n + n := by ring
    have hdouble : 2 ^ p * (2 * roundTo p n) = 2 * (2 ^ p * roundTo p n) := by ring
    omega
  · -- zero, and a number of at most `p` bits, is not rounded
    have hdvd : ulp p n ∣ n := by
      by_cases hn : n = 0
      · rw [hn]
        exact Nat.dvd_zero _
      · have hlog : n.log2 + 1 - p = 0 := by omega
        rw [ulp, hlog, Nat.pow_zero]
        exact Nat.one_dvd n
    rw [roundTo_of_dvd hdvd]
    exact Nat.mul_le_mul_right _ (Nat.le_succ _)

end Rounding
