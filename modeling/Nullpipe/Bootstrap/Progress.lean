import Nullpipe.Lib.Rounding
import Mathlib.Algebra.Order.Ring.Nat

/-!
# The percentage of a bootstrap status

arti publishes a status as an `f32` between 0 and 1; the forwarding task of
`TorBootstrap::bootstrap` turns it into a percentage,
`(status.as_frac() * 100.0).min(100.0) as u8`.

The question is which statuses become 100, since that number is taken for success.  The product
is rounded, and a fraction just below 1 might be rounded up to it.  It is not.  A fraction is a
natural number below `2 ^ 24` over a power of two; if it is less than 1, the hundredfold falls
short by at least a hundred units, and rounding adds at most the `2 ^ 24`-th part, which is less
(`timesHundred_lt`).  So only the fraction 1 becomes 100 (`percent_eq_hundred_iff`).

The rounding is `roundTo 24` of `Lib/Rounding.lean`.
-/

namespace Nullpipe

open Rounding

/-- An `f32` between 0 and 1: `mant / 2 ^ exp`. -/
structure Fraction where
  mant : ℕ
  exp : ℕ
  mant_lt : mant < 2 ^ 24
  exp_le : exp ≤ 149
  le_one : mant ≤ 2 ^ exp
  deriving DecidableEq

namespace Fraction

/-- The fraction 1. -/
def one : Fraction := ⟨1, 0, by decide, by decide, by decide⟩

/-- The status says that the bootstrap is complete. -/
def Full (f : Fraction) : Prop := f.mant = 2 ^ f.exp

instance (f : Fraction) : Decidable f.Full := inferInstanceAs (Decidable (_ = _))

/-- The `f32` product with 100.0, in units of `2 ^ -exp`. -/
def timesHundred (f : Fraction) : ℕ := roundTo 24 (f.mant * 100)

/-- `(frac * 100.0).min(100.0) as u8`. -/
def percent (f : Fraction) : UInt8 :=
  UInt8.ofNat (min f.timesHundred (100 * 2 ^ f.exp) / 2 ^ f.exp)

variable {f : Fraction}

theorem percent_toNat : f.percent.toNat = min f.timesHundred (100 * 2 ^ f.exp) / 2 ^ f.exp := by
  have hle : min f.timesHundred (100 * 2 ^ f.exp) / 2 ^ f.exp ≤ 100 := by
    calc min f.timesHundred (100 * 2 ^ f.exp) / 2 ^ f.exp
      _ ≤ 100 * 2 ^ f.exp / 2 ^ f.exp := Nat.div_le_div_right (Nat.min_le_right _ _)
      _ = 100 := Nat.mul_div_cancel _ (Nat.two_pow_pos _)
  rw [percent, UInt8.toNat_ofNat']
  exact Nat.mod_eq_of_lt (by omega)

/-- The whole is not rounded. -/
theorem timesHundred_of_full (h : f.Full) : f.timesHundred = 100 * 2 ^ f.exp := by
  have hprod : f.mant * 100 = 100 * 2 ^ f.exp := by rw [h, Nat.mul_comm]
  rw [timesHundred, hprod]
  refine roundTo_of_dvd (Dvd.dvd.mul_left (Nat.pow_dvd_pow 2 ?_) 100)
  have hlog : (100 * 2 ^ f.exp).log2 < f.exp + 7 := by
    refine (Nat.log2_lt (by positivity)).mpr ?_
    rw [Nat.pow_add]
    have := Nat.two_pow_pos f.exp
    omega
  omega

/-- A fraction below 1 stays below 100, whatever is rounded. -/
theorem timesHundred_lt (h : ¬ f.Full) : f.timesHundred < 100 * 2 ^ f.exp := by
  have hlt : f.mant < 2 ^ f.exp := lt_of_le_of_ne f.le_one h
  have hmant := f.mant_lt
  have herror : 2 ^ 24 * f.timesHundred ≤ (2 ^ 24 + 1) * (f.mant * 100) := two_pow_mul_roundTo_le
  omega

/-- **Only a full status is reported as 100 percent.** -/
theorem percent_eq_hundred_iff : f.percent = 100 ↔ f.Full := by
  rw [← UInt8.toNat_inj, percent_toNat]
  constructor
  · intro h
    by_contra hfull
    have hbelow : min f.timesHundred (100 * 2 ^ f.exp) / 2 ^ f.exp < 100 :=
      (Nat.div_lt_iff_lt_mul (Nat.two_pow_pos _)).mpr
        (lt_of_le_of_lt (Nat.min_le_left _ _) (timesHundred_lt hfull))
    exact absurd h (Nat.ne_of_lt hbelow)
  · intro hfull
    rw [timesHundred_of_full hfull, Nat.min_self, Nat.mul_div_cancel _ (Nat.two_pow_pos _)]
    rfl

end Fraction

end Nullpipe
