import Mathlib.Algebra.BigOperators.Group.Finset.Basic
import Mathlib.Algebra.Order.BigOperators.Group.Finset
import Mathlib.Algebra.Order.Ring.Nat
import Mathlib.Tactic.Common

/-!
# Ranks of systems with parts

The rank of a system with finitely many parts is the sum of the ranks of its parts.  A step
of one part changes one summand; a step that reaches every part raises each by a bounded
amount.
-/

namespace Transition

variable {ι : Type*} {f g : ι → ℕ} {parts : Finset ι} {i : ι} {n : ℕ}

/-- Only the rank of one part changes, and it falls by at least `n`. -/
theorem sum_add_le_of_part [DecidableEq ι] (hi : i ∈ parts) (hother : ∀ j ≠ i, f j = g j)
    (hpart : f i + n ≤ g i) : ∑ j ∈ parts, f j + n ≤ ∑ j ∈ parts, g j := by
  have hrest : ∑ j ∈ parts.erase i, f j = ∑ j ∈ parts.erase i, g j :=
    Finset.sum_congr rfl fun j hj => hother j (Finset.ne_of_mem_erase hj)
  rw [← Finset.add_sum_erase parts f hi, ← Finset.add_sum_erase parts g hi, hrest]
  omega

/-- Every part may rise by `n`. -/
theorem sum_le_add_card_mul (parts : Finset ι) (hpart : ∀ j, f j ≤ g j + n) :
    ∑ j ∈ parts, f j ≤ ∑ j ∈ parts, g j + parts.card * n := by
  calc ∑ j ∈ parts, f j ≤ ∑ j ∈ parts, (g j + n) := Finset.sum_le_sum fun j _ => hpart j
    _ = ∑ j ∈ parts, g j + parts.card * n := by
      rw [Finset.sum_add_distrib, Finset.sum_const, nsmul_eq_mul, Nat.cast_id]

end Transition
