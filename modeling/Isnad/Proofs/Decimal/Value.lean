import Isnad.Decimal.Basic
import Mathlib.Algebra.Order.Field.Rat
import Mathlib.Tactic.FieldSimp
import Mathlib.Tactic.Positivity
import Mathlib.Tactic.Ring

/-!
# The numbers that decimals stand for

Decimals are compared by what they stand for (`le_iff_toRat`), whatever their scales.
-/

namespace Isnad

theorem pow10_eq (n : Nat) : pow10 n = 10 ^ n := rfl

theorem pow2_eq (n : Nat) : pow2 n = 2 ^ n := rfl

namespace Decimal

/-- The exact value. -/
def toRat (x : Decimal) : ℚ := x.mantissa / 10 ^ x.scale

@[simp] theorem toRat_zero : zero.toRat = 0 := by simp [toRat, mantissa, zero]

@[simp] theorem toRat_one : one.toRat = 1 := by simp [toRat, mantissa, one]

theorem le_iff_toRat {x y : Decimal} : x ≤ y ↔ x.toRat ≤ y.toRat := by
  rw [le_def, toRat, toRat, div_le_div_iff₀ (by positivity) (by positivity), pow10_eq, pow10_eq]
  norm_cast

protected theorem le_refl (x : Decimal) : x ≤ x := le_def.mpr (Int.le_refl _)

theorem lt_iff_toRat {x y : Decimal} : x < y ↔ x.toRat < y.toRat := by
  rw [← not_le, ← le_iff_toRat, ← not_lt, Decidable.not_not]

theorem inUnitInterval_iff_toRat {x : Decimal} :
    x.inUnitInterval = true ↔ 0 ≤ x.toRat ∧ x.toRat ≤ 1 := by
  simp [inUnitInterval, le_iff_toRat]

end Decimal
end Isnad
