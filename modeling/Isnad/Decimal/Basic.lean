import Isnad.Power

/-! # Fixed-point decimals -/

namespace Isnad

/-- The number `± coefficient / 10 ^ scale`, with the scale kept as it was written. A zero has a
sign as well, which only its text shows. -/
structure Decimal where
  negative : Bool
  coefficient : Nat
  scale : Nat
  coefficient_lt : coefficient < pow2 96
  scale_le : scale ≤ 28
deriving DecidableEq, Repr

namespace Decimal

/-- The largest scale. -/
def maxScale : Nat := 28

/-- Coefficients stay below this bound. -/
def coefficientBound : Nat := pow2 96

/-- The decimal of a sign, a coefficient and a scale, if these are in range. -/
def mk? (negative : Bool) (coefficient scale : Nat) : Option Decimal :=
  if h : coefficient < pow2 96 ∧ scale ≤ 28 then some ⟨negative, coefficient, scale, h.1, h.2⟩
  else none

theorem mk?_eq_some_iff {b : Bool} {n s : Nat} {x : Decimal} :
    mk? b n s = some x ↔ x.negative = b ∧ x.coefficient = n ∧ x.scale = s := by
  unfold mk?
  constructor
  · intro h
    split at h
    · cases h
      exact ⟨rfl, rfl, rfl⟩
    · cases h
  · rintro ⟨rfl, rfl, rfl⟩
    exact dif_pos ⟨x.coefficient_lt, x.scale_le⟩

@[simp] theorem mk?_self (x : Decimal) : mk? x.negative x.coefficient x.scale = some x :=
  mk?_eq_some_iff.mpr ⟨rfl, rfl, rfl⟩

/-- The coefficient with its sign. -/
def mantissa (x : Decimal) : Int := if x.negative then -(x.coefficient : Int) else x.coefficient

/-- A whole number. -/
def ofInt? (n : Int) : Option Decimal := mk? (n < 0) n.natAbs 0

def zero : Decimal := ⟨false, 0, 0, by decide, by decide⟩
def one : Decimal := ⟨false, 1, 0, by decide, by decide⟩

/-- The number `n / 100` with two places. -/
def percent (n : Nat) (h : n ≤ 100) : Decimal :=
  ⟨false, n, 2, Nat.lt_of_le_of_lt h (by decide : 100 < pow2 96), by decide⟩

instance : Inhabited Decimal := ⟨zero⟩

/-- Order by value, whatever the scales. -/
instance : LE Decimal where
  le x y := x.mantissa * pow10 y.scale ≤ y.mantissa * pow10 x.scale

instance : LT Decimal where
  lt x y := x.mantissa * pow10 y.scale < y.mantissa * pow10 x.scale

instance (x y : Decimal) : Decidable (x ≤ y) :=
  inferInstanceAs (Decidable (x.mantissa * pow10 y.scale ≤ y.mantissa * pow10 x.scale))

instance (x y : Decimal) : Decidable (x < y) :=
  inferInstanceAs (Decidable (x.mantissa * pow10 y.scale < y.mantissa * pow10 x.scale))

theorem le_def {x y : Decimal} :
    x ≤ y ↔ x.mantissa * pow10 y.scale ≤ y.mantissa * pow10 x.scale := Iff.rfl

theorem lt_def {x y : Decimal} :
    x < y ↔ x.mantissa * pow10 y.scale < y.mantissa * pow10 x.scale := Iff.rfl

theorem not_lt {x y : Decimal} : ¬ x < y ↔ y ≤ x := by
  rw [lt_def, le_def, Int.not_lt]

/-- From zero to one, both included. -/
def inUnitInterval (x : Decimal) : Bool := zero ≤ x && x ≤ one

end Decimal
end Isnad
