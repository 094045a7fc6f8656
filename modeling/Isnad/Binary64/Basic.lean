import Isnad.Power

/-! # Finite binary64 numbers -/

namespace Isnad

/-- The number `± significand * 2 ^ exponent`, in the form with the least exponent. -/
structure Binary64 where
  negative : Bool
  significand : Nat
  exponent : Int
  significand_lt : significand < pow2 53
  exponent_ge : -1074 ≤ exponent
  exponent_le : exponent ≤ 971
  normal : pow2 52 ≤ significand ∨ exponent = -1074
deriving DecidableEq, Repr

namespace Binary64

/-- The number of a sign, a significand and an exponent, if it is in form. -/
def mk? (negative : Bool) (significand : Nat) (exponent : Int) : Option Binary64 :=
  if h : significand < pow2 53 ∧ -1074 ≤ exponent ∧ exponent ≤ 971 ∧
      (pow2 52 ≤ significand ∨ exponent = -1074) then
    some ⟨negative, significand, exponent, h.1, h.2.1, h.2.2.1, h.2.2.2⟩
  else none

/-- Zero, with either sign. -/
def zero (negative : Bool) : Binary64 :=
  ⟨negative, 0, -1074, by decide, by decide, by decide, .inr rfl⟩

def isZero (x : Binary64) : Bool := x.significand = 0

/-- The same magnitude with the given sign. -/
def withSign (x : Binary64) (negative : Bool) : Binary64 := { x with negative }

/-- The magnitude as a fraction. -/
def magnitude (x : Binary64) : Nat × Nat :=
  (x.significand * pow2 x.exponent.toNat, pow2 (-x.exponent).toNat)

/-- `num / den` to the nearest whole number, a half to the even neighbour. -/
def divNearest (num den : Nat) : Nat :=
  let q := num / den
  let r := num % den
  if 2 * r < den then q else if den < 2 * r then q + 1 else q + q % 2

/-- `num / (den * 2 ^ e)` as a fraction. -/
def scaled (num den : Nat) (e : Int) : Nat × Nat :=
  (num * pow2 (-e).toNat, den * pow2 e.toNat)

/-- The exponent at which `num / den` has a significand of 53 bits, or the least one. -/
def fittingExponent (num den : Nat) : Int :=
  let e : Int := max ((num.log2 : Int) - (den.log2 : Int) - 53) (-1074)
  let (n, d) := scaled num den e
  if n / d < pow2 53 then e else e + 1

/-- The magnitude nearest to `num / den`, a half going to the even significand; none if it is too
large. -/
def ofRatio? (num den : Nat) : Option Binary64 :=
  if num = 0 then some (zero false) else
  let e := fittingExponent num den
  let (n, d) := scaled num den e
  let m := divNearest n d
  if m = pow2 53 then mk? false (pow2 52) (e + 1) else mk? false m e

def ofNat? (n : Nat) : Option Binary64 := ofRatio? n 1

/-- The product of the magnitudes, rounded. -/
def mul? (x y : Binary64) : Option Binary64 :=
  ofRatio? (x.magnitude.1 * y.magnitude.1) (x.magnitude.2 * y.magnitude.2)

/-- The quotient of the magnitudes, rounded. -/
def div? (x y : Binary64) : Option Binary64 :=
  ofRatio? (x.magnitude.1 * y.magnitude.2) (x.magnitude.2 * y.magnitude.1)

/-- Powers of ten from this one on are out of range. -/
def powerLimit : Int := 310

/-- The magnitude nearest to `digits * 10 ^ exponent`. -/
def ofDecimal? (digits : Nat) (exponent : Int) : Option Binary64 :=
  let top := exponent + (Nat.toDigits 10 digits).length
  if digits = 0 ∨ top < -powerLimit - 20 then some (zero false)
  else if powerLimit < top then none
  else ofRatio? (digits * pow10 exponent.toNat) (pow10 (-exponent).toNat)

/-- The number nearest to `10 ^ k`. -/
def powerOfTen? (k : Nat) : Option Binary64 := ofNat? (pow10 k)

end Binary64
end Isnad
