import Isnad.Binary64.Basic

/-! # Binary64 numbers from digits and a power of ten

The digits that fit 64 bits make the significand. It is rounded, and the result is multiplied or
divided once by the rounded power of ten, so that long numerals can miss the nearest number. -/

namespace Isnad.Binary64

/-- Significands stay below this bound. -/
def significandBound : Nat := pow2 64

/-- The significand after as many digits as fit, and their number. -/
def absorb (significand : Nat) : List Nat → Nat × Nat
  | [] => (significand, 0)
  | d :: ds =>
    if 10 * significand + d < significandBound then
      let rest := absorb (10 * significand + d) ds
      (rest.1, rest.2 + 1)
    else (significand, 0)

/-- The largest power of ten in range. -/
def maxPower : Nat := 308

/-- `x * 10 ^ k`, if it is in range. -/
def scaleUp? (x : Binary64) (k : Nat) : Option Binary64 :=
  if x.isZero then some x
  else if maxPower < k then none
  else do x.mul? (← powerOfTen? k)

/-- `x` divided by the largest power of ten `n` times. -/
def shrink? : Nat → Binary64 → Option Binary64
  | 0, x => some x
  | n + 1, x => if x.isZero then some x else do shrink? n (← x.div? (← powerOfTen? maxPower))

/-- `x / 10 ^ k`. -/
def scaleDown? (x : Binary64) (k : Nat) : Option Binary64 :=
  if k = 0 then some x
  else do
    let y ← shrink? ((k - 1) / maxPower) x
    y.div? (← powerOfTen? ((k - 1) % maxPower + 1))

/-- The number of the given digits before and after the point, times `10 ^ exponent`. -/
def ofNumeral? (negative : Bool) (whole fraction : List Nat) (exponent : Int) :
    Option Binary64 := do
  let (high, taken) := absorb 0 whole
  let (significand, places) := absorb high fraction
  let shift := exponent + ((whole.length - taken : Nat) : Int) - (places : Int)
  let x ← ofNat? significand
  let y ← if 0 ≤ shift then x.scaleUp? shift.toNat else x.scaleDown? (-shift).toNat
  pure (y.withSign negative)

end Isnad.Binary64
