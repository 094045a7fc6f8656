import Isnad.Binary64.Basic

/-! # The fewest decimal digits that read back

The reals nearer to a number than to its neighbours form an interval. A decimal grid with a point
in that interval has one of the number's two neighbours on the grid in it, so the coarsest such
grid is found by trying one digit, then two, and so on. Seventeen always suffice. -/

namespace Isnad.Binary64

/-- The magnitude and the ends of its rounding interval, over a common denominator. -/
structure Bounds where
  low : Nat
  value : Nat
  high : Nat
  den : Nat
  closed : Bool

/-- The gap below a power of two is half the gap above it. -/
def bounds (x : Binary64) : Bounds :=
  let unit := pow2 (x.exponent - 2).toNat
  let below := if x.significand = pow2 52 ∧ x.exponent ≠ -1074 then 1 else 2
  { low := (4 * x.significand - below) * unit
    value := 4 * x.significand * unit
    high := (4 * x.significand + 2) * unit
    den := pow2 (2 - x.exponent).toNat
    closed := x.significand % 2 = 0 }

/-- Whether `digits * 10 ^ power` lies in the interval. -/
def Bounds.has (b : Bounds) (digits : Nat) (power : Int) : Bool :=
  let n := digits * pow10 power.toNat * b.den
  let s := pow10 (-power).toNat
  if b.closed then b.low * s ≤ n && n ≤ b.high * s else b.low * s < n && n < b.high * s

/-- The exponent of the leading decimal digit. -/
def leadingPower (b : Bounds) : Int :=
  let guess := ((b.value.log2 : Int) - (b.den.log2 : Int)) * 30103 / 100000
  let reaches := fun (e : Int) => decide (pow10 e.toNat * b.den ≤ b.value * pow10 (-e).toNat)
  if reaches (guess + 1) then guess + 1 else if reaches guess then guess else guess - 1

/-- Which way a number goes that lies halfway between two points of the grid. -/
inductive Tie where
  | even
  | up
deriving DecidableEq, Repr

/-- The point of the grid of step `10 ^ power` that is nearest to the number among those in the
interval. -/
def Bounds.onGrid? (b : Bounds) (tie : Tie) (power : Int) : Option Nat :=
  let n := b.value * pow10 (-power).toNat
  let d := b.den * pow10 power.toNat
  let q := n / d
  let r := n % d
  let upper := match tie with
    | .even => d < 2 * r || (2 * r = d && q % 2 = 1)
    | .up => d ≤ 2 * r
  match b.has q power, b.has (q + 1) power with
  | true, true => some (if upper then q + 1 else q)
  | true, false => some q
  | false, true => some (q + 1)
  | false, false => none

/-- The first grid with a hit, from the one of step `10 ^ power` on. -/
def Bounds.search (b : Bounds) (tie : Tie) : Nat → Int → Nat × Int
  | 0, power => (b.value * pow10 (-power).toNat / (b.den * pow10 power.toNat), power)
  | n + 1, power =>
    match b.onGrid? tie power with
    | some digits => (digits, power)
    | none => b.search tie n (power - 1)

/-- The number without trailing zeros, each moved to the exponent. -/
def trimZeros : Nat → Nat → Int → Nat × Int
  | 0, digits, power => (digits, power)
  | n + 1, digits, power =>
    if digits % 10 = 0 ∧ digits ≠ 0 then trimZeros n (digits / 10) (power + 1) else (digits, power)

/-- Digits and exponent of the shortest decimal that reads back as `x`, the nearest such. -/
def shortest (tie : Tie) (x : Binary64) : Nat × Int :=
  if x.isZero then (0, 0)
  else
    let b := x.bounds
    let (digits, power) := b.search tie 17 (leadingPower b)
    trimZeros 17 digits power

end Isnad.Binary64
