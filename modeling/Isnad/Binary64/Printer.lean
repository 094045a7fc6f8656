import Isnad.Binary64.Shortest
import Isnad.Text.Digits

/-! # Writing binary64 numbers -/

namespace Isnad.Binary64

open Text

/-- How a number is laid out around its shortest digits. -/
structure Layout where
  tie : Tie
  /-- Leading exponents outside this range are written with an exponent. -/
  positional : Option (Int × Int)
  /-- Whole numbers keep a point and a zero. -/
  keepsPoint : Bool

/-- Numbers in documents: positional from `1e-5` up to below `1e16`. -/
def documentLayout : Layout := ⟨.even, some (-5, 15), true⟩

/-- Numbers as plain digits, never with an exponent. -/
def plainLayout : Layout := ⟨.up, none, false⟩

/-- Digits with the point where the exponent puts it. -/
def positionalChars (keepsPoint : Bool) (digits : Nat) (power : Int) : List Char :=
  if 0 ≤ power then
    decimal digits ++ List.replicate power.toNat '0' ++ (if keepsPoint then ['.', '0'] else [])
  else
    let places := (-power).toNat
    let ds := decimalPadded (places + 1) digits
    ds.take (ds.length - places) ++ '.' :: ds.drop (ds.length - places)

/-- One digit before the point, and the exponent of that digit with its sign. -/
def exponentChars (digits : Nat) (leading : Int) : List Char :=
  let point := match decimal digits with
    | d :: e :: ds => d :: '.' :: e :: ds
    | ds => ds
  point ++ 'e' :: (if leading < 0 then '-' else '+') :: decimal leading.natAbs

def toChars (layout : Layout) (x : Binary64) : List Char :=
  let (digits, power) := x.shortest layout.tie
  let leading := power + ((decimal digits).length : Int) - 1
  let isPositional := match layout.positional with
    | some (low, high) => low ≤ leading && leading ≤ high
    | none => true
  (if x.negative then ['-'] else []) ++
    if isPositional then positionalChars layout.keepsPoint digits power
    else exponentChars digits leading

end Isnad.Binary64
