import Isnad.Decimal.Basic
import Isnad.Text.Digits

/-! # Writing a decimal -/

namespace Isnad.Decimal

open Text

/-- All places of the scale are written, and at least one digit before the point. -/
def toChars (x : Decimal) : List Char :=
  let ds := decimalPadded (x.scale + 1) x.coefficient
  let whole := ds.take (ds.length - x.scale)
  let places := ds.drop (ds.length - x.scale)
  (if x.negative then ['-'] else []) ++ whole ++ (if places.isEmpty then [] else '.' :: places)

def toString (x : Decimal) : String := String.ofList x.toChars

end Isnad.Decimal
