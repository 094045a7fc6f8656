import Isnad.Text.Digits
import Isnad.Timestamp.Basic

/-! # Writing timestamps -/

namespace Isnad.Timestamp

open Text

/-- Four digits; years outside 0 to 9999 carry a sign. -/
def yearChars (year : Int) : List Char :=
  if 0 ≤ year ∧ year ≤ 9999 then decimalPadded 4 year.natAbs
  else (if year < 0 then '-' else '+') :: decimalPadded 4 year.natAbs

/-- The fraction of a second in three, six or nine places, whichever is exact. -/
def fractionChars (nanosecond : Nat) : List Char :=
  if nanosecond = 0 then []
  else if nanosecond % 1000000 = 0 then '.' :: decimalPadded 3 (nanosecond / 1000000)
  else if nanosecond % 1000 = 0 then '.' :: decimalPadded 6 (nanosecond / 1000)
  else '.' :: decimalPadded 9 nanosecond

def toChars (t : Timestamp) : List Char :=
  yearChars t.date.year ++ '-' :: decimalPadded 2 t.date.month ++
    '-' :: decimalPadded 2 t.date.day ++ 'T' :: decimalPadded 2 t.hour ++
    ':' :: decimalPadded 2 t.minute ++ ':' :: decimalPadded 2 t.second ++
    fractionChars t.nanosecond ++ ['Z']

def toString (t : Timestamp) : String := String.ofList t.toChars

end Isnad.Timestamp
