import Isnad.Decimal.Basic
import Isnad.Text.Blank
import Isnad.Text.Digits

/-! # Reading a decimal

A numeral is digits with at most one point, after an optional sign; an underscore may stand
anywhere after the first digit. Digits are taken while they fit; the first that does not is
rounded away. An exponent moves the point. A numeral of zeros has no sign; a number that an exponent
rounds to zero keeps its own. -/

namespace Isnad.Decimal

open Text

/-- The coefficient and scale rounded by the digit `next`, the first that does not fit. A
coefficient that no longer fits gives up a digit of its fraction. -/
def roundBy (coefficient scale next : Nat) : Option (Nat × Nat) :=
  if next < 5 then some (coefficient, scale)
  else if coefficient + 1 < coefficientBound then some (coefficient + 1, scale)
  else if scale = 0 then none
  else some ((coefficient + 5) / 10, scale - 1)

/-- What may follow the last digit that counts. -/
def isFiller (c : Char) : Bool := c.isDigit || c = '_'

/-- A coefficient is short if its digits but the last make a number below this bound. -/
def shortBound : Nat := pow2 64 / 10 - 255

/-- The coefficient and scale rounded by what follows the last place. Underscores in front of the
first digit there are skipped; after a short coefficient the first of them counts as a zero. -/
def roundByRest (coefficient scale : Nat) (rest : List Char) : Option (Nat × Nat) :=
  if rest.all isFiller then
    let next := if coefficient / 10 < shortBound then rest.head? else rest.find? (· ≠ '_')
    roundBy coefficient scale ((next.bind digit?).getD 0)
  else none

/-- Coefficient and scale of a numeral without its sign. The first two arguments say whether the
point and a digit were seen. -/
def scan (point started : Bool) (coefficient scale : Nat) : List Char → Option (Nat × Nat)
  | [] => if started then some (coefficient, scale) else none
  | c :: cs =>
    if point && scale = maxScale then roundByRest coefficient scale (c :: cs)
    else if c = '.' then
      if point then none else scan true started coefficient scale cs
    else if c = '_' then
      if started then scan point true coefficient scale cs else none
    else
      match digit? c with
      | none => none
      | some d =>
        if 10 * coefficient + d < coefficientBound then
          scan point true (10 * coefficient + d) (if point then scale + 1 else scale) cs
        else if point && cs.all isFiller then roundBy coefficient scale d
        else none

/-- The decimal of a coefficient and a scale with the given sign, which a zero does not take. -/
def signed? (negative : Bool) : Option (Nat × Nat) → Option Decimal
  | some (n, s) => mk? (negative && n != 0) n s
  | none => none

/-- Whether a sign is negative, no sign being positive, and what follows it. -/
def splitSign : List Char → Bool × List Char
  | '-' :: cs => (true, cs)
  | '+' :: cs => (false, cs)
  | cs => (false, cs)

/-- A numeral without an exponent. -/
def plain? (cs : List Char) : Option Decimal :=
  let (negative, body) := splitSign cs
  signed? negative (scan false false 0 0 body)

/-- Coefficient and scale of `x` rounded to `scale` places, a half away from zero; those of `x`
itself if it has no more places. -/
def rounded (x : Decimal) (scale : Nat) : Nat × Nat :=
  if x.scale ≤ scale then (x.coefficient, x.scale)
  else
    let unit := pow10 (x.scale - scale)
    ((2 * x.coefficient + unit) / (2 * unit), scale)

/-- `x / 10 ^ n`. Places beyond the largest scale are rounded away. -/
def shiftDown? (x : Decimal) (n : Nat) : Option Decimal :=
  if maxScale < n then none
  else
    let (m, s) := x.rounded (maxScale - n)
    mk? x.negative m (s + n)

/-- `x * 10 ^ n`, in the places left of `x`. -/
def shiftUp? (x : Decimal) (n : Nat) : Option Decimal :=
  if n ≤ x.scale then mk? x.negative x.coefficient (x.scale - n)
  else if maxScale < n then none
  else mk? x.negative (x.coefficient * pow10 (n - x.scale)) 0

/-- Exponents are read below this bound. -/
def exponentBound : Nat := pow2 32

/-- `x` with its point moved by an exponent. -/
def shift? (x : Decimal) : List Char → Option Decimal
  | '-' :: ds => do x.shiftDown? (← naturalBelow? exponentBound ds)
  | ds => do x.shiftUp? (← naturalBelow? exponentBound ds)

/-- Whether an exponent starts here. -/
def isMark (c : Char) : Bool := c = 'e' || c = 'E'

/-- A numeral followed by an exponent. -/
def scientific? (cs : List Char) : Option Decimal :=
  match cs.dropWhile fun c => !isMark c with
  | [] => none
  | _ :: exponent => do (← plain? (cs.takeWhile fun c => !isMark c)).shift? exponent

/-- A numeral with or without an exponent. -/
def ofChars? (cs : List Char) : Option Decimal := plain? cs <|> scientific? cs

def ofString? (s : String) : Option Decimal := ofChars? s.toList

/-- A numeral between blanks. -/
def ofBlankPadded? (s : String) : Option Decimal := ofChars? (trim s.toList)

end Isnad.Decimal
