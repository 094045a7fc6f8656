import Isnad.Text.Digits

/-! # Identifiers of 32 digits in base 16 -/

namespace Isnad

/-- An identifier is its digits; how they were spelled is not kept. -/
structure Uuid where
  digits : List (Fin 16)
  length_eq : digits.length = 32
deriving DecidableEq, Repr

namespace Uuid

open Text

/-- The identifier of 32 digits. -/
def ofDigits? (ds : List (Fin 16)) : Option Uuid :=
  if h : ds.length = 32 then some ⟨ds, h⟩ else none

@[simp] theorem ofDigits?_digits (u : Uuid) : ofDigits? u.digits = some u := by
  simp [ofDigits?, u.length_eq]

/-- All characters read as digits of base 16. -/
def hexDigits? (cs : List Char) : Option (List (Fin 16)) := cs.mapM hexDigit?

/-- Digits without separators. -/
def simple? (cs : List Char) : Option Uuid := do ofDigits? (← hexDigits? cs)

/-- Digits in groups of 8, 4, 4, 4 and 12, joined by hyphens. -/
def hyphenated? (cs : List Char) : Option Uuid :=
  if cs.length = 36 ∧ [8, 13, 18, 23].all (fun i => cs[i]? = some '-') then
    simple? (cs.take 8 ++ (cs.drop 9).take 4 ++ (cs.drop 14).take 4 ++ (cs.drop 19).take 4 ++
      cs.drop 24)
  else none

/-- The characters that precede a hyphenated identifier in a name of the kind `urn`. -/
def urnStart : List Char := ['u', 'r', 'n', ':', 'u', 'u', 'i', 'd', ':']

/-- Whether the characters start a name of the kind `urn`, in lower or upper case. -/
def isUrn (cs : List Char) : Bool := (cs.take urnStart.length).map Char.toLower = urnStart

/-- An identifier: simple, hyphenated, or hyphenated in braces or after `urn:uuid:`. -/
def ofChars? (cs : List Char) : Option Uuid :=
  if cs.length = 32 then simple? cs
  else if cs.length = 38 ∧ cs.head? = some '\x7b' ∧ cs.getLast? = some '\x7d' then
    hyphenated? (cs.drop 1).dropLast
  else if isUrn cs then hyphenated? (cs.drop urnStart.length)
  else hyphenated? cs

def ofString? (s : String) : Option Uuid := ofChars? s.toList

/-- The hyphenated form in lower case. -/
def toChars (u : Uuid) : List Char :=
  let cs := u.digits.map hexChar
  cs.take 8 ++ '-' :: (cs.drop 8).take 4 ++ '-' :: (cs.drop 12).take 4 ++ '-' ::
    (cs.drop 16).take 4 ++ '-' :: cs.drop 20

def toString (u : Uuid) : String := String.ofList u.toChars

end Uuid
end Isnad
