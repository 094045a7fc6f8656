/-! # Runs of digits -/

namespace Isnad.Text

/-- The value of an ASCII decimal digit. -/
def digit? (c : Char) : Option Nat :=
  if c.isDigit then some (c.toNat - '0'.toNat) else none

/-- The value of an ASCII digit of base 16, in either case. -/
def hexDigit? (c : Char) : Option (Fin 16) :=
  if '0' ≤ c ∧ c ≤ '9' then some (Fin.ofNat 16 (c.toNat - '0'.toNat))
  else if 'a' ≤ c ∧ c ≤ 'f' then some (Fin.ofNat 16 (c.toNat - 'a'.toNat + 10))
  else if 'A' ≤ c ∧ c ≤ 'F' then some (Fin.ofNat 16 (c.toNat - 'A'.toNat + 10))
  else none

/-- The digit of base 16, in lower case. -/
def hexChar (d : Fin 16) : Char := Nat.digitChar d

@[simp] theorem hexDigit?_hexChar (d : Fin 16) : hexDigit? (hexChar d) = some d := by
  revert d
  decide

/-- The number that digits spell, the most significant first. -/
def ofDigits (base : Nat) (ds : List Nat) : Nat := ds.foldl (fun n d => base * n + d) 0

/-- The decimal digits of `n`, the most significant first. -/
def decimal (n : Nat) : List Char := Nat.toDigits 10 n

/-- The decimal digits of `n`, after zeros up to the given width. -/
def decimalPadded (width n : Nat) : List Char :=
  List.replicate (width - (decimal n).length) '0' ++ decimal n

/-- The digits of `n` in base 16, in lower case. -/
def hex (n : Nat) : List Char := Nat.toDigits 16 n

/-- The leading decimal digits, and what follows them. -/
def spanDigits : List Char → List Nat × List Char
  | [] => ([], [])
  | c :: cs =>
    match digit? c with
    | some d => let rest := spanDigits cs; (d :: rest.1, rest.2)
    | none => ([], c :: cs)

/-- At most `limit` leading decimal digits, and what follows them. -/
def spanDigitsUpTo : Nat → List Char → List Nat × List Char
  | 0, cs => ([], cs)
  | _ + 1, [] => ([], [])
  | limit + 1, c :: cs =>
    match digit? c with
    | some d => let rest := spanDigitsUpTo limit cs; (d :: rest.1, rest.2)
    | none => ([], c :: cs)

/-- A natural number below `bound`: digits after an optional plus sign, and nothing else. -/
def naturalBelow? (bound : Nat) (cs : List Char) : Option Nat :=
  let body := match cs with
    | '+' :: rest => rest
    | _ => cs
  match spanDigits body with
  | (d :: ds, []) =>
    let n := ofDigits 10 (d :: ds)
    if n < bound then some n else none
  | _ => none

end Isnad.Text
