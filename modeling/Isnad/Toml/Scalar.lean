import Isnad.Json.Written
import Isnad.Text.Digits
import Isnad.Timestamp.Reader

/-! # Numbers, truth values and dates of TOML -/

namespace Isnad.Toml

open Json (Written)
open Text

/-- Whether a character can be part of a value without delimiters. -/
def isScalarChar (c : Char) : Bool :=
  c.isAlphanum || c = '_' || c = '+' || c = '-' || c = '.' || c = ':'

/-- Digits with at most one underscore between two of them. -/
def separated? (digit : Char → Option Nat) : List Char → Option (List Nat)
  | [] => none
  | [c] => (digit c).map ([·])
  | c :: '_' :: cs => do some ((← digit c) :: (← separated? digit cs))
  | c :: cs => do some ((← digit c) :: (← separated? digit cs))

/-- Digits without needless zeros in front. -/
def whole? (cs : List Char) : Option (List Nat) :=
  match separated? digit? cs with
  | some (0 :: _ :: _) => none
  | ds => ds

/-- Splits off a sign. -/
def signed (cs : List Char) : Bool × List Char :=
  match cs with
  | '-' :: rest => (true, rest)
  | '+' :: rest => (false, rest)
  | _ => (false, cs)

/-- Whole numbers have 64 bits with a sign. -/
def ofInteger? (n : Int) : Option Written :=
  if -(pow2 63 : Int) ≤ n ∧ n < pow2 63 then some (.num (.int n)) else none

def decimalInteger? (cs : List Char) : Option Written := do
  let (negative, body) := signed cs
  let n : Int := ofDigits 10 (← whole? body)
  ofInteger? (if negative then -n else n)

/-- Digits of base 16, 8 or 2 after a mark of the base. -/
def prefixedInteger? : List Char → Option Written
  | '0' :: mark :: cs => do
    let base ← if mark = 'x' then some 16 else if mark = 'o' then some 8
      else if mark = 'b' then some 2 else none
    let digit : Char → Option Nat := fun c => (hexDigit? c).map Fin.val |>.filter (· < base)
    ofInteger? (ofDigits base (← separated? digit cs))
  | _ => none

/-- The parts before and after the first character that satisfies `p`; the second part is none if
there is no such character. -/
def splitFirst (p : Char → Bool) (cs : List Char) : List Char × Option (List Char) :=
  (cs.takeWhile fun c => !p c,
    match cs.dropWhile fun c => !p c with
    | [] => none
    | _ :: rest => some rest)

/-- A number with a fraction, an exponent or both. One that is too small for the binary64 numbers
holds no value, and one that is too large is refused. -/
def float? (cs : List Char) : Option Written := do
  let (negative, body) := signed cs
  let (numeral, exponent) := splitFirst (fun c => c = 'e' || c = 'E') body
  let (whole, fraction) := splitFirst (· = '.') numeral
  if exponent.isNone && fraction.isNone then none
  else
    let high ← whole? whole
    let low ← match fraction with
      | some ds => separated? digit? ds
      | none => some []
    let power : Int ← match exponent with
      | some ds => do
        let (down, ds) := signed ds
        let n : Int := ofDigits 10 (← separated? digit? ds)
        some (if down then -n else n)
      | none => some 0
    match Binary64.ofDecimal? (ofDigits 10 (high ++ low)) (power - (low.length : Int)) with
    | some x => some (.num (.float (x.withSign negative)))
    | none => if negative then some .void else none

/-- Infinities and what is no number hold no value here. -/
def special? (cs : List Char) : Option Written :=
  let body := (signed cs).2
  if body = ['i', 'n', 'f'] ∨ body = ['n', 'a', 'n'] then some .void else none

/-! ## Dates and times -/

open Timestamp.Reader in
/-- A date of the calendar, and what follows it. -/
def date? (cs : List Char) : Option (List Char) := do
  let (year, rest) ← number? 4 4 cs
  let (month, rest) ← number? 2 2 (← char? '-' rest)
  let (day, rest) ← number? 2 2 (← char? '-' rest)
  let _ ← Date.mk? year month day
  some rest

open Timestamp.Reader in
/-- A time of day, and what follows it. -/
def time? (cs : List Char) : Option (List Char) := do
  let (hour, rest) ← number? 2 2 cs
  let (minute, rest) ← number? 2 2 (← char? ':' rest)
  let (second, rest) ← number? 2 2 (← char? ':' rest)
  let (_, rest) ← fraction? rest
  if hour < 24 ∧ minute < 60 ∧ second < 61 then some rest else none

open Timestamp.Reader in
/-- An offset that ends the text, or nothing. -/
def isOffset : List Char → Bool
  | [] | ['Z'] | ['z'] => true
  | sign :: cs =>
    (sign = '+' || sign = '-') &&
      match number? 2 2 cs with
      | some (hour, ':' :: rest) =>
        match number? 2 2 rest with
        | some (minute, []) => hour < 24 && minute < 60
        | _ => false
      | _ => false

/-- A time of day with or without an offset. -/
def isTime (cs : List Char) : Bool := (time? cs).any isOffset

/-- A whole text that is a date, a time, or both. -/
def isDateTime (cs : List Char) : Bool :=
  time? cs = some [] ||
    match date? cs with
    | some [] => true
    | some (c :: rest) => (c = 'T' || c = 't') && isTime rest
    | none => false

/-- Dates and times are records of a kind of their own. -/
def dateTimeRecord (cs : List Char) : Written :=
  .obj [("$datetime", .str (String.ofList cs))]

/-- The value of a text without delimiters. -/
def ofToken? (cs : List Char) : Option Written :=
  if cs = ['t', 'r', 'u', 'e'] then some (.bool true)
  else if cs = ['f', 'a', 'l', 's', 'e'] then some (.bool false)
  else if isDateTime cs then some (dateTimeRecord cs)
  else special? cs <|> decimalInteger? cs <|> prefixedInteger? cs <|> float? cs

/-- A value without delimiters, and what follows it. A space may stand between date and time. -/
def scalar? (cs : List Char) : Option (Written × List Char) :=
  let token := cs.takeWhile isScalarChar
  let rest := cs.dropWhile isScalarChar
  match rest with
  | ' ' :: more =>
    let second := more.takeWhile isScalarChar
    if date? token = some [] ∧ isTime second then
      some (dateTimeRecord (token ++ ' ' :: second), more.dropWhile isScalarChar)
    else (ofToken? token).map (·, rest)
  | _ => (ofToken? token).map (·, rest)

end Isnad.Toml
