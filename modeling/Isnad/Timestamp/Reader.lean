import Isnad.Power
import Isnad.Text.Blank
import Isnad.Text.Digits
import Isnad.Timestamp.Basic

/-! # Reading timestamps

The strict form is that of RFC 3339. The lenient form, which accepts every strict text, also
allows blanks before numbers and separators, short fields, years with a sign, and `UTC` for the
offset. -/

namespace Isnad.Timestamp.Reader

open Text

/-- The largest difference from universal time, in minutes, is below this bound. -/
def offsetBound : Nat := 1440

/-- A number of `atLeast` to `atMost` digits. -/
def number? (atLeast atMost : Nat) (cs : List Char) : Option (Nat × List Char) :=
  let (ds, rest) := spanDigitsUpTo atMost cs
  if ds.length < atLeast then none else some (ofDigits 10 ds, rest)

/-- The given character, and what follows it. -/
def char? (expected : Char) : List Char → Option (List Char)
  | c :: cs => if c = expected then some cs else none
  | [] => none

/-- The letter or space between date and time. -/
def separator? : List Char → Option (List Char)
  | c :: cs => if c = 'T' || c = 't' || c = ' ' then some cs else none
  | [] => none

/-- A fraction of a second, if there is one: nine digits count, and any number may follow. -/
def fraction? : List Char → Option (Nat × List Char)
  | '.' :: cs =>
    match spanDigitsUpTo 9 cs with
    | ([], _) => none
    | (ds, rest) => some (ofDigits 10 ds * pow10 (9 - ds.length), (spanDigits rest).2)
  | cs => some (0, cs)

def sign? : List Char → Option (Bool × List Char)
  | c :: cs => if c = '+' then some (false, cs) else if c = '-' || c = '\u2212' then some (true, cs)
    else none
  | [] => none

/-- The minutes by which local time is ahead: `Z`, or hours and minutes after a sign. The argument
skips what stands between hours and minutes. -/
def offset? (between : List Char → Option (List Char)) : List Char → Option (Int × List Char)
  | 'Z' :: cs | 'z' :: cs => some (0, cs)
  | cs => do
    let (negative, rest) ← sign? cs
    let (hours, rest) ← number? 2 2 rest
    let (minutes, rest) ← number? 2 2 (← between rest)
    if 59 < minutes then none
    else
      let total : Int := hours * 60 + minutes
      some (if negative then -total else total, rest)

/-- The time in universal time, for an offset of less than a day. -/
def universal? (t : Timestamp) (offset : Int) : Option Timestamp :=
  if offset.natAbs < offsetBound then t.ofLocal? offset else none

def strict? (cs : List Char) : Option Timestamp := do
  let (year, rest) ← number? 4 4 cs
  let (month, rest) ← number? 2 2 (← char? '-' rest)
  let (day, rest) ← number? 2 2 (← char? '-' rest)
  let (hour, rest) ← number? 2 2 (← separator? rest)
  let (minute, rest) ← number? 2 2 (← char? ':' rest)
  let (second, rest) ← number? 2 2 (← char? ':' rest)
  let (nanosecond, rest) ← fraction? rest
  let (offset, rest) ← offset? (char? ':') rest
  if rest = [] then universal? (← ofFields? year month day hour minute second nanosecond) offset
  else none

/-- A year of at most four digits, or of any number of digits after a sign. -/
def lenientYear? (cs : List Char) : Option (Int × List Char) :=
  match trimStart cs with
  | '-' :: rest => (number? 1 rest.length rest).map fun (n, rest) => (-(n : Int), rest)
  | '+' :: rest => (number? 1 rest.length rest).map fun (n, rest) => ((n : Int), rest)
  | rest => (number? 1 4 rest).map fun (n, rest) => ((n : Int), rest)

/-- A number of one or two digits after blanks. -/
def field? (cs : List Char) : Option (Nat × List Char) := number? 1 2 (trimStart cs)

/-- The given character after blanks. -/
def lenientChar? (expected : Char) (cs : List Char) : Option (List Char) :=
  char? expected (trimStart cs)

/-- Colons and blanks, in any number. -/
def colons (cs : List Char) : List Char := cs.dropWhile fun c => c = ':' || isBlank c

/-- `UTC` in any case, or an offset with any colons and blanks between its parts. -/
def lenientOffset? (cs : List Char) : Option (Int × List Char) :=
  match cs with
  | u :: t :: c :: rest =>
    if [u.toUpper, t.toUpper, c.toUpper] = ['U', 'T', 'C'] then some (0, rest)
    else offset? (fun r => some (colons r)) cs
  | _ => offset? (fun r => some (colons r)) cs

def lenient? (cs : List Char) : Option Timestamp := do
  let (year, rest) ← lenientYear? cs
  let (month, rest) ← field? (← lenientChar? '-' rest)
  let (day, rest) ← field? (← lenientChar? '-' rest)
  let (hour, rest) ← field? (← separator? rest)
  let (minute, rest) ← field? (← lenientChar? ':' rest)
  let (second, rest) ← field? (← lenientChar? ':' rest)
  let (nanosecond, rest) ← fraction? rest
  let (offset, rest) ← lenientOffset? (trimStart rest)
  if trimStart rest = [] then
    universal? (← ofFields? year month day hour minute second nanosecond) offset
  else none

end Isnad.Timestamp.Reader

namespace Isnad.Timestamp

/-- The time that a text of RFC 3339 names. -/
def ofRfc3339? (s : String) : Option Timestamp := Reader.strict? s.toList

/-- The time that a text in the lenient form names. -/
def ofString? (s : String) : Option Timestamp := Reader.lenient? s.toList

end Isnad.Timestamp
