import Isnad.Binary64.Reader
import Isnad.Json.Written
import Isnad.Text.Digits

/-! # Reading JSON text -/

namespace Isnad.Json.Reader

open Text

def isSpace (c : Char) : Bool := c = ' ' || c = '\n' || c = '\t' || c = '\r'

def skipSpace (cs : List Char) : List Char := cs.dropWhile isSpace

/-! ## Numbers -/

/-- A numeral by its parts. -/
structure Numeral where
  negative : Bool
  whole : List Nat
  fraction : Option (List Nat)
  exponent : Option Int

/-- Digits that do not start with a zero, unless they are a single zero. -/
def whole? (cs : List Char) : Option (List Nat × List Char) :=
  match spanDigits cs with
  | ([], _) | (0 :: _ :: _, _) => none
  | (ds, rest) => some (ds, rest)

def fraction? : List Char → Option (Option (List Nat) × List Char)
  | '.' :: cs =>
    match spanDigits cs with
    | ([], _) => none
    | (ds, rest) => some (some ds, rest)
  | cs => some (none, cs)

def exponent? : List Char → Option (Option Int × List Char)
  | [] => some (none, [])
  | c :: cs =>
    if c = 'e' || c = 'E' then
      let (negative, body) := match cs with
        | '-' :: rest => (true, rest)
        | '+' :: rest => (false, rest)
        | _ => (false, cs)
      match spanDigits body with
      | ([], _) => none
      | (ds, rest) =>
        let n : Int := ofDigits 10 ds
        some (some (if negative then -n else n), rest)
    else some (none, c :: cs)

def numeral? (cs : List Char) : Option (Numeral × List Char) := do
  let (negative, body) := match cs with
    | '-' :: rest => (true, rest)
    | _ => (false, cs)
  let (whole, rest) ← whole? body
  let (fraction, rest) ← fraction? rest
  let (exponent, rest) ← exponent? rest
  some ({ negative, whole, fraction, exponent }, rest)

/-- Whole numbers are read from `-2 ^ 63` up to below `2 ^ 64`. -/
def isWordSized (n : Int) : Bool := -(pow2 63 : Int) ≤ n && n < pow2 64

/-- A numeral without fraction and exponent is a whole number if it fits 64 bits and is not a
negative zero; any other is a binary64 number. -/
def Numeral.number? (n : Numeral) : Option Number :=
  let magnitude := ofDigits 10 n.whole
  let value : Int := if n.negative then -(magnitude : Int) else magnitude
  if n.fraction.isNone && n.exponent.isNone && !(n.negative && magnitude = 0) && isWordSized value
  then some (.int value)
  else (Binary64.ofNumeral? n.negative n.whole (n.fraction.getD []) (n.exponent.getD 0)).map .float

mutual

/-- A text with its numerals read. One whose number is out of range holds no value. -/
def numbers : Source Numeral → Written
  | .null => .null
  | .bool b => .bool b
  | .num n =>
    match n.number? with
    | some x => .num x
    | none => .void
  | .str s => .str s
  | .arr items => .arr (itemNumbers items)
  | .obj members => .obj (memberNumbers members)
  | .void => .void

def itemNumbers : List (Source Numeral) → List Written
  | [] => []
  | x :: xs => numbers x :: itemNumbers xs

def memberNumbers : List (String × Source Numeral) → List (String × Written)
  | [] => []
  | (k, x) :: xs => (k, numbers x) :: memberNumbers xs

end

/-! ## Strings -/

/-- The code unit of four digits of base 16. -/
def codeUnit? (a b c d : Char) : Option Nat := do
  let ds ← [a, b, c, d].mapM hexDigit?
  some (ofDigits 16 (ds.map Fin.val))

/-- The character that a one-letter escape stands for. -/
def escaped? : Char → Option Char
  | '"' => some '"'
  | '\\' => some '\\'
  | '/' => some '/'
  | 'b' => some '\x08'
  | 'f' => some '\x0c'
  | 'n' => some '\n'
  | 'r' => some '\r'
  | 't' => some '\t'
  | _ => none

/-- The code units of a string up to its closing quote, a character outside escapes being one
unit. -/
def stringUnits : List Char → Option (List Nat × List Char)
  | '"' :: rest => some ([], rest)
  | '\\' :: 'u' :: a :: b :: c :: d :: rest => do
    let unit ← codeUnit? a b c d
    let (units, rest) ← stringUnits rest
    some (unit :: units, rest)
  | '\\' :: e :: rest => do
    let c ← escaped? e
    let (units, rest) ← stringUnits rest
    some (c.toNat :: units, rest)
  | c :: rest =>
    if c.toNat < 0x20 then none
    else do
      let (units, rest) ← stringUnits rest
      some (c.toNat :: units, rest)
  | [] => none

def isHighSurrogate (n : Nat) : Bool := 0xD800 ≤ n && n < 0xDC00
def isLowSurrogate (n : Nat) : Bool := 0xDC00 ≤ n && n < 0xE000

/-- The characters of code units; none if half of a surrogate pair stands alone. -/
def unitChars : List Nat → Option (List Char)
  | [] => some []
  | n :: rest =>
    if isHighSurrogate n then
      match rest with
      | [] => none
      | m :: rest =>
        if isLowSurrogate m then
          (Char.ofNat (0x10000 + (n - 0xD800) * 0x400 + (m - 0xDC00)) :: ·) <$> unitChars rest
        else none
    else if isLowSurrogate n then none
    else (Char.ofNat n :: ·) <$> unitChars rest

/-- A string after its opening quote. The inner option is its text, if it has one. -/
def string? (cs : List Char) : Option (Option String × List Char) := do
  let (units, rest) ← stringUnits cs
  some ((unitChars units).map String.ofList, rest)

/-! ## Values -/

/-- Arrays and objects may be nested this deep. -/
def maxDepth : Nat := 127

/-- An array or object at that depth. -/
def atDepth (depth : Nat) (w : Source Numeral) : Source Numeral :=
  if maxDepth < depth then .void else w

/-- An object of members some of which may have no readable name. -/
def objectOf (members : List (Option String × Source Numeral)) : Source Numeral :=
  match members.mapM fun m => m.1.map (·, m.2) with
  | some ms => .obj ms
  | none => .void

mutual

/-- A value and what follows it. The first argument bounds the number of steps. -/
def value : Nat → Nat → List Char → Option (Source Numeral × List Char)
  | 0, _, _ => none
  | fuel + 1, depth, cs =>
    match skipSpace cs with
    | 'n' :: 'u' :: 'l' :: 'l' :: rest => some (.null, rest)
    | 't' :: 'r' :: 'u' :: 'e' :: rest => some (.bool true, rest)
    | 'f' :: 'a' :: 'l' :: 's' :: 'e' :: rest => some (.bool false, rest)
    | '"' :: rest => do
      let (text, rest) ← string? rest
      some (match text with
        | some s => .str s
        | none => .void, rest)
    | '[' :: rest =>
      match skipSpace rest with
      | ']' :: rest => some (atDepth (depth + 1) (.arr []), rest)
      | rest => do
        let (items, rest) ← items fuel (depth + 1) rest
        some (atDepth (depth + 1) (.arr items), rest)
    | '{' :: rest =>
      match skipSpace rest with
      | '}' :: rest => some (atDepth (depth + 1) (.obj []), rest)
      | rest => do
        let (members, rest) ← members fuel (depth + 1) rest
        some (atDepth (depth + 1) (objectOf members), rest)
    | rest => do
      let (numeral, rest) ← numeral? rest
      some (.num numeral, rest)

/-- Items up to the closing bracket. -/
def items : Nat → Nat → List Char → Option (List (Source Numeral) × List Char)
  | 0, _, _ => none
  | fuel + 1, depth, cs => do
    let (item, rest) ← value fuel depth cs
    match skipSpace rest with
    | ']' :: rest => some ([item], rest)
    | ',' :: rest =>
      let (more, rest) ← items fuel depth rest
      some (item :: more, rest)
    | _ => none

/-- Members up to the closing brace. -/
def members : Nat → Nat → List Char → Option (List (Option String × Source Numeral) × List Char)
  | 0, _, _ => none
  | fuel + 1, depth, cs =>
    match skipSpace cs with
    | '"' :: rest => do
      let (name, rest) ← string? rest
      match skipSpace rest with
      | ':' :: rest =>
        let (item, rest) ← value fuel depth rest
        match skipSpace rest with
        | '}' :: rest => some ([(name, item)], rest)
        | ',' :: rest =>
          let (more, rest) ← members fuel depth rest
          some ((name, item) :: more, rest)
        | _ => none
      | _ => none
    | _ => none

end

end Isnad.Json.Reader

namespace Isnad.Json

/-- A whole text: one value between spaces, with its numerals as they stand. -/
def Source.ofChars? (cs : List Char) : Option (Source Reader.Numeral) := do
  let (x, rest) ← Reader.value (2 * cs.length + 2) 0 cs
  match Reader.skipSpace rest with
  | [] => some x
  | _ => none

def Source.ofString? (s : String) : Option (Source Reader.Numeral) := ofChars? s.toList

def Written.ofString? (s : String) : Option Written := (Source.ofString? s).map Reader.numbers

end Isnad.Json
