import Isnad.Binary64.Printer
import Isnad.Json.Basic
import Isnad.Text.Digits

/-! # Writing JSON text -/

namespace Isnad

open Text

def Number.toChars : Number → List Char
  | .int n => (if n < 0 then ['-'] else []) ++ decimal n.natAbs
  | .float x => x.toChars Binary64.documentLayout

namespace Json

/-- A character of a string: the quote, the backslash and controls are escaped. -/
def escapeChar (c : Char) : List Char :=
  if c = '"' then ['\\', '"']
  else if c = '\\' then ['\\', '\\']
  else if c = '\x08' then ['\\', 'b']
  else if c = '\x0c' then ['\\', 'f']
  else if c = '\n' then ['\\', 'n']
  else if c = '\r' then ['\\', 'r']
  else if c = '\t' then ['\\', 't']
  else if c.toNat < 0x20 then
    let ds := hex c.toNat
    ['\\', 'u'] ++ List.replicate (4 - ds.length) '0' ++ ds
  else [c]

def stringChars (s : String) : List Char := '"' :: s.toList.flatMap escapeChar ++ ['"']

mutual

/-- The text without spaces. -/
def chars : Json → List Char
  | .null => ['n', 'u', 'l', 'l']
  | .bool true => ['t', 'r', 'u', 'e']
  | .bool false => ['f', 'a', 'l', 's', 'e']
  | .num n => n.toChars
  | .str s => stringChars s
  | .arr [] => ['[', ']']
  | .arr (x :: xs) => '[' :: chars x ++ itemChars xs
  | .obj [] => ['\x7b', '\x7d']
  | .obj ((k, x) :: xs) => '\x7b' :: stringChars k ++ ':' :: chars x ++ memberChars xs

def itemChars : List Json → List Char
  | [] => [']']
  | x :: xs => ',' :: chars x ++ itemChars xs

def memberChars : List (String × Json) → List Char
  | [] => ['\x7d']
  | (k, x) :: xs => ',' :: stringChars k ++ ':' :: chars x ++ memberChars xs

end

def compact (x : Json) : String := String.ofList x.chars

/-- A new line, indented by two spaces per level. -/
def newLine (level : Nat) : List Char := '\n' :: List.replicate (2 * level) ' '

mutual

/-- The text with each item and member on its own line. -/
def prettyChars (level : Nat) : Json → List Char
  | .arr (x :: xs) =>
    '[' :: newLine (level + 1) ++ prettyChars (level + 1) x ++ prettyItems level xs
  | .obj ((k, x) :: xs) =>
    '\x7b' :: newLine (level + 1) ++ stringChars k ++ [':', ' '] ++ prettyChars (level + 1) x ++
      prettyMembers level xs
  | .null => ['n', 'u', 'l', 'l']
  | .bool b => chars (.bool b)
  | .num n => n.toChars
  | .str s => stringChars s
  | .arr [] => ['[', ']']
  | .obj [] => ['\x7b', '\x7d']

def prettyItems (level : Nat) : List Json → List Char
  | [] => newLine level ++ [']']
  | x :: xs => ',' :: newLine (level + 1) ++ prettyChars (level + 1) x ++ prettyItems level xs

def prettyMembers (level : Nat) : List (String × Json) → List Char
  | [] => newLine level ++ ['\x7d']
  | (k, x) :: xs =>
    ',' :: newLine (level + 1) ++ stringChars k ++ [':', ' '] ++ prettyChars (level + 1) x ++
      prettyMembers level xs

end

def pretty (x : Json) : String := String.ofList (x.prettyChars 0)

end Json
end Isnad
