import Isnad.Text.Digits

/-! # Strings of TOML

Each reader starts after the opening quotes and gives the text and what follows the closing
ones. -/

namespace Isnad.Toml

open Text

/-- Controls other than the tab are not written as they are. -/
def isPlain (c : Char) : Bool := c = '\t' || (0x20 ≤ c.toNat && c.toNat ≠ 0x7F)

/-- The character that a one-letter escape stands for. -/
def escaped? : Char → Option Char
  | 'b' => some '\x08'
  | 't' => some '\t'
  | 'n' => some '\n'
  | 'f' => some '\x0c'
  | 'r' => some '\r'
  | '"' => some '"'
  | '\\' => some '\\'
  | _ => none

/-- The character of a code point in base 16. -/
def codePoint? (cs : List Char) : Option Char := do
  let ds ← cs.mapM hexDigit?
  let n := ofDigits 16 (ds.map Fin.val)
  if n.isValidChar then some (Char.ofNat n) else none

def basic? : List Char → Option (List Char × List Char)
  | [] => none
  | '"' :: rest => some ([], rest)
  | '\\' :: 'u' :: a :: b :: c :: d :: rest => do
    let x ← codePoint? [a, b, c, d]
    let (text, rest) ← basic? rest
    some (x :: text, rest)
  | '\\' :: 'U' :: a :: b :: c :: d :: e :: f :: g :: h :: rest => do
    let x ← codePoint? [a, b, c, d, e, f, g, h]
    let (text, rest) ← basic? rest
    some (x :: text, rest)
  | '\\' :: e :: rest => do
    let x ← escaped? e
    let (text, rest) ← basic? rest
    some (x :: text, rest)
  | c :: rest =>
    if isPlain c ∧ c ≠ '\\' then do
      let (text, rest) ← basic? rest
      some (c :: text, rest)
    else none

def literal? : List Char → Option (List Char × List Char)
  | [] => none
  | '\'' :: rest => some ([], rest)
  | c :: rest =>
    if isPlain c then do
      let (text, rest) ← literal? rest
      some (c :: text, rest)
    else none

/-- Whether only blanks come before the end of the line. -/
def isLineEnd : List Char → Bool
  | ' ' :: cs | '\t' :: cs => isLineEnd cs
  | '\n' :: _ | '\r' :: '\n' :: _ => true
  | _ => false

/-- A text of several lines. The flag says that a backslash ended the last line, so that blanks and
line ends are passed over. Up to two quotes may stand before the three that close the text. -/
def longBasic? (isSkipping : Bool) : List Char → Option (List Char × List Char)
  | [] => none
  | '"' :: '"' :: '"' :: '"' :: '"' :: rest => some (['"', '"'], rest)
  | '"' :: '"' :: '"' :: '"' :: rest => some (['"'], rest)
  | '"' :: '"' :: '"' :: rest => some ([], rest)
  | '\\' :: 'u' :: a :: b :: c :: d :: rest => do
    let x ← codePoint? [a, b, c, d]
    let (text, rest) ← longBasic? false rest
    some (x :: text, rest)
  | '\\' :: 'U' :: a :: b :: c :: d :: e :: f :: g :: h :: rest => do
    let x ← codePoint? [a, b, c, d, e, f, g, h]
    let (text, rest) ← longBasic? false rest
    some (x :: text, rest)
  | '\\' :: e :: rest =>
    if isLineEnd (e :: rest) then longBasic? true (e :: rest)
    else do
      let x ← escaped? e
      let (text, rest) ← longBasic? false rest
      some (x :: text, rest)
  | '\r' :: '\n' :: rest =>
    if isSkipping then longBasic? true rest
    else do
      let (text, rest) ← longBasic? false rest
      some ('\n' :: text, rest)
  | c :: rest =>
    if isSkipping ∧ (c = ' ' ∨ c = '\t' ∨ c = '\n') then longBasic? true rest
    else if (isPlain c ∨ c = '\n') ∧ c ≠ '\\' then do
      let (text, rest) ← longBasic? false rest
      some (c :: text, rest)
    else none

def longLiteral? : List Char → Option (List Char × List Char)
  | [] => none
  | '\'' :: '\'' :: '\'' :: '\'' :: '\'' :: rest => some (['\'', '\''], rest)
  | '\'' :: '\'' :: '\'' :: '\'' :: rest => some (['\''], rest)
  | '\'' :: '\'' :: '\'' :: rest => some ([], rest)
  | '\r' :: '\n' :: rest => do
    let (text, rest) ← longLiteral? rest
    some ('\n' :: text, rest)
  | c :: rest =>
    if isPlain c ∨ c = '\n' then do
      let (text, rest) ← longLiteral? rest
      some (c :: text, rest)
    else none

/-- A line end right after the opening quotes is not part of the text. -/
def afterOpening : List Char → List Char
  | '\n' :: rest | '\r' :: '\n' :: rest => rest
  | cs => cs

/-- A string of any kind, from its opening quotes on. -/
def string? : List Char → Option (List Char × List Char)
  | '"' :: '"' :: '"' :: rest => longBasic? false (afterOpening rest)
  | '\'' :: '\'' :: '\'' :: rest => longLiteral? (afterOpening rest)
  | '"' :: rest => basic? rest
  | '\'' :: rest => literal? rest
  | _ => none

end Isnad.Toml
