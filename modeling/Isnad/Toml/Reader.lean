import Isnad.Toml.Quoted
import Isnad.Toml.Scalar
import Isnad.Toml.Tree

/-! # Reading TOML text -/

namespace Isnad.Toml

open Json (Written)

def isSpace (c : Char) : Bool := c = ' ' || c = '\t'

def skipSpace (cs : List Char) : List Char := cs.dropWhile isSpace

/-- Characters of keys without quotes. -/
def isKeyChar (c : Char) : Bool := c.isAlphanum || c = '_' || c = '-'

/-- Values and keys may be nested up to below this depth. -/
def depthBound : Nat := 80

/-- What follows a comment, after its mark. -/
def afterComment : List Char → Option (List Char)
  | [] => some []
  | '\n' :: rest => some ('\n' :: rest)
  | '\r' :: '\n' :: rest => some ('\r' :: '\n' :: rest)
  | c :: rest => if isPlain c then afterComment rest else none

/-- What follows the end of a line, which may hold blanks and a comment. -/
def lineEnd? (cs : List Char) : Option (List Char) := do
  let rest ← match skipSpace cs with
    | '#' :: rest => afterComment rest
    | rest => some rest
  match rest with
  | [] => some []
  | '\n' :: rest | '\r' :: '\n' :: rest => some rest
  | _ => none

/-- What follows blanks, line ends and comments. The flag says that a comment is being read. -/
def skipTrivia (inComment : Bool) : List Char → Option (List Char)
  | [] => some []
  | '\n' :: rest | '\r' :: '\n' :: rest => skipTrivia false rest
  | c :: rest =>
    if inComment then if isPlain c then skipTrivia true rest else none
    else if isSpace c then skipTrivia false rest
    else if c = '#' then skipTrivia true rest
    else some (c :: rest)

/-- One part of a key. -/
def keyPart? (cs : List Char) : Option (String × List Char) :=
  match cs with
  | '"' :: rest => (basic? rest).map fun (k, rest) => (String.ofList k, rest)
  | '\'' :: rest => (literal? rest).map fun (k, rest) => (String.ofList k, rest)
  | _ =>
    let k := cs.takeWhile isKeyChar
    if k.isEmpty then none else some (String.ofList k, cs.dropWhile isKeyChar)

/-- A key of at most as many parts as the first argument says, with blanks around its dots. -/
def keyPath? : Nat → List Char → Option (List String × List Char)
  | 0, _ => none
  | n + 1, cs => do
    let (part, rest) ← keyPart? cs
    match skipSpace rest with
    | '.' :: more =>
      let (path, rest) ← keyPath? n (skipSpace more)
      some (part :: path, rest)
    | rest => some ([part], rest)

def key? (cs : List Char) : Option (List String × List Char) := keyPath? (depthBound - 1) cs

mutual

/-- A value and what follows it. The first argument bounds the number of steps. -/
def value : Nat → Nat → List Char → Option (Written × List Char)
  | 0, _, _ => none
  | fuel + 1, depth, cs =>
    match cs with
    | '[' :: rest =>
      if depth + 1 < depthBound then do
        let (items, rest) ← items fuel (depth + 1) (← skipTrivia false rest)
        some (.arr items, rest)
      else none
    | '\x7b' :: rest =>
      if depth + 1 < depthBound then
        match skipSpace rest with
        | '\x7d' :: rest => some (.obj [], rest)
        | rest => do
          let (entries, rest) ← pairs fuel (depth + 1) [] rest
          some (.obj (writtenEntries entries), rest)
      else none
    | c :: _ =>
      if c = '"' || c = '\'' then
        (string? cs).map fun (s, rest) => (.str (String.ofList s), rest)
      else scalar? cs
    | [] => none

/-- Items up to the closing bracket. -/
def items : Nat → Nat → List Char → Option (List Written × List Char)
  | 0, _, _ => none
  | fuel + 1, depth, cs =>
    match cs with
    | ']' :: rest => some ([], rest)
    | _ => do
      let (item, rest) ← value fuel depth cs
      match ← skipTrivia false rest with
      | ',' :: rest =>
        let (more, rest) ← items fuel depth (← skipTrivia false rest)
        some (item :: more, rest)
      | ']' :: rest => some ([item], rest)
      | _ => none

/-- Keys and values up to the closing brace, added to the entries so far. -/
def pairs : Nat → Nat → Entries → List Char → Option (Entries × List Char)
  | 0, _, _, _ => none
  | fuel + 1, depth, entries, cs => do
    let (path, rest) ← key? (skipSpace cs)
    match skipSpace rest with
    | '=' :: rest =>
      let (item, rest) ← value fuel depth (skipSpace rest)
      let entries ← entries.setDotted item path
      match skipSpace rest with
      | ',' :: rest => pairs fuel depth entries rest
      | '\x7d' :: rest => some (entries, rest)
      | _ => none
    | _ => none

end

/-- A line that says something. -/
inductive Line where
  | pair (path : List String) (value : Written)
  | table (path : List String)
  | item (path : List String)

/-- A key, a value and the end of the line. -/
def pairLine? (cs : List Char) : Option (Line × List Char) := do
  let (path, rest) ← key? cs
  match skipSpace rest with
  | '=' :: rest =>
    let (item, rest) ← value (2 * rest.length + 2) 0 (skipSpace rest)
    some (.pair path item, ← lineEnd? rest)
  | _ => none

/-- A header and the end of the line. -/
def headerLine? : List Char → Option (Line × List Char)
  | '[' :: '[' :: cs => do
    let (path, rest) ← key? (skipSpace cs)
    match skipSpace rest with
    | ']' :: ']' :: rest => some (.item path, ← lineEnd? rest)
    | _ => none
  | '[' :: cs => do
    let (path, rest) ← key? (skipSpace cs)
    match skipSpace rest with
    | ']' :: rest => some (.table path, ← lineEnd? rest)
    | _ => none
  | _ => none

/-- The lines of a document that say something. The first argument bounds their number. -/
def lines : Nat → List Char → Option (List Line)
  | 0, _ => none
  | fuel + 1, cs => do
    match ← skipTrivia false cs with
    | [] => some []
    | c :: cs =>
      let (line, rest) ← if c = '[' then headerLine? (c :: cs) else pairLine? (c :: cs)
      some (line :: (← lines fuel rest))

/-- The tables built from lines, the first of which belong to the table at `path`. -/
def build (path : List String) (root : Entries) : List Line → Option Entries
  | [] => some root
  | .pair key value :: rest => do
    build path (← root.atHeader (·.setDotted value key) path) rest
  | .table header :: rest => do
    build header (← root.atHeader (·.openTable (header.getLastD "")) header.dropLast) rest
  | .item header :: rest => do
    build header (← root.atHeader (·.openItem (header.getLastD "")) header.dropLast) rest

/-- A mark that a text may start with. -/
def withoutByteOrderMark : List Char → List Char
  | '\ufeff' :: cs => cs
  | cs => cs

/-- The record that a whole text holds. -/
def ofString? (s : String) : Option Written := do
  let cs := withoutByteOrderMark s.toList
  some (.obj (writtenEntries (← build [] [] (← lines (cs.length + 1) cs))))

end Isnad.Toml
