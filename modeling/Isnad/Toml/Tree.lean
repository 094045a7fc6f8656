import Isnad.Json.Written

/-! # Tables of TOML

A table grows as its document is read. It can be extended in some ways only, depending on how it
came about. -/

namespace Isnad.Toml

open Json (Written)

/-- How a table came about. -/
inductive Origin where
  /-- By a header of its own. -/
  | header
  /-- By the header of a table below it. -/
  | superTable
  /-- By a key with dots. -/
  | dotted
deriving DecidableEq, Repr

inductive Tree where
  /-- A value, which is never extended. -/
  | leaf (value : Written)
  | table (origin : Origin) (entries : List (String × Tree))
  /-- A list of tables, the latest first. -/
  | tables (items : List (List (String × Tree)))
deriving Repr

abbrev Entries := List (String × Tree)

namespace Entries

/-- The entries with that key's tree replaced. -/
def set (key : String) (tree : Tree) : Entries → Entries
  | [] => [(key, tree)]
  | (k, t) :: rest => if k = key then (key, tree) :: rest else (k, t) :: set key tree rest

/-- Sets a key, by a path of dots. The table that takes the value must be new or come from a key
with dots. -/
def setDotted (value : Written) : List String → Entries → Option Entries
  | [], _ => none
  | [key], es => if (es.lookup key).isSome then none else some (es.set key (.leaf value))
  | key :: path, es =>
    let isLast := path.length = 1
    match es.lookup key with
    | none => do some (es.set key (.table .dotted (← setDotted value path [])))
    | some (.table .dotted below) => do
      some (es.set key (.table .dotted (← setDotted value path below)))
    | some (.table .superTable below) =>
      if isLast then none
      else do some (es.set key (.table .superTable (← setDotted value path below)))
    | some (.tables (below :: items)) =>
      if isLast then none
      else do some (es.set key (.tables ((← setDotted value path below) :: items)))
    | some _ => none

/-- Changes the table at a path that headers lead to, making the tables above it. -/
def atHeader (change : Entries → Option Entries) : List String → Entries → Option Entries
  | [], es => change es
  | key :: path, es =>
    match es.lookup key with
    | none => do some (es.set key (.table .superTable (← atHeader change path [])))
    | some (.table origin below) => do
      some (es.set key (.table origin (← atHeader change path below)))
    | some (.tables (below :: items)) => do
      some (es.set key (.tables ((← atHeader change path below) :: items)))
    | some _ => none

/-- Opens a table by its header. -/
def openTable (key : String) (es : Entries) : Option Entries :=
  match es.lookup key with
  | none => some (es.set key (.table .header []))
  | some (.table .superTable below) => some (es.set key (.table .header below))
  | some _ => none

/-- Opens the next table of a list. -/
def openItem (key : String) (es : Entries) : Option Entries :=
  match es.lookup key with
  | none => some (es.set key (.tables [[]]))
  | some (.tables items) => some (es.set key (.tables ([] :: items)))
  | some _ => none

end Entries

mutual

/-- The value that a tree holds. -/
def Tree.toWritten : Tree → Written
  | .leaf w => w
  | .table _ entries => .obj (writtenEntries entries)
  | .tables items => .arr (writtenItems items).reverse

def writtenEntries : Entries → List (String × Written)
  | [] => []
  | (k, t) :: rest => (k, t.toWritten) :: writtenEntries rest

def writtenItems : List Entries → List Written
  | [] => []
  | entries :: rest => .obj (writtenEntries entries) :: writtenItems rest

end

end Isnad.Toml
