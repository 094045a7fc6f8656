import Isnad.Json.Basic

/-! # JSON as it is written

A text that keeps to the grammar need not hold a value: a number can be too large, a string can
hold half of a surrogate pair, and nesting can go too deep. A reader of records looks only at the
members it knows, so such places and repeated names are kept until someone asks for them. -/

namespace Isnad.Json

/-- A JSON text, with the members of objects in the order of the text and `ν` for its numbers. -/
inductive Source (ν : Type) where
  | null
  | bool (value : Bool)
  | num (value : ν)
  | str (value : String)
  | arr (items : List (Source ν))
  | obj (members : List (String × Source ν))
  /-- A part that keeps to the grammar and holds no value. -/
  | void
deriving Repr, Inhabited

/-- A JSON text whose numbers were read. -/
abbrev Written := Source Number

mutual

/-- A value as it would be written. -/
def toWritten : Json → Written
  | .null => .null
  | .bool b => .bool b
  | .num n => .num n
  | .str s => .str s
  | .arr items => .arr (toWrittenItems items)
  | .obj members => .obj (toWrittenMembers members)

def toWrittenItems : List Json → List Written
  | [] => []
  | x :: xs => x.toWritten :: toWrittenItems xs

def toWrittenMembers : List (String × Json) → List (String × Written)
  | [] => []
  | (k, x) :: xs => (k, x.toWritten) :: toWrittenMembers xs

end

namespace Written

mutual

/-- The value of a text all of whose parts hold one. -/
def value? : Written → Option Json
  | .null => some .null
  | .bool b => some (.bool b)
  | .num n => some (.num n)
  | .str s => some (.str s)
  | .arr items => do some (.arr (← items? items))
  | .obj members => do some (object (← members? members))
  | .void => none

def items? : List Written → Option (List Json)
  | [] => some []
  | x :: xs => do
    let y ← x.value?
    let ys ← items? xs
    some (y :: ys)

def members? : List (String × Written) → Option (List (String × Json))
  | [] => some []
  | (k, x) :: xs => do
    let y ← x.value?
    let ys ← members? xs
    some ((k, y) :: ys)

end

end Written
end Isnad.Json
