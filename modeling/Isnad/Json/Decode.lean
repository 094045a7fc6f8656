import Isnad.Decimal.Printer
import Isnad.Decimal.Reader
import Isnad.Json.Ordered
import Isnad.Json.Printer
import Isnad.Label
import Isnad.Text.Quoted
import Isnad.Timestamp.Printer
import Isnad.Timestamp.Reader
import Isnad.Uuid

/-! # Reading records from JSON

A record is an object of its fields, or an array of them in their order. Members that are not
fields are passed over unread, and a repeated field is refused. -/

namespace Isnad.Json

/-- What stood for a value that may not be null. -/
inductive Wanted where
  | sequence
  | boolean
  | label
deriving DecidableEq, Repr

def Wanted.phrase : Wanted → String
  | .sequence => "a sequence"
  | .boolean => "a boolean"
  | .label => "string or map"

/-- Why a text is not the record asked for. -/
inductive DecodeError where
  | malformed
  | unexpectedNull (wanted : Wanted)
  | notDecimal (text : String)
deriving DecidableEq, Repr

def DecodeError.message : DecodeError → String
  | .malformed => "malformed document"
  | .unexpectedNull w => "invalid type: null, expected " ++ w.phrase
  | .notDecimal s =>
    "invalid value: string " ++ Text.quoted s ++
      ", expected a Decimal type representing a fixed-point number"

abbrev Decoder (α : Type) := Written → Except DecodeError α

/-- An option, none being an error. -/
def found : Option α → Except DecodeError α
  | some a => .ok a
  | none => .error .malformed

namespace Decoder

def bool : Decoder Bool
  | .bool b => .ok b
  | .null => .error (.unexpectedNull .boolean)
  | _ => .error .malformed

def string : Decoder String
  | .str s => .ok s
  | _ => .error .malformed

/-- Any value. -/
def json : Decoder OrderedJson := fun w => found w.ordered?

/-- A whole number from zero up to below `bound`. -/
def natBelow (bound : Nat) : Decoder Nat
  | .num (.int n) => if 0 ≤ n ∧ n < bound then .ok n.toNat else .error .malformed
  | _ => .error .malformed

/-- Null is none. -/
def option (d : Decoder α) : Decoder (Option α)
  | .null => .ok none
  | w => some <$> d w

def list (d : Decoder α) : Decoder (List α)
  | .arr items => items.mapM d
  | .null => .error (.unexpectedNull .sequence)
  | _ => .error .malformed

/-- The label of an element, or an object whose only member is the label with null. -/
def label [Labelled α] : Decoder α
  | .str s => found (ofLabel? s)
  | .obj [(s, .null)] => found (ofLabel? s)
  | .null => .error (.unexpectedNull .label)
  | _ => .error .malformed

/-- A number by its plain digits, or a string that holds a numeral. -/
def decimal : Decoder Decimal
  | .num (.int n) => found (Decimal.ofInt? n)
  | .num (.float x) => found (Decimal.ofChars? (x.toChars Binary64.plainLayout))
  | .str s =>
    match Decimal.ofString? s with
    | some x => .ok x
    | none => .error (.notDecimal s)
  | _ => .error .malformed

def uuid : Decoder Uuid
  | .str s => found (Uuid.ofString? s)
  | _ => .error .malformed

def timestamp : Decoder Timestamp
  | .str s => found (Timestamp.ofString? s)
  | _ => .error .malformed

end Decoder

/-- The items of an array that come after the last field. -/
inductive Surplus where
  | refused
  | ignored
deriving DecidableEq, Repr

/-- The fields of a record in their order. A field that is not required may be left off the end of
the array form. -/
structure Layout where
  fields : List (String × Bool)
  surplus : Surplus

/-- The layout of a record whose first fields are required and whose others are not. -/
def Layout.of (required optional : List String) : Layout :=
  ⟨required.map (·, true) ++ optional.map (·, false), .refused⟩

def Layout.names (l : Layout) : List String := l.fields.map Prod.fst

/-- The fields that a record brings. -/
structure Fields (ν : Type) where
  entries : List (String × Source ν)

def Layout.ofMembers (l : Layout) (members : List (String × Source ν)) :
    Except DecodeError (Fields ν) :=
  if l.names.any fun n => 1 < members.countP fun m => m.1 == n then .error .malformed
  else .ok ⟨members.filter fun m => l.names.contains m.1⟩

def Layout.ofItems (l : Layout) (items : List (Source ν)) : Except DecodeError (Fields ν) :=
  if l.surplus = .refused ∧ l.fields.length < items.length then .error .malformed
  else if (l.fields.drop items.length).any Prod.snd then .error .malformed
  else .ok ⟨l.names.zip items⟩

/-- The fields of a record in either form. -/
def Layout.read (l : Layout) : Source ν → Except DecodeError (Fields ν)
  | .obj members => l.ofMembers members
  | .arr items => l.ofItems items
  | _ => .error .malformed

namespace Fields

def required (f : Fields Number) (name : String) (d : Decoder α) : Except DecodeError α :=
  match f.entries.lookup name with
  | some w => d w
  | none => .error .malformed

/-- A field that has the given value where it is absent. -/
def orElse (f : Fields Number) (name : String) (d : Decoder α) (absent : α) :
    Except DecodeError α :=
  match f.entries.lookup name with
  | some w => d w
  | none => .ok absent

/-- A field that may be absent or null. -/
def option (f : Fields Number) (name : String) (d : Decoder α) : Except DecodeError (Option α) :=
  f.orElse name (.option d) none

end Fields

/-- The record that a value holds. -/
def decode (d : Decoder α) (x : Json) : Except DecodeError α := d x.toWritten

/-! ## Writing fields -/

/-- The label of an element. -/
def ofLabel [Labelled α] (a : α) : Json := .str (Isnad.label a)

def ofDecimal (x : Decimal) : Json := .str x.toString

def ofUuid (u : Uuid) : Json := .str u.toString

def ofTimestamp (t : Timestamp) : Json := .str t.toString

def ofNat (n : Nat) : Json := .num (.int n)

def ofList (f : α → Json) (xs : List α) : Json := .arr (xs.map f)

end Isnad.Json
