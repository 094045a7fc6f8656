import Isnad.Issue
import Isnad.Text.Blank

/-! # Checking the fields of a document

A check looks at one field. It gives what it could read and the issues that it found, so that all
problems of a document can be told at once. -/

namespace Isnad.Document

/-- What a check read, and the issues it found. -/
structure Checked (α : Type) where
  value : Option α
  issues : List Issue
deriving Repr

namespace Checked

def ok (a : α) : Checked α := ⟨some a, []⟩

def absent : Checked α := ⟨none, []⟩

def fail (code : IssueCode) (path message : String) : Checked α := ⟨none, [⟨code, message, path⟩]⟩

end Checked

abbrev Members := List (String × Json)

/-- The path of a field. The empty prefix is the document itself. -/
def fieldPath (pre field : String) : String := if pre.isEmpty then field else pre ++ "." ++ field

/-- The path of an item of a list. -/
def itemPath (list : String) (i : Nat) : String := list ++ "[" ++ toString i ++ "]"

/-- The value of a field that is present and not null. -/
def present? (doc : Members) (field : String) : Option Json :=
  match doc.lookup field with
  | some .null | none => none
  | some x => some x

/-- A number by the text of its literal, or a numeral in a string. -/
def decimal? : Json → Option Decimal
  | .num n => Decimal.ofChars? n.toChars
  | .str s => Decimal.ofBlankPadded? s
  | _ => none

def missing (path field : String) : Checked α :=
  .fail .missingField path (field ++ " is required")

/-- The check of a field that must be present, or else need not be. -/
def field (doc : Members) (name pre : String) (isRequired : Bool)
    (check : String → Json → Checked α) : Checked α :=
  match present? doc name with
  | some x => check (fieldPath pre name) x
  | none => if isRequired then missing (fieldPath pre name) name else .absent

def checkText (name path : String) : Json → Checked String
  | .str s =>
    if Text.isBlankText s then .fail .missingField path (name ++ " is empty") else .ok s
  | _ => .fail .invalidType path (name ++ " must be a string")

/-- A field that holds a string with more than blanks. -/
def text (doc : Members) (name pre : String) : Checked String :=
  field doc name pre true (checkText name)

/-- The issue of a string that is no identifier. -/
def uuidIssues (s path : String) : List Issue :=
  match Uuid.ofString? s with
  | some _ => []
  | none => [⟨.invalidUuid, Text.quoted s ++ " is not a valid UUID", path⟩]

def checkUuid (path : String) : Json → Checked Uuid
  | .str s => ⟨Uuid.ofString? s, uuidIssues s path⟩
  | _ => .fail .invalidUuid path "expected a UUID string"

def uuid (doc : Members) (name pre : String) : Checked Uuid := field doc name pre true checkUuid

def uuid? (doc : Members) (name pre : String) : Checked Uuid := field doc name pre false checkUuid

def checkLabel [Labelled α] (name path : String) (x : Json) : Checked α :=
  match Json.decode .label x with
  | .ok a => .ok a
  | .error _ => .fail .invalidEnum path (x.compact ++ " is not a recognised " ++ name)

/-- A field that holds the label of an element of a closed set. -/
def labelled [Labelled α] (doc : Members) (name pre : String) (isRequired : Bool) : Checked α :=
  field doc name pre isRequired (checkLabel name)

def checkUnit (name path : String) (x : Json) : Checked Decimal :=
  match decimal? x with
  | some d =>
    if d.inUnitInterval then .ok d
    else .fail .invalidConfidence path (name ++ " = " ++ d.toString ++ " is outside [0, 1]")
  | none => .fail .invalidType path (name ++ " must be a number")

/-- A field that holds a decimal from zero to one. -/
def unit (doc : Members) (name pre : String) (isRequired : Bool) : Checked Decimal :=
  field doc name pre isRequired (checkUnit name)

end Isnad.Document
