import Isnad.Grade
import Isnad.Json.Decode

/-! # Evidence, its source and its conflicts of interest -/

namespace Isnad

/-- How reliable a source is, from the strongest tier to the weakest. -/
inductive SourceTier where
  | athbatAlNas | thiqahThabit | thiqah | saduq | shaykh | maqbul
deriving DecidableEq, Repr

namespace SourceTier

instance : Labelled SourceTier where
  all := [.athbatAlNas, .thiqahThabit, .thiqah, .saduq, .shaykh, .maqbul]
  label
    | .athbatAlNas => "ATHBAT_AL_NAS"
    | .thiqahThabit => "THIQAH_THABIT"
    | .thiqah => "THIQAH"
    | .saduq => "SADUQ"
    | .shaykh => "SHAYKH"
    | .maqbul => "MAQBUL"
  find?_label t := by cases t <;> decide

/-- Zero for the strongest tier. -/
def rank : SourceTier → Nat
  | .athbatAlNas => 0
  | .thiqahThabit => 1
  | .thiqah => 2
  | .saduq => 3
  | .shaykh => 4
  | .maqbul => 5

/-- The two strongest tiers are high. -/
def isHigh (t : SourceTier) : Bool := t.rank < 2

/-- The tiers of a list from the strongest on. -/
def sort (ts : List SourceTier) : List SourceTier := ts.mergeSort fun s t => s.rank ≤ t.rank

end SourceTier

/-- Severity of a conflict of interest. -/
inductive ConflictSeverity where
  | low | medium | high
deriving DecidableEq, Repr

instance : Labelled ConflictSeverity where
  all := [.low, .medium, .high]
  label
    | .low => "LOW"
    | .medium => "MEDIUM"
    | .high => "HIGH"
  find?_label s := by cases s <;> decide

/-- What a source states about a conflict of interest. A conflict that is present without a
severity was never assessed. -/
structure Conflict where
  isPresent : Bool
  severity : Option ConflictSeverity
  isDisclosed : Bool
  kind : Option String
  description : Option String
deriving DecidableEq, Repr

namespace Conflict

/-- A conflict of the given severity. -/
def ofSeverity (severity : ConflictSeverity) (isDisclosed : Bool) : Conflict :=
  ⟨true, some severity, isDisclosed, none, none⟩

def layout : Json.Layout :=
  .of [] ["present", "severity", "disclosed", "type", "description"]

open Json in
def decode : Decoder Conflict := fun w => do
  let f ← layout.read w
  let description ← f.option "description" .string
  let isDisclosed ← f.orElse "disclosed" .bool false
  let isPresent ← f.orElse "present" .bool false
  let severity ← f.option "severity" .label
  let kind ← f.option "type" .string
  pure { isPresent, severity, isDisclosed, kind, description }

open Json in
def toJson (c : Conflict) : Json :=
  object [("present", .bool c.isPresent), ("severity", ofOption ofLabel c.severity),
    ("disclosed", .bool c.isDisclosed), ("type", ofOption .str c.kind),
    ("description", ofOption .str c.description)]

end Conflict

/-- An item that backs or corroborates a claim. Items of one origin are not independent. -/
structure Evidence where
  id : Uuid
  origin : String
  grade : Grade
  tier : SourceTier
  conflict : Option Conflict
deriving DecidableEq, Repr

namespace Evidence

/-- A conflict of interest is declared. -/
def hasConflict (e : Evidence) : Bool :=
  match e.conflict with
  | some c => c.isPresent
  | none => false

/-- There is no conflict, or one of low severity. -/
def isClean (e : Evidence) : Bool :=
  match e.conflict with
  | some c => !c.isPresent || c.severity = some .low
  | none => true

def layout : Json.Layout :=
  .of ["evidence_id", "origin_id", "source_grade", "source_tier"] ["coi_metadata"]

open Json in
def decode : Decoder Evidence := fun w => do
  let f ← layout.read w
  let conflict ← f.option "coi_metadata" Conflict.decode
  let id ← f.required "evidence_id" .uuid
  let origin ← f.required "origin_id" .string
  let grade ← f.required "source_grade" .label
  let tier ← f.required "source_tier" .label
  pure { id, origin, grade, tier, conflict }

open Json in
def toJson (e : Evidence) : Json :=
  object [("evidence_id", ofUuid e.id), ("origin_id", .str e.origin),
    ("source_grade", ofLabel e.grade), ("source_tier", ofLabel e.tier),
    ("coi_metadata", ofOption Conflict.toJson e.conflict)]

end Evidence
end Isnad
