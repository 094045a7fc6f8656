import Isnad.Json.Decode

/-! # Issues found in documents -/

namespace Isnad

/-- What is wrong, for machines. -/
inductive IssueCode where
  | invalidDocument | missingField | invalidType | invalidUuid | invalidEnum | invalidConfidence
  | invalidTimestamp | missingPrimaryEvidence | emptyChain | missingDescription
  | sanadDuplicateNode | sanadOrphanReference | sanadNoRoot | sanadMultipleRoots
  | sanadCycleDetected | sanadOrphanedNode | gradeDefectMismatch | fatalDefectNotOpen
  | nffViolation | gradeDRequiresAction | contradictedRequiresAction
deriving DecidableEq, Repr

instance : Labelled IssueCode where
  all := [.invalidDocument, .missingField, .invalidType, .invalidUuid, .invalidEnum,
    .invalidConfidence, .invalidTimestamp, .missingPrimaryEvidence, .emptyChain,
    .missingDescription, .sanadDuplicateNode, .sanadOrphanReference, .sanadNoRoot,
    .sanadMultipleRoots, .sanadCycleDetected, .sanadOrphanedNode, .gradeDefectMismatch,
    .fatalDefectNotOpen, .nffViolation, .gradeDRequiresAction, .contradictedRequiresAction]
  label
    | .invalidDocument => "INVALID_DOCUMENT"
    | .missingField => "MISSING_FIELD"
    | .invalidType => "INVALID_TYPE"
    | .invalidUuid => "INVALID_UUID"
    | .invalidEnum => "INVALID_ENUM"
    | .invalidConfidence => "INVALID_CONFIDENCE"
    | .invalidTimestamp => "INVALID_TIMESTAMP"
    | .missingPrimaryEvidence => "MISSING_PRIMARY_EVIDENCE"
    | .emptyChain => "EMPTY_CHAIN"
    | .missingDescription => "MISSING_DESCRIPTION"
    | .sanadDuplicateNode => "SANAD_DUPLICATE_NODE"
    | .sanadOrphanReference => "SANAD_ORPHAN_REFERENCE"
    | .sanadNoRoot => "SANAD_NO_ROOT"
    | .sanadMultipleRoots => "SANAD_MULTIPLE_ROOTS"
    | .sanadCycleDetected => "SANAD_CYCLE_DETECTED"
    | .sanadOrphanedNode => "SANAD_ORPHANED_NODE"
    | .gradeDefectMismatch => "GRADE_DEFECT_MISMATCH"
    | .fatalDefectNotOpen => "FATAL_DEFECT_NOT_OPEN"
    | .nffViolation => "NFF_VIOLATION"
    | .gradeDRequiresAction => "GRADE_D_REQUIRES_ACTION"
    | .contradictedRequiresAction => "CONTRADICTED_REQUIRES_ACTION"
  find?_label c := by cases c <;> decide +kernel

/-- A finding at a place of a document. -/
structure Issue where
  code : IssueCode
  message : String
  path : String
deriving DecidableEq, Repr

namespace Issue

def line (i : Issue) : String := "[" ++ label i.code ++ "] " ++ i.path ++ ": " ++ i.message

def layout : Json.Layout := .of ["code", "message", "path"] []

open Json in
def decode : Decoder Issue := fun w => do
  let f ← layout.read w
  let code ← f.required "code" .label
  let message ← f.required "message" .string
  let path ← f.required "path" .string
  pure { code, message, path }

open Json in
def toJson (i : Issue) : Json :=
  object [("code", ofLabel i.code), ("message", .str i.message), ("path", .str i.path)]

end Issue

/-- A document is rejected as a whole, for these issues. -/
structure Rejection where
  errors : List Issue
deriving DecidableEq, Repr

def Rejection.message (r : Rejection) : String :=
  "integrity validation failed with " ++ toString r.errors.length ++ " error(s): " ++
    ", ".intercalate (r.errors.map fun i => label i.code)

/-- The outcome of checking a document. -/
structure Report where
  passed : Bool
  errors : List Issue
  warnings : List Issue
deriving DecidableEq, Repr

namespace Report

/-- A check passes if it found no errors. -/
def ofIssues (errors warnings : List Issue) : Report := ⟨errors.isEmpty, errors, warnings⟩

/-- A failed check for a single reason. -/
def failed (code : IssueCode) (path message : String) : Report :=
  ofIssues [⟨code, message, path⟩] []

def hasError (r : Report) (code : IssueCode) : Bool := r.errors.any (·.code = code)

def hasWarning (r : Report) (code : IssueCode) : Bool := r.warnings.any (·.code = code)

def codes (r : Report) : List IssueCode := r.errors.map (·.code)

/-- The report itself, or a rejection for its errors. -/
def accepted (r : Report) : Except Rejection Report :=
  if r.passed then .ok r else .error ⟨r.errors⟩

def layout : Json.Layout := .of ["passed", "errors"] ["warnings"]

open Json in
def decode : Decoder Report := fun w => do
  let f ← layout.read w
  let errors ← f.required "errors" (.list Issue.decode)
  let passed ← f.required "passed" .bool
  let warnings ← f.orElse "warnings" (.list Issue.decode) []
  pure { passed, errors, warnings }

open Json in
def toJson (r : Report) : Json :=
  object [("passed", .bool r.passed), ("errors", ofList Issue.toJson r.errors),
    ("warnings", ofList Issue.toJson r.warnings)]

end Report
end Isnad
