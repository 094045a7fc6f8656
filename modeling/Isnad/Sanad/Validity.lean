import Isnad.Chain.Linkage
import Isnad.Document

/-! # Checking sanad documents -/

namespace Isnad.Sanad

open Document

/-- The primary evidence is named by an identifier. -/
def primaryIssues (doc : Members) : List Issue :=
  match present? doc "primary_evidence_id" with
  | none => [⟨.missingPrimaryEvidence, "primary_evidence_id is required and may not be null",
      "primary_evidence_id"⟩]
  | some x => (checkUuid "primary_evidence_id" x).issues

/-- The issues of the items of a list, each by its position. -/
def itemIssues (check : Nat → Json → List Issue) (items : List Json) : List Issue :=
  (items.mapIdx check).flatten

def corroboratorIssues (doc : Members) : List Issue :=
  match present? doc "corroborating_evidence_ids" with
  | none => []
  | some (.arr ids) =>
    itemIssues (fun i x => (checkUuid (itemPath "corroborating_evidence_ids" i) x).issues) ids
  | some _ => [⟨.invalidType, "corroborating_evidence_ids must be an array",
      "corroborating_evidence_ids"⟩]

/-- Whether a value is an object that has a boolean of that name. -/
def hasBool (x : Json) (name : String) : Bool :=
  match x.member? name with
  | some (.bool _) => true
  | _ => false

def independenceIssues (doc : Members) : List Issue :=
  match present? doc "independence_check" with
  | none => []
  | some x =>
    if hasBool x "verified" && hasBool x "independent" then []
    else [⟨.invalidType,
      "independence_check must be an object with boolean verified and independent",
      "independence_check"⟩]

/-! ## The chain -/

def nodePath (i : Nat) : String := itemPath "transmission_chain" i

/-- The name of a node need not be an identifier to take part in the analysis of links. -/
def nodeIdIssues (pre : String) (doc : Members) : List Issue :=
  let id := text doc "node_id" pre
  id.issues ++ match id.value with
    | some s => uuidIssues s (fieldPath pre "node_id")
    | none => []

def timestampIssues (pre : String) (doc : Members) : List Issue :=
  let time := text doc "timestamp" pre
  time.issues ++ match time.value with
    | some s =>
      match Timestamp.ofRfc3339? s with
      | some _ => []
      | none => [⟨.invalidTimestamp, Text.quoted s ++ " is not an RFC 3339 timestamp",
          fieldPath pre "timestamp"⟩]
    | none => []

def nodeMemberIssues (pre : String) (doc : Members) : List Issue :=
  nodeIdIssues pre doc ++
    (labelled doc "node_type" pre true : Checked NodeType).issues ++
    (labelled doc "actor_type" pre true : Checked ActorType).issues ++
    (text doc "actor_id" pre).issues ++
    timestampIssues pre doc ++
    (unit doc "confidence" pre false).issues ++
    (uuid? doc "prev_node_id" pre).issues ++
    (uuid? doc "parent_id" pre).issues

def nodeIssues (i : Nat) : Json → List Issue
  | .obj doc => nodeMemberIssues (nodePath i) doc
  | _ => [⟨.invalidType, "node must be an object", nodePath i⟩]

/-- A string that refers to another node. -/
def reference? (doc : Members) (name : String) : Option String :=
  match present? doc name with
  | some (.str s) => some s
  | _ => none

/-- The link of a node that has a name. -/
def nodeLink? (i : Nat) : Json → Option ChainLink
  | .obj doc => (text doc "node_id" (nodePath i)).value.map fun id =>
      ⟨i, id, reference? doc "prev_node_id" <|> reference? doc "parent_id"⟩
  | _ => none

/-- The links of the nodes of a chain that have names. -/
def nodeLinks (nodes : List Json) : List ChainLink := (nodes.mapIdx nodeLink?).filterMap fun l => l

def chainIssues (doc : Members) : List Issue :=
  match present? doc "transmission_chain" with
  | none => [⟨.missingField, "transmission_chain is required", "transmission_chain"⟩]
  | some (.arr []) => [⟨.emptyChain, "transmission_chain must contain at least one node",
      "transmission_chain"⟩]
  | some (.arr nodes) => itemIssues nodeIssues nodes ++ (Linkage.ofLinks (nodeLinks nodes)).issues
  | some _ => [⟨.invalidType, "transmission_chain must be an array", "transmission_chain"⟩]

/-! ## Defects -/

def defectPath (i : Nat) : String := itemPath "defects" i

def descriptionIssues (pre : String) (doc : Members) : List Issue :=
  let missing : List Issue :=
    [⟨.missingDescription, "defect must carry a non-empty description",
      fieldPath pre "description"⟩]
  match present? doc "description" with
  | some (.str s) => if Text.isBlankText s then missing else []
  | _ => missing

def defectIssues (i : Nat) : Json → List Issue
  | .obj doc =>
    let pre := defectPath i
    (labelled doc "defect_type" pre true : Checked DefectType).issues ++
      (labelled doc "severity" pre true : Checked DefectSeverity).issues ++
      (labelled doc "cure_protocol" pre true : Checked CureProtocol).issues ++
      (labelled doc "status" pre false : Checked DefectStatus).issues ++
      descriptionIssues pre doc
  | _ => [⟨.invalidType, "defect must be an object", defectPath i⟩]

/-- The status of a defect document whose severity is fatal. A status that is missing or cannot be
read counts as open. -/
def fatalStatus? : Json → Option DefectStatus
  | .obj doc =>
    if (labelled doc "severity" "" true).value = some DefectSeverity.fatal then
      some ((labelled doc "status" "" false).value.getD .opened)
    else none
  | _ => none

/-- The documents of the defects, if they are a list. -/
def defectDocs (doc : Members) : List Json :=
  match present? doc "defects" with
  | some (.arr defects) => defects
  | _ => []

def defectListIssues (doc : Members) : List Issue :=
  match present? doc "defects" with
  | none => []
  | some (.arr defects) => itemIssues defectIssues defects
  | some _ => [⟨.invalidType, "defects must be an array", "defects"⟩]

def closedFatalWarnings (doc : Members) : List Issue :=
  itemIssues (fun i d =>
    match fatalStatus? d with
    | some .opened | none => []
    | some _ => [⟨.fatalDefectNotOpen,
        "fatal defect is no longer open; grade is not forced to D", defectPath i⟩])
    (defectDocs doc)

/-- An open fatal defect goes only with the weakest grade. -/
def gradeIssues (doc : Members) (grade : Option Grade) : List Issue :=
  match grade with
  | some g =>
    if (defectDocs doc).any (fun d => fatalStatus? d = some .opened) ∧ g ≠ .d then
      [⟨.gradeDefectMismatch, "an OPEN FATAL defect requires grade D, found " ++ label g,
        "sanad_grade"⟩]
    else []
  | none => []

/-! ## The document -/

def memberIssues (doc : Members) : List Issue :=
  let grade : Checked Grade := labelled doc "sanad_grade" "" true
  (uuid doc "sanad_id" "").issues ++
    (uuid doc "claim_id" "").issues ++
    primaryIssues doc ++
    corroboratorIssues doc ++
    independenceIssues doc ++
    (unit doc "extraction_confidence" "" true).issues ++
    (labelled doc "corroboration_status" "" true : Checked CorroborationStatus).issues ++
    grade.issues ++
    chainIssues doc ++
    defectListIssues doc ++
    gradeIssues doc grade.value

/-- Checks a sanad document and reports all of its problems. -/
def validate : Json → Report
  | .obj doc => .ofIssues (memberIssues doc) (closedFatalWarnings doc)
  | _ => .failed .invalidDocument "$" "sanad document must be a JSON object"

/-- The sanad that a document without problems holds. -/
def parse (doc : Json) : Except Rejection Sanad := do
  let _ ← (validate doc).accepted
  match Json.decode decode doc with
  | .ok s => .ok s
  | .error e => .error ⟨[⟨.invalidDocument, e.message, "$"⟩]⟩

end Isnad.Sanad
