import Isnad.Grade
import Isnad.Json.Decode

/-! # Sanads: the chain of evidence behind a claim -/

namespace Isnad

/-- How far independent sources agree. -/
inductive CorroborationStatus where
  | none | ahad1 | ahad2 | mutawatir
deriving DecidableEq, Repr

instance : Labelled CorroborationStatus where
  all := [.none, .ahad1, .ahad2, .mutawatir]
  label
    | .none => "NONE"
    | .ahad1 => "AHAD_1"
    | .ahad2 => "AHAD_2"
    | .mutawatir => "MUTAWATIR"
  find?_label s := by cases s <;> decide

/-- The step that a node of a transmission chain records. -/
inductive NodeType where
  | ingest | extract | normalize | reconcile | calculate | infer | humanVerify | exported
deriving DecidableEq, Repr

instance : Labelled NodeType where
  all := [.ingest, .extract, .normalize, .reconcile, .calculate, .infer, .humanVerify, .exported]
  label
    | .ingest => "INGEST"
    | .extract => "EXTRACT"
    | .normalize => "NORMALIZE"
    | .reconcile => "RECONCILE"
    | .calculate => "CALCULATE"
    | .infer => "INFER"
    | .humanVerify => "HUMAN_VERIFY"
    | .exported => "EXPORT"
  find?_label t := by cases t <;> decide

/-- Who performed a step. -/
inductive ActorType where
  | agent | human | system
deriving DecidableEq, Repr

instance : Labelled ActorType where
  all := [.agent, .human, .system]
  label
    | .agent => "AGENT"
    | .human => "HUMAN"
    | .system => "SYSTEM"
  find?_label t := by cases t <;> decide

/-- One element of a transmission chain. -/
structure TransmissionNode where
  id : Uuid
  type : NodeType
  actorType : ActorType
  actor : String
  timestamp : Timestamp
  confidence : Option Decimal
  previous : Option Uuid
  parentRef : Option Uuid
deriving DecidableEq, Repr

namespace TransmissionNode

/-- The node this one descends from. -/
def parent (n : TransmissionNode) : Option Uuid := n.previous <|> n.parentRef

def layout : Json.Layout :=
  .of ["node_id", "node_type", "actor_type", "actor_id", "timestamp"]
    ["confidence", "prev_node_id", "parent_id"]

open Json in
def decode : Decoder TransmissionNode := fun w => do
  let f ← layout.read w
  let actor ← f.required "actor_id" .string
  let actorType ← f.required "actor_type" .label
  let confidence ← f.option "confidence" .decimal
  let id ← f.required "node_id" .uuid
  let type ← f.required "node_type" .label
  let parentRef ← f.option "parent_id" .uuid
  let previous ← f.option "prev_node_id" .uuid
  let timestamp ← f.required "timestamp" .timestamp
  pure { id, type, actorType, actor, timestamp, confidence, previous, parentRef }

open Json in
def toJson (n : TransmissionNode) : Json :=
  object [("node_id", ofUuid n.id), ("node_type", ofLabel n.type),
    ("actor_type", ofLabel n.actorType), ("actor_id", .str n.actor),
    ("timestamp", ofTimestamp n.timestamp), ("confidence", ofOption ofDecimal n.confidence),
    ("prev_node_id", ofOption ofUuid n.previous), ("parent_id", ofOption ofUuid n.parentRef)]

end TransmissionNode

/-- The kinds of weakness that a sanad can have. -/
inductive DefectType where
  | brokenChain | missingLink | unknownSource | concealment | inconsistency
  | anomalyVsStrongerSources | chronoImpossible | chainGrafting | circularity | staleness
  | unitMismatch | timeWindowMismatch | scopeDrift | implausibility | coiHighUndisclosed
  | coiHighUncured
deriving DecidableEq, Repr

namespace DefectType

instance : Labelled DefectType where
  all := [.brokenChain, .missingLink, .unknownSource, .concealment, .inconsistency,
    .anomalyVsStrongerSources, .chronoImpossible, .chainGrafting, .circularity, .staleness,
    .unitMismatch, .timeWindowMismatch, .scopeDrift, .implausibility, .coiHighUndisclosed,
    .coiHighUncured]
  label
    | .brokenChain => "BROKEN_CHAIN"
    | .missingLink => "MISSING_LINK"
    | .unknownSource => "UNKNOWN_SOURCE"
    | .concealment => "CONCEALMENT"
    | .inconsistency => "INCONSISTENCY"
    | .anomalyVsStrongerSources => "ANOMALY_VS_STRONGER_SOURCES"
    | .chronoImpossible => "CHRONO_IMPOSSIBLE"
    | .chainGrafting => "CHAIN_GRAFTING"
    | .circularity => "CIRCULARITY"
    | .staleness => "STALENESS"
    | .unitMismatch => "UNIT_MISMATCH"
    | .timeWindowMismatch => "TIME_WINDOW_MISMATCH"
    | .scopeDrift => "SCOPE_DRIFT"
    | .implausibility => "IMPLAUSIBILITY"
    | .coiHighUndisclosed => "COI_HIGH_UNDISCLOSED"
    | .coiHighUncured => "COI_HIGH_UNCURED"
  find?_label t := by cases t <;> decide

/-- Defects that grading derives anew from conflicts of interest. -/
def isConflictDerived : DefectType → Bool
  | .coiHighUndisclosed | .coiHighUncured => true
  | _ => false

end DefectType

/-- While open, a fatal defect forces the weakest grade, a major one costs a step, and a minor one
has no effect. -/
inductive DefectSeverity where
  | fatal | major | minor
deriving DecidableEq, Repr

instance : Labelled DefectSeverity where
  all := [.fatal, .major, .minor]
  label
    | .fatal => "FATAL"
    | .major => "MAJOR"
    | .minor => "MINOR"
  find?_label s := by cases s <;> decide

/-- What would cure a defect. -/
inductive CureProtocol where
  | requestSource | requireReaudit | humanArbitration | reconstructChain | discardClaim
  | requireIndependentCorroboration | requireMutawatirCorroboration
deriving DecidableEq, Repr

instance : Labelled CureProtocol where
  all := [.requestSource, .requireReaudit, .humanArbitration, .reconstructChain, .discardClaim,
    .requireIndependentCorroboration, .requireMutawatirCorroboration]
  label
    | .requestSource => "REQUEST_SOURCE"
    | .requireReaudit => "REQUIRE_REAUDIT"
    | .humanArbitration => "HUMAN_ARBITRATION"
    | .reconstructChain => "RECONSTRUCT_CHAIN"
    | .discardClaim => "DISCARD_CLAIM"
    | .requireIndependentCorroboration => "REQUIRE_INDEPENDENT_CORROBORATION"
    | .requireMutawatirCorroboration => "REQUIRE_MUTAWATIR_CORROBORATION"
  find?_label p := by cases p <;> decide

inductive DefectStatus where
  | opened | cured | waived
deriving DecidableEq, Repr

instance : Labelled DefectStatus where
  all := [.opened, .cured, .waived]
  label
    | .opened => "OPEN"
    | .cured => "CURED"
    | .waived => "WAIVED"
  find?_label s := by cases s <;> decide

/-- A recorded weakness. -/
structure Defect where
  type : DefectType
  severity : DefectSeverity
  cure : CureProtocol
  status : DefectStatus
  description : String
deriving DecidableEq, Repr

namespace Defect

/-- A new defect is open. -/
def opened (type : DefectType) (severity : DefectSeverity) (cure : CureProtocol)
    (description : String) : Defect :=
  { type, severity, cure, status := .opened, description }

def isOpen (d : Defect) : Bool := d.status = .opened

def isOpenFatal (d : Defect) : Bool := d.isOpen && d.severity = .fatal

def isOpenMajor (d : Defect) : Bool := d.isOpen && d.severity = .major

def layout : Json.Layout :=
  ⟨[("defect_type", true), ("severity", true), ("cure_protocol", true), ("status", false),
    ("description", true)], .refused⟩

open Json in
def decode : Decoder Defect := fun w => do
  let f ← layout.read w
  let cure ← f.required "cure_protocol" .label
  let type ← f.required "defect_type" .label
  let description ← f.required "description" .string
  let severity ← f.required "severity" .label
  let status ← f.orElse "status" .label .opened
  pure { type, severity, cure, status, description }

open Json in
def toJson (d : Defect) : Json :=
  object [("defect_type", ofLabel d.type), ("severity", ofLabel d.severity),
    ("cure_protocol", ofLabel d.cure), ("status", ofLabel d.status),
    ("description", .str d.description)]

end Defect

/-- An assessment of whether the corroborators are independent. -/
structure IndependenceCheck where
  isVerified : Bool
  isIndependent : Bool
deriving DecidableEq, Repr

namespace IndependenceCheck

/-- Carried out, with independence as its outcome. -/
def confirms (c : IndependenceCheck) : Bool := c.isVerified && c.isIndependent

/-- Carried out, with dependence as its outcome. -/
def contradicts (c : IndependenceCheck) : Bool := c.isVerified && !c.isIndependent

def layout : Json.Layout := .of ["verified", "independent"] []

open Json in
def decode : Decoder IndependenceCheck := fun w => do
  let f ← layout.read w
  let isIndependent ← f.required "independent" .bool
  let isVerified ← f.required "verified" .bool
  pure { isVerified, isIndependent }

open Json in
def toJson (c : IndependenceCheck) : Json :=
  object [("verified", .bool c.isVerified), ("independent", .bool c.isIndependent)]

end IndependenceCheck

/-- The dossier behind a claim. -/
structure Sanad where
  id : Uuid
  claim : Uuid
  primary : Uuid
  corroborators : List Uuid
  confidence : Decimal
  chain : List TransmissionNode
  defects : List Defect
  grade : Grade
  status : CorroborationStatus
  independence : Option IndependenceCheck
deriving DecidableEq, Repr

namespace Sanad

/-- An open fatal defect is on record. -/
def hasOpenFatal (s : Sanad) : Bool := s.defects.any Defect.isOpenFatal

def layout : Json.Layout :=
  ⟨[("sanad_id", true), ("claim_id", true), ("primary_evidence_id", true),
    ("corroborating_evidence_ids", false), ("extraction_confidence", true),
    ("transmission_chain", true), ("defects", false), ("sanad_grade", true),
    ("corroboration_status", true), ("independence_check", false)], .refused⟩

open Json in
def decode : Decoder Sanad := fun w => do
  let f ← layout.read w
  let claim ← f.required "claim_id" .uuid
  let corroborators ← f.orElse "corroborating_evidence_ids" (.list .uuid) []
  let status ← f.required "corroboration_status" .label
  let defects ← f.orElse "defects" (.list Defect.decode) []
  let confidence ← f.required "extraction_confidence" .decimal
  let independence ← f.option "independence_check" IndependenceCheck.decode
  let primary ← f.required "primary_evidence_id" .uuid
  let grade ← f.required "sanad_grade" .label
  let id ← f.required "sanad_id" .uuid
  let chain ← f.required "transmission_chain" (.list TransmissionNode.decode)
  pure
    { id, claim, primary, corroborators, confidence, chain, defects, grade, status, independence }

open Json in
def toJson (s : Sanad) : Json :=
  object [("sanad_id", ofUuid s.id), ("claim_id", ofUuid s.claim),
    ("primary_evidence_id", ofUuid s.primary),
    ("corroborating_evidence_ids", ofList ofUuid s.corroborators),
    ("extraction_confidence", ofDecimal s.confidence),
    ("transmission_chain", ofList TransmissionNode.toJson s.chain),
    ("defects", ofList Defect.toJson s.defects), ("sanad_grade", ofLabel s.grade),
    ("corroboration_status", ofLabel s.status),
    ("independence_check", ofOption IndependenceCheck.toJson s.independence)]

end Sanad
end Isnad
