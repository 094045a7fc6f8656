import Isnad.Grade
import Isnad.Json.Decode
import Isnad.Text.Blank

/-! # Claims and the rules they keep -/

namespace Isnad

/-- How an extracted value was verified. -/
inductive VerificationMethod where
  | systemExtracted | humanVerified | dualVerified
deriving DecidableEq, Repr

namespace VerificationMethod

instance : Labelled VerificationMethod where
  all := [.systemExtracted, .humanVerified, .dualVerified]
  label
    | .systemExtracted => "SYSTEM_EXTRACTED"
    | .humanVerified => "HUMAN_VERIFIED"
    | .dualVerified => "DUAL_VERIFIED"
  find?_label m := by cases m <;> decide

/-- One reviewer or two confirmed the value. -/
def isHuman : VerificationMethod → Bool
  | .systemExtracted => false
  | .humanVerified | .dualVerified => true

end VerificationMethod

/-- What grading and review concluded about a claim. -/
inductive ClaimVerdict where
  | verified | inflated | contradicted | unverified | subjective
deriving DecidableEq, Repr

instance : Labelled ClaimVerdict where
  all := [.verified, .inflated, .contradicted, .unverified, .subjective]
  label
    | .verified => "VERIFIED"
    | .inflated => "INFLATED"
    | .contradicted => "CONTRADICTED"
    | .unverified => "UNVERIFIED"
    | .subjective => "SUBJECTIVE"
  find?_label v := by cases v <;> decide

/-- What is to be done about a claim. -/
inductive ClaimAction where
  | none | requestData | flag | redFlag | humanGate | partnerOverrideRequired
deriving DecidableEq, Repr

instance : Labelled ClaimAction where
  all := [.none, .requestData, .flag, .redFlag, .humanGate, .partnerOverrideRequired]
  label
    | .none => "NONE"
    | .requestData => "REQUEST_DATA"
    | .flag => "FLAG"
    | .redFlag => "RED_FLAG"
    | .humanGate => "HUMAN_GATE"
    | .partnerOverrideRequired => "PARTNER_OVERRIDE_REQUIRED"
  find?_label a := by cases a <;> decide

/-- A rule over several fields of a claim. -/
inductive ClaimRule where
  /-- A bound claim refers to its evidence. -/
  | noFreeFacts
  /-- A claim of the weakest grade calls for an action. -/
  | gradeDRequiresAction
  /-- A contradicted claim calls for an action. -/
  | contradictedRequiresAction
deriving DecidableEq, Repr

namespace ClaimRule

instance : Labelled ClaimRule where
  all := [.noFreeFacts, .gradeDRequiresAction, .contradictedRequiresAction]
  label
    | .noFreeFacts => "NO_FREE_FACTS"
    | .gradeDRequiresAction => "GRADE_D_REQUIRES_ACTION"
    | .contradictedRequiresAction => "CONTRADICTED_REQUIRES_ACTION"
  find?_label r := by cases r <;> decide

/-- The rules that fields of a claim break. -/
def broken (grade : Grade) (verdict : ClaimVerdict) (action : ClaimAction)
    (isBound hasReference : Bool) : List ClaimRule :=
  (if isBound && !hasReference then [noFreeFacts] else []) ++
    (if grade = .d ∧ action = .none then [gradeDRequiresAction] else []) ++
    (if verdict = .contradicted ∧ action = .none then [contradictedRequiresAction] else [])

end ClaimRule

/-- A claim as extraction produced it. -/
structure ClaimDraft where
  id : Uuid
  value : OrderedJson
  confidence : Option Decimal
  dhabt : Option Decimal
  isHumanVerified : Bool
  method : Option VerificationMethod
deriving DecidableEq, Repr

namespace ClaimDraft

def layout : Json.Layout :=
  .of ["claim_id"] ["value", "extraction_confidence", "dhabt_score", "is_human_verified",
    "verification_method"]

open Json in
def decode : Decoder ClaimDraft := fun w => do
  let f ← layout.read w
  let id ← f.required "claim_id" .uuid
  let dhabt ← f.option "dhabt_score" .decimal
  let confidence ← f.option "extraction_confidence" .decimal
  let isHumanVerified ← f.orElse "is_human_verified" .bool false
  let value ← f.orElse "value" .json .null
  let method ← f.option "verification_method" .label
  pure { id, value, confidence, dhabt, isHumanVerified, method }

open Json in
def toJson (d : ClaimDraft) : Json :=
  object [("claim_id", ofUuid d.id), ("value", d.value.toJson),
    ("extraction_confidence", ofOption ofDecimal d.confidence),
    ("dhabt_score", ofOption ofDecimal d.dhabt), ("is_human_verified", .bool d.isHumanVerified),
    ("verification_method", ofOption ofLabel d.method)]

end ClaimDraft

/-- A claim that was admitted. -/
structure Claim where
  id : Uuid
  value : OrderedJson
  grade : Grade
  verdict : ClaimVerdict
  action : ClaimAction
  isBound : Bool
  sanad : Option Uuid
  span : Option String
deriving DecidableEq, Repr

namespace Claim

/-- The claim names a sanad or a span of a document. -/
def hasReference (c : Claim) : Bool :=
  c.sanad.isSome ||
    match c.span with
    | some s => !Text.isBlankText s
    | none => false

/-- The rules that the claim breaks. -/
def brokenRules (c : Claim) : List ClaimRule :=
  ClaimRule.broken c.grade c.verdict c.action c.isBound c.hasReference

/-- The claim backed by a graded sanad. The weakest grade calls for data where no action is set. -/
def attach (c : Claim) (sanad : Uuid) (grade : Grade) : Claim :=
  { c with
    sanad := some sanad
    grade
    action := if grade = .d ∧ c.action = .none then .requestData else c.action }

def layout : Json.Layout :=
  ⟨[("claim_id", true), ("value", false), ("claim_grade", true), ("claim_verdict", true),
    ("claim_action", true), ("ic_bound", false), ("sanad_id", false), ("primary_span_id", false)],
    .refused⟩

open Json in
def decode : Decoder Claim := fun w => do
  let f ← layout.read w
  let action ← f.required "claim_action" .label
  let grade ← f.required "claim_grade" .label
  let id ← f.required "claim_id" .uuid
  let verdict ← f.required "claim_verdict" .label
  let isBound ← f.orElse "ic_bound" .bool false
  let span ← f.option "primary_span_id" .string
  let sanad ← f.option "sanad_id" .uuid
  let value ← f.orElse "value" .json .null
  pure { id, value, grade, verdict, action, isBound, sanad, span }

open Json in
def toJson (c : Claim) : Json :=
  object [("claim_id", ofUuid c.id), ("value", c.value.toJson), ("claim_grade", ofLabel c.grade),
    ("claim_verdict", ofLabel c.verdict), ("claim_action", ofLabel c.action),
    ("ic_bound", .bool c.isBound), ("sanad_id", ofOption ofUuid c.sanad),
    ("primary_span_id", ofOption .str c.span)]

end Claim
end Isnad
