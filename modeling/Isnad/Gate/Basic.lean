import Isnad.Claim.Basic

/-! # The extraction gate

A value is admitted when a human verified it, or when both of its scores lie in the unit interval
and reach their thresholds. Anything else blocks it. -/

namespace Isnad.Gate

/-- Why a value is blocked. -/
inductive BlockReason where
  | missingConfidence | missingDhabt | invalidConfidence | invalidDhabt | lowConfidence | lowDhabt
deriving DecidableEq, Repr

namespace BlockReason

instance : Labelled BlockReason where
  all := [.missingConfidence, .missingDhabt, .invalidConfidence, .invalidDhabt, .lowConfidence,
    .lowDhabt]
  label
    | .missingConfidence => "MISSING_CONFIDENCE"
    | .missingDhabt => "MISSING_DHABT"
    | .invalidConfidence => "INVALID_CONFIDENCE"
    | .invalidDhabt => "INVALID_DHABT"
    | .lowConfidence => "LOW_CONFIDENCE"
    | .lowDhabt => "LOW_DHABT"
  find?_label r := by cases r <;> decide

/-- What would lift the block. -/
def suggestedAction : BlockReason → String
  | .missingConfidence | .missingDhabt => "re-run extraction with scoring enabled"
  | .invalidConfidence | .invalidDhabt => "fix the extractor: scores must lie in [0, 1]"
  | .lowConfidence | .lowDhabt => "route to human verification"

end BlockReason

/-- Scores that just pass. -/
structure Thresholds where
  minConfidence : Decimal
  minDhabt : Decimal
deriving DecidableEq, Repr

namespace Thresholds

def standard : Thresholds where
  minConfidence := .percent 95 (by decide)
  minDhabt := .percent 90 (by decide)

def layout (surplus : Json.Surplus) : Json.Layout :=
  ⟨[("min_confidence", false), ("min_dhabt", false)], surplus⟩

open Json in
def decode (surplus : Surplus) : Decoder Thresholds := fun w => do
  let f ← (layout surplus).read w
  let minConfidence ← f.orElse "min_confidence" .decimal standard.minConfidence
  let minDhabt ← f.orElse "min_dhabt" .decimal standard.minDhabt
  pure { minConfidence, minDhabt }

open Json in
def toJson (t : Thresholds) : Json :=
  object [("min_confidence", ofDecimal t.minConfidence), ("min_dhabt", ofDecimal t.minDhabt)]

end Thresholds

/-- What the gate judges. -/
structure Input where
  claim : String
  confidence : Option Decimal
  dhabt : Option Decimal
  isHumanVerified : Bool
  method : Option VerificationMethod
deriving DecidableEq, Repr

namespace Input

/-- Both scores, and no human verification. -/
def scored (claim : String) (confidence dhabt : Decimal) : Input :=
  ⟨claim, some confidence, some dhabt, false, none⟩

def humanVerified (i : Input) : Input := { i with isHumanVerified := true }

def ofDraft (d : ClaimDraft) : Input :=
  ⟨d.id.toString, d.confidence, d.dhabt, d.isHumanVerified, d.method⟩

/-- A human verified the value, by either sign. -/
def hasHumanVerification (i : Input) : Bool :=
  i.isHumanVerified ||
    match i.method with
    | some m => m.isHuman
    | none => false

def layout : Json.Layout :=
  .of ["claim_id"] ["extraction_confidence", "dhabt_score", "is_human_verified",
    "verification_method"]

open Json in
def decode : Decoder Input := fun w => do
  let f ← layout.read w
  let claim ← f.required "claim_id" .string
  let dhabt ← f.option "dhabt_score" .decimal
  let confidence ← f.option "extraction_confidence" .decimal
  let isHumanVerified ← f.orElse "is_human_verified" .bool false
  let method ← f.option "verification_method" .label
  pure { claim, confidence, dhabt, isHumanVerified, method }

open Json in
def toJson (i : Input) : Json :=
  object [("claim_id", .str i.claim), ("extraction_confidence", ofOption ofDecimal i.confidence),
    ("dhabt_score", ofOption ofDecimal i.dhabt), ("is_human_verified", .bool i.isHumanVerified),
    ("verification_method", ofOption ofLabel i.method)]

end Input

inductive Verdict where
  | allowed (bypassed : Bool)
  | blocked (reason : BlockReason)
deriving DecidableEq, Repr

/-- The verdict on two scores. -/
def Thresholds.scoreVerdict (t : Thresholds) : Option Decimal → Option Decimal → Verdict
  | none, _ => .blocked .missingConfidence
  | some _, none => .blocked .missingDhabt
  | some confidence, some dhabt =>
    if !confidence.inUnitInterval then .blocked .invalidConfidence
    else if !dhabt.inUnitInterval then .blocked .invalidDhabt
    else if confidence < t.minConfidence then .blocked .lowConfidence
    else if dhabt < t.minDhabt then .blocked .lowDhabt
    else .allowed false

def Thresholds.verdict (t : Thresholds) (i : Input) : Verdict :=
  if i.hasHumanVerification then .allowed true else t.scoreVerdict i.confidence i.dhabt

end Isnad.Gate
