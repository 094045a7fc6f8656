import Isnad.Gate.Decision

/-! # Clearing a calculation

A calculation may run only if the gate admits every one of its inputs. -/

namespace Isnad.Gate

/-- An input of a calculation, with the grade of the sanad behind it. -/
structure CalculationInput where
  name : String
  claim : String
  confidence : Option Decimal
  dhabt : Option Decimal
  isHumanVerified : Bool
  method : Option VerificationMethod
  grade : Option Grade
deriving DecidableEq, Repr

namespace CalculationInput

def toInput (i : CalculationInput) : Input :=
  ⟨i.claim, i.confidence, i.dhabt, i.isHumanVerified, i.method⟩

def layout : Json.Layout :=
  .of ["input_name", "claim_id"] ["extraction_confidence", "dhabt_score", "is_human_verified",
    "verification_method", "sanad_grade"]

open Json in
def decode : Decoder CalculationInput := fun w => do
  let f ← layout.read w
  let claim ← f.required "claim_id" .string
  let dhabt ← f.option "dhabt_score" .decimal
  let confidence ← f.option "extraction_confidence" .decimal
  let name ← f.required "input_name" .string
  let isHumanVerified ← f.orElse "is_human_verified" .bool false
  let grade ← f.option "sanad_grade" .label
  let method ← f.option "verification_method" .label
  pure { name, claim, confidence, dhabt, isHumanVerified, method, grade }

open Json in
def toJson (i : CalculationInput) : Json :=
  object [("input_name", .str i.name), ("claim_id", .str i.claim),
    ("extraction_confidence", ofOption ofDecimal i.confidence),
    ("dhabt_score", ofOption ofDecimal i.dhabt), ("is_human_verified", .bool i.isHumanVerified),
    ("verification_method", ofOption ofLabel i.method), ("sanad_grade", ofOption ofLabel i.grade)]

end CalculationInput

/-- An input that the gate refused. -/
structure BlockedInput where
  name : String
  claim : String
  reason : BlockReason
deriving DecidableEq, Repr

def BlockedInput.line (b : BlockedInput) : String :=
  b.name ++ " (claim " ++ b.claim ++ "): " ++ label b.reason

open Json in
def BlockedInput.toJson (b : BlockedInput) : Json :=
  object [("input_name", .str b.name), ("claim_id", .str b.claim), ("reason", ofLabel b.reason)]

/-- The calculation may not run: some of its inputs are blocked. -/
structure Refusal where
  total : Nat
  blocked : List BlockedInput
deriving DecidableEq, Repr

def Refusal.message (r : Refusal) : String :=
  "extraction gate blocked " ++ toString r.blocked.length ++ " of " ++ toString r.total ++
    " calculation inputs: " ++ "; ".intercalate (r.blocked.map BlockedInput.line)

open Json in
def Refusal.toJson (r : Refusal) : Json :=
  object [("total_inputs", ofNat r.total), ("blocked", ofList BlockedInput.toJson r.blocked)]

/-- The calculation may run. Its output inherits the weakest grade. -/
structure Clearance where
  decisions : List Decision
  weakestGrade : Option Grade
deriving DecidableEq, Repr

open Json in
def Clearance.toJson (c : Clearance) : Json :=
  object [("decisions", ofList Decision.toJson c.decisions),
    ("weakest_grade", ofOption ofLabel c.weakestGrade)]

/-- The input, if the gate refuses it. -/
def Thresholds.blockedInput? (t : Thresholds) (i : CalculationInput) : Option BlockedInput :=
  (t.evaluate i.toInput).reason.map fun r => ⟨i.name, i.claim, r⟩

def Thresholds.clear (t : Thresholds) (inputs : List CalculationInput) :
    Except Refusal Clearance :=
  match inputs.filterMap t.blockedInput? with
  | [] => .ok ⟨inputs.map (fun i => t.evaluate i.toInput),
      Grade.strictestCap (inputs.map (·.grade))⟩
  | blocked => .error ⟨inputs.length, blocked⟩

end Isnad.Gate
