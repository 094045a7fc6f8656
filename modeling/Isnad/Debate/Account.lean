import Isnad.Json.Decode

/-! # Self-accounting of debate outputs

Each output comes with its author's account of how sure it is and what it rests on. -/

namespace Isnad.Debate

/-- The roles of a debate. The arbiter speaks last and rules on open challenges. -/
inductive Role where
  | advocate | sanadBreaker | contradictionFinder | riskOfficer | arbiter
deriving DecidableEq, Repr

instance : Labelled Role where
  all := [.advocate, .sanadBreaker, .contradictionFinder, .riskOfficer, .arbiter]
  label
    | .advocate => "ADVOCATE"
    | .sanadBreaker => "SANAD_BREAKER"
    | .contradictionFinder => "CONTRADICTION_FINDER"
    | .riskOfficer => "RISK_OFFICER"
    | .arbiter => "ARBITER"
  find?_label r := by cases r <;> decide

/-- The order in which roles speak. -/
def Role.order : List Role := Labelled.all

/-- An author's account of one output. -/
structure Account where
  confidence : Decimal
  claims : List String
  calculations : List String
  uncertainties : List String
  falsifiabilityTests : List String
  failureModes : List String
  isSubjective : Bool
deriving DecidableEq, Repr

namespace Account

/-- A factual account with nothing filled in. -/
def ofConfidence (confidence : Decimal) : Account := ⟨confidence, [], [], [], [], [], false⟩

def supporting (a : Account) (claim : String) : Account := { a with claims := a.claims ++ [claim] }

def uncertainAbout (a : Account) (uncertainty : String) : Account :=
  { a with uncertainties := a.uncertainties ++ [uncertainty] }

def subjective (a : Account) : Account := { a with isSubjective := true }

def layout : Json.Layout :=
  .of ["confidence"] ["supported_claim_ids", "supported_calc_ids", "uncertainties",
    "falsifiability_tests", "failure_modes", "is_subjective"]

open Json in
def decode : Decoder Account := fun w => do
  let f ← layout.read w
  let confidence ← f.required "confidence" .decimal
  let failureModes ← f.orElse "failure_modes" (.list .string) []
  let falsifiabilityTests ← f.orElse "falsifiability_tests" (.list .string) []
  let isSubjective ← f.orElse "is_subjective" .bool false
  let calculations ← f.orElse "supported_calc_ids" (.list .string) []
  let claims ← f.orElse "supported_claim_ids" (.list .string) []
  let uncertainties ← f.orElse "uncertainties" (.list .string) []
  pure { confidence, claims, calculations, uncertainties, falsifiabilityTests, failureModes,
         isSubjective }

open Json in
def toJson (a : Account) : Json :=
  object [("confidence", ofDecimal a.confidence), ("supported_claim_ids", ofStrings a.claims),
    ("supported_calc_ids", ofStrings a.calculations), ("uncertainties", ofStrings a.uncertainties),
    ("falsifiability_tests", ofStrings a.falsifiabilityTests),
    ("failure_modes", ofStrings a.failureModes), ("is_subjective", .bool a.isSubjective)]

end Account

/-- A rule that an account breaks. -/
inductive Violation where
  | confidenceOutOfRange | noSupportedClaims | overconfidentWithoutUncertainty
deriving DecidableEq, Repr

instance : Labelled Violation where
  all := [.confidenceOutOfRange, .noSupportedClaims, .overconfidentWithoutUncertainty]
  label
    | .confidenceOutOfRange => "CONFIDENCE_OUT_OF_RANGE"
    | .noSupportedClaims => "NO_SUPPORTED_CLAIMS"
    | .overconfidentWithoutUncertainty => "OVERCONFIDENT_WITHOUT_UNCERTAINTY"
  find?_label v := by cases v <;> decide

/-- Confidence above the ceiling calls for an uncertainty. -/
structure Policy where
  ceiling : Decimal
deriving DecidableEq, Repr

namespace Policy

def standard : Policy := ⟨.percent 80 (by decide)⟩

/-- The rules that an account breaks. -/
def violations (p : Policy) (a : Account) : List Violation :=
  (if a.confidence.inUnitInterval then [] else [.confidenceOutOfRange]) ++
    (if !a.isSubjective && a.claims.isEmpty then [.noSupportedClaims] else []) ++
    (if p.ceiling < a.confidence ∧ a.uncertainties.isEmpty then
      [.overconfidentWithoutUncertainty] else [])

def passes (p : Policy) (a : Account) : Bool := (p.violations a).isEmpty

def layout (surplus : Json.Surplus) : Json.Layout := ⟨[("confidence_ceiling", false)], surplus⟩

open Json in
def decode (surplus : Surplus) : Decoder Policy := fun w => do
  let f ← (layout surplus).read w
  let ceiling ← f.orElse "confidence_ceiling" .decimal standard.ceiling
  pure { ceiling }

open Json in
def toJson (p : Policy) : Json := object [("confidence_ceiling", ofDecimal p.ceiling)]

end Policy

/-- An account that broke rules, and where. -/
structure Failure where
  round : Nat
  role : Role
  confidence : Decimal
  violations : List Violation
deriving DecidableEq, Repr

/-- Rounds are counted below this bound. -/
def roundBound : Nat := pow2 32

namespace Failure

def line (f : Failure) : String :=
  "round " ++ toString f.round ++ " " ++ label f.role ++ " (confidence " ++ f.confidence.toString ++
    "): " ++ ", ".intercalate (f.violations.map label)

def layout : Json.Layout := .of ["round", "role", "confidence", "violations"] []

open Json in
def decode : Decoder Failure := fun w => do
  let f ← layout.read w
  let confidence ← f.required "confidence" .decimal
  let role ← f.required "role" .label
  let round ← f.required "round" (.natBelow roundBound)
  let violations ← f.required "violations" (.list .label)
  pure { round, role, confidence, violations }

open Json in
def toJson (f : Failure) : Json :=
  object [("round", ofNat f.round), ("role", ofLabel f.role),
    ("confidence", ofDecimal f.confidence), ("violations", ofList ofLabel f.violations)]

end Failure
end Isnad.Debate
