import Isnad.Gate.Basic

/-! # Decisions of the gate and their records -/

namespace Isnad.Gate

/-- A verdict, with the input it was passed on. -/
structure Decision where
  claim : String
  verdict : Verdict
  confidence : Option Decimal
  dhabt : Option Decimal
deriving DecidableEq, Repr

namespace Decision

def isAllowed (d : Decision) : Bool :=
  match d.verdict with
  | .allowed _ => true
  | .blocked _ => false

def isBlocked (d : Decision) : Bool := !d.isAllowed

def reason (d : Decision) : Option BlockReason :=
  match d.verdict with
  | .allowed _ => none
  | .blocked r => some r

/-- The value was allowed on human verification. -/
def isBypassed (d : Decision) : Bool := d.verdict = .allowed true

/-- The decision in one line. -/
def line (d : Decision) : String :=
  match d.verdict with
  | .allowed true => "[ALLOW] " ++ d.claim ++ " (human verified)"
  | .allowed false => "[ALLOW] " ++ d.claim
  | .blocked r => "[BLOCK] " ++ d.claim ++ ": " ++ label r

end Decision

def Thresholds.evaluate (t : Thresholds) (i : Input) : Decision :=
  ⟨i.claim, t.verdict i, i.confidence, i.dhabt⟩

/-- A decision as it is written: the verdict is spread over four fields. -/
structure DecisionRecord where
  allowed : Bool
  blocked : Bool
  reason : Option BlockReason
  claim : String
  confidence : Option Decimal
  dhabt : Option Decimal
  bypassed : Bool
deriving DecidableEq, Repr

/-- How the fields of a record can contradict each other. -/
inductive Contradiction where
  | flags (claim : String) (allowed blocked : Bool)
  | allowedWithReason (reason : BlockReason)
  | blockedWithoutReason
deriving DecidableEq, Repr

def Contradiction.message : Contradiction → String
  | .flags claim allowed blocked =>
    "decision for " ++ claim ++ " has allowed=" ++ toString allowed ++ " and blocked=" ++
      toString blocked
  | .allowedWithReason r => "allowed decision carries block reason " ++ label r
  | .blockedWithoutReason => "blocked decision has no reason"

namespace Decision

def toRecord (d : Decision) : DecisionRecord where
  allowed := d.isAllowed
  blocked := d.isBlocked
  reason := d.reason
  claim := d.claim
  confidence := d.confidence
  dhabt := d.dhabt
  bypassed := d.isBypassed

/-- The decision that a record without contradictions states. -/
def ofRecord (r : DecisionRecord) : Except Contradiction Decision :=
  if r.allowed = r.blocked then .error (.flags r.claim r.allowed r.blocked)
  else
    match r.allowed, r.reason with
    | true, none => .ok ⟨r.claim, .allowed r.bypassed, r.confidence, r.dhabt⟩
    | false, some reason => .ok ⟨r.claim, .blocked reason, r.confidence, r.dhabt⟩
    | true, some reason => .error (.allowedWithReason reason)
    | false, none => .error .blockedWithoutReason

end Decision

namespace DecisionRecord

def layout : Json.Layout :=
  .of ["allowed", "blocked", "reason", "claim_id", "confidence", "dhabt_score",
    "bypassed_by_human_verification"] []

open Json in
def decode : Decoder DecisionRecord := fun w => do
  let f ← layout.read w
  let allowed ← f.required "allowed" .bool
  let blocked ← f.required "blocked" .bool
  let bypassed ← f.required "bypassed_by_human_verification" .bool
  let claim ← f.required "claim_id" .string
  let confidence ← f.option "confidence" .decimal
  let dhabt ← f.option "dhabt_score" .decimal
  let reason ← f.option "reason" .label
  pure { allowed, blocked, reason, claim, confidence, dhabt, bypassed }

open Json in
def toJson (r : DecisionRecord) : Json :=
  object [("allowed", .bool r.allowed), ("blocked", .bool r.blocked),
    ("reason", ofOption ofLabel r.reason), ("claim_id", .str r.claim),
    ("confidence", ofOption ofDecimal r.confidence), ("dhabt_score", ofOption ofDecimal r.dhabt),
    ("bypassed_by_human_verification", .bool r.bypassed)]

end DecisionRecord

def Decision.toJson (d : Decision) : Json := d.toRecord.toJson

/-- Decisions on several inputs, split by outcome and each side in the order of the inputs. -/
structure Batch where
  allowed : List Decision
  blocked : List Decision
deriving DecidableEq, Repr

namespace Batch

def empty : Batch := ⟨[], []⟩

/-- The batch with one more decision, on its side. -/
def push (b : Batch) (d : Decision) : Batch :=
  if d.isAllowed then { b with allowed := b.allowed ++ [d] }
  else { b with blocked := b.blocked ++ [d] }

def isAllAllowed (b : Batch) : Bool := b.blocked.isEmpty

def total (b : Batch) : Nat := b.allowed.length + b.blocked.length

open Json in
def toJson (b : Batch) : Json :=
  object [("allowed", ofList Decision.toJson b.allowed),
    ("blocked", ofList Decision.toJson b.blocked)]

end Batch

def Thresholds.evaluateBatch (t : Thresholds) (inputs : List Input) : Batch :=
  inputs.foldl (fun b i => b.push (t.evaluate i)) .empty

end Isnad.Gate
