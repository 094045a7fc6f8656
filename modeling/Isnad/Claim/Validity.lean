import Isnad.Claim.Basic
import Isnad.Document

/-! # Checking claim documents -/

namespace Isnad

namespace ClaimRule

def code : ClaimRule → IssueCode
  | .noFreeFacts => .nffViolation
  | .gradeDRequiresAction => .gradeDRequiresAction
  | .contradictedRequiresAction => .contradictedRequiresAction

def path : ClaimRule → String
  | .noFreeFacts => "ic_bound"
  | .gradeDRequiresAction | .contradictedRequiresAction => "claim_action"

def message : ClaimRule → String
  | .noFreeFacts => "ic_bound claim has neither sanad_id nor primary_span_id"
  | .gradeDRequiresAction => "grade D claim must carry an action other than NONE"
  | .contradictedRequiresAction => "CONTRADICTED claim must carry an action other than NONE"

def issue (r : ClaimRule) : Issue := ⟨r.code, r.message, r.path⟩

end ClaimRule

namespace Claim

open Document

def checkBool (name path : String) : Json → Checked Bool
  | .bool b => .ok b
  | _ => .fail .invalidType path (name ++ " must be a boolean")

def checkSpan (path : String) : Json → Checked String
  | .str s => .ok s
  | _ => .fail .invalidType path "primary_span_id must be a string"

/-- The rules are checked only where the fields they are about can be read. -/
def ruleIssues (grade : Option Grade) (verdict : Option ClaimVerdict) (action : Option ClaimAction)
    (isBound hasReference : Bool) : List Issue :=
  match grade, verdict, action with
  | some g, some v, some a => (ClaimRule.broken g v a isBound hasReference).map ClaimRule.issue
  | _, _, _ => []

def memberIssues (doc : Members) : List Issue :=
  let id := uuid doc "claim_id" ""
  let grade : Checked Grade := labelled doc "claim_grade" "" true
  let verdict : Checked ClaimVerdict := labelled doc "claim_verdict" "" true
  let action : Checked ClaimAction := labelled doc "claim_action" "" true
  let isBound := field doc "ic_bound" "" false (checkBool "ic_bound")
  let sanad := uuid? doc "sanad_id" ""
  let span := field doc "primary_span_id" "" false checkSpan
  let hasSpan := span.value.any fun s => !Text.isBlankText s
  id.issues ++ grade.issues ++ verdict.issues ++ action.issues ++ isBound.issues ++ sanad.issues ++
    span.issues ++
    ruleIssues grade.value verdict.value action.value (isBound.value.getD false)
      (sanad.value.isSome || hasSpan)

/-- Checks a claim document and reports all of its problems. -/
def validate : Json → Report
  | .obj doc => .ofIssues (memberIssues doc) []
  | _ => .failed .invalidDocument "$" "claim document must be a JSON object"

/-- The claim that a document without problems holds. -/
def parse (doc : Json) : Except Rejection Claim := do
  let _ ← (validate doc).accepted
  match Json.decode decode doc with
  | .ok c => .ok c
  | .error e => .error ⟨[⟨.invalidDocument, e.message, "$"⟩]⟩

end Claim
end Isnad
