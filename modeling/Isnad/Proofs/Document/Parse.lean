import Isnad.Proofs.Claim.Grammar
import Isnad.Proofs.Sanad.Readable
import Isnad.Proofs.Sanad.Spelling

/-!
# Which documents are accepted

A document is checked first and decoded then. One that fails its checks is rejected for the issues
that they found. One that passes them is accepted, unless it is among the few that the checks let
pass and the decoder refuses: these are rejected as a whole (`parses_unless_unreadable`).
-/

namespace Isnad

open Json

namespace Claim

/-- What the checks of a claim document let pass although it cannot be read. -/
inductive Unreadable (x : Json) : Prop where
  | isBound (h : x.member? "ic_bound" = some .null)

end Claim

namespace Document

variable {α : Type} {report : Report} {unreadable : Prop} {result : Except Rejection α}

/-- A document with the given report is accepted if it passes, unless it is unreadable. -/
structure ParsesUnless (report : Report) (unreadable : Prop) (result : Except Rejection α) :
    Prop where
  of_failed : report.passed = false → result = .error ⟨report.errors⟩
  of_unreadable : report.passed = true → unreadable →
    ∃ message, result = .error ⟨[⟨.invalidDocument, message, "$"⟩]⟩
  of_readable : report.passed = true → ¬ unreadable → ∃ a, result = .ok a

/-- What a decoder gives, where a document that it refuses is rejected as a whole. -/
def decoded (d : Decoder α) (x : Json) : Except Rejection α :=
  (Json.decode d x).mapError fun e => ⟨[⟨.invalidDocument, e.message, "$"⟩]⟩

/-- The decoder has the last word on a document that passes. -/
theorem parsesUnless_of_decodes {d : Decoder α} {x : Json}
    (h : report.passed = true → (Decodes d x ↔ ¬ unreadable)) :
    ParsesUnless report unreadable (report.accepted >>= fun _ => decoded d x) where
  of_failed hfailed := by simp [Report.accepted, hfailed, bind, Except.bind]
  of_unreadable hpassed hunreadable := by
    have hread := mt (h hpassed).mp (not_not_intro hunreadable)
    cases hd : Json.decode d x with
    | ok a => exact absurd ⟨a, hd⟩ hread
    | error e =>
      exact ⟨e.message, by simp [Report.accepted, hpassed, decoded, hd, Except.mapError, bind,
        Except.bind]⟩
  of_readable hpassed hreadable := by
    obtain ⟨a, ha⟩ := (h hpassed).mpr hreadable
    exact ⟨a, by simp [Report.accepted, hpassed, decoded, ha, Except.mapError, bind, Except.bind]⟩

theorem sanadParse_eq (x : Json) :
    Sanad.parse x = (Sanad.validate x).accepted >>= fun _ => decoded Sanad.decode x := by
  unfold Sanad.parse decoded
  cases Json.decode Sanad.decode x <;> rfl

theorem claimParse_eq (x : Json) :
    Claim.parse x = (Claim.validate x).accepted >>= fun _ => decoded Claim.decode x := by
  unfold Claim.parse decoded
  cases Json.decode Claim.decode x <;> rfl

/-- What is accepted are the documents that pass their checks, but for those with a null or with
blanks around a numeral at the places listed. -/
theorem parses_unless_unreadable (doc : OrderedJson) :
    let x := doc.toJson
    ParsesUnless (Sanad.validate x) (Sanad.Unreadable x) (Sanad.parse x) ∧
      ParsesUnless (Claim.validate x) (Claim.Unreadable x) (Claim.parse x) := by
  obtain ⟨x, hord⟩ := doc
  dsimp only
  rw [sanadParse_eq, claimParse_eq]
  refine ⟨parsesUnless_of_decodes fun hpassed => ?_, parsesUnless_of_decodes fun hpassed => ?_⟩
  · obtain ⟨doc, rfl, hnil⟩ := Sanad.passed_iff_memberIssues.mp hpassed
    exact Sanad.decodes_iff (Sanad.memberIssues_eq_nil_iff.mp hnil) hord
  · obtain ⟨doc, rfl, hnil⟩ := Claim.passed_iff_memberIssues.mp hpassed
    rw [Claim.decodes_iff (Claim.memberIssues_eq_nil_iff.mp hnil) hord]
    exact ⟨fun hnull hunreadable => hnull hunreadable.1, fun hreadable hnull =>
      hreadable ⟨hnull⟩⟩

/-- A sanad whose list of corroborators is null. -/
def nullList : OrderedJson where
  toJson := .obj (insertMember "corroborating_evidence_ids" .null
    (Sanad.twoNodes Sanad.lowerName Sanad.otherName Sanad.lowerName))
  isOrdered := by decide +kernel

/-- A claim that does not say whether it is bound. -/
def unsaidBound : OrderedJson where
  toJson := .obj [("claim_action", .str "NONE"), ("claim_grade", .str "B"),
    ("claim_id", .str Sanad.lowerName), ("claim_verdict", .str "VERIFIED")]
  isOrdered := by decide +kernel

/-- The one passes its checks and is rejected, the other one is accepted. -/
theorem parses_nullList_unsaidBound :
    (Sanad.validate nullList.toJson).passed = true ∧
      (∃ message, Sanad.parse nullList.toJson =
        .error ⟨[⟨.invalidDocument, message, "$"⟩]⟩) ∧
      (Claim.validate unsaidBound.toJson).passed = true ∧
      ∃ c, Claim.parse unsaidBound.toJson = .ok c := by
  have hpassed : (Sanad.validate nullList.toJson).passed = true := by decide +kernel
  have hpassed' : (Claim.validate unsaidBound.toJson).passed = true := by decide +kernel
  refine ⟨hpassed, ?_, hpassed', ?_⟩
  · exact (parses_unless_unreadable nullList).1.of_unreadable hpassed (.corroborators rfl)
  · exact (parses_unless_unreadable unsaidBound).2.of_readable hpassed' fun ⟨h⟩ => nomatch h

end Document
end Isnad
