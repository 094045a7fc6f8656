import Isnad.Debate.Account
import Isnad.Proofs.Decimal.Value

/-!
# Sound accounts

A policy finds nothing wrong with an account exactly if the account is sound
(`Policy.violations_eq_nil_iff`).
-/

namespace Isnad.Debate

variable {p : Policy} {a : Account}

/-- What a policy asks of an account. Confidence counts by its value. -/
structure Account.IsSound (p : Policy) (a : Account) : Prop where
  confidence_mem : 0 ≤ a.confidence.toRat ∧ a.confidence.toRat ≤ 1
  /-- Facts rest on claims. -/
  supported : a.isSubjective = true ∨ a.claims ≠ []
  /-- Confidence above the ceiling comes with an uncertainty. -/
  humble : a.confidence.toRat ≤ p.ceiling.toRat ∨ a.uncertainties ≠ []

namespace Policy

theorem violations_eq_nil_iff : p.violations a = [] ↔ a.IsSound p := by
  have hrange : (if a.confidence.inUnitInterval then []
      else [Violation.confidenceOutOfRange]) = [] ↔
      0 ≤ a.confidence.toRat ∧ a.confidence.toRat ≤ 1 := by
    rw [← Decimal.inUnitInterval_iff_toRat]
    simp
  have hclaims : (if !a.isSubjective && a.claims.isEmpty then [Violation.noSupportedClaims]
      else []) = [] ↔ a.isSubjective = true ∨ a.claims ≠ [] := by
    cases a.isSubjective <;> simp
  have hceiling : (if p.ceiling < a.confidence ∧ a.uncertainties.isEmpty then
      [Violation.overconfidentWithoutUncertainty] else []) = [] ↔
      a.confidence.toRat ≤ p.ceiling.toRat ∨ a.uncertainties ≠ [] := by
    rw [← not_lt, ← Decimal.lt_iff_toRat]
    simp [imp_iff_not_or]
  rw [violations, List.append_eq_nil_iff, List.append_eq_nil_iff, hrange, hclaims, hceiling]
  constructor
  · rintro ⟨⟨hconfidence, hsupport⟩, hhumble⟩
    exact ⟨hconfidence, hsupport, hhumble⟩
  · rintro ⟨hconfidence, hsupport, hhumble⟩
    exact ⟨⟨hconfidence, hsupport⟩, hhumble⟩

theorem passes_iff : p.passes a = true ↔ a.IsSound p := by
  rw [passes, List.isEmpty_iff, violations_eq_nil_iff]

end Policy
end Isnad.Debate
