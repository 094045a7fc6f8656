import Isnad.Proofs.Grading.Counting

/-!
# What the cure of a corroborator rests on

A corroborator counts as independent of the primary evidence and of what was counted before it.
Nothing compares it with a source that is to be cured. So the hidden conflict of a corroborator is
cured where any corroborator backs the primary evidence, and all that do may be of its own origin
(`not_cured_apart`). This happens only where a single corroborator counts (`cured_backed`).
-/

namespace Isnad.Grading

variable {s : Sanad} {p e : Evidence} {corroborators : List Evidence} {c : CureContext}
  {r : CureResult} {i : Nat}

/-- A hidden conflict of high severity is cured as the table says. -/
theorem isCured_judgeSource_of_hidden (h : e.hasHigh false = true) :
    (judgeSource c e).isCured = c.cures false := by
  obtain ⟨conflict, hconflict, hhigh⟩ := Option.any_eq_true _ _ |>.mp h
  simp only [Bool.and_eq_true, decide_eq_true_eq] at hhigh
  obtain ⟨⟨hpresent, hseverity⟩, hhidden⟩ := hhigh
  have hjudge : judgeSource c e = judgeHighUndisclosed e.id c := by
    simp [judgeSource, judgeConflict, hconflict, hpresent, hseverity, hhidden]
  rw [hjudge, (judgeHighUndisclosed_imposes e.id c).isCured, Bool.or_self, Bool.not_not]

theorem isCured_of_sources (hhigh : e.hasHigh false = true) (he : corroborators[i]? = some e)
    (hr : (grade s (some p) corroborators).sources[i + 1]? = some r) :
    r.isCured = true ↔ s.independence.any IndependenceCheck.contradicts = false ∧
      ∃ b ∈ corroborators, b.Backs p := by
  rw [sources_grade, List.getElem?_map, List.getElem?_cons_succ, he, Option.map_some,
    Option.some.injEq] at hr
  rw [← hr, isCured_judgeSource_of_hidden hhigh, cures_hidden_iff]

/-- Where all that could count is of one origin and some of it counts, one item does. -/
theorem independent_eq_one {origin : String} (hb : ∃ b ∈ corroborators, b.Backs p)
    (hall : ∀ b ∈ corroborators, b.isEligible = true → b.origin = origin)
    (check : Option IndependenceCheck) :
    (assess (some p) corroborators check).independent = 1 ∧ origin ≠ p.origin := by
  obtain ⟨b, hmem, hbacks⟩ := hb
  obtain ⟨heligible, hne⟩ := Evidence.backs_iff.mp hbacks
  obtain rfl := hall b hmem heligible
  refine ⟨?_, hne⟩
  rw [independent_assess, Finset.card_eq_one]
  refine ⟨b.origin, Finset.ext fun origin => ?_⟩
  rw [mem_origins_iff, Finset.mem_singleton]
  constructor
  · rintro ⟨b', hmem', hbacks', rfl⟩
    exact hall b' hmem' (Evidence.backs_iff.mp hbacks').1
  · rintro rfl
    exact ⟨b, hmem, hbacks, rfl⟩

/-- The hidden conflict of a corroborator is cured exactly if independence is not denied and some
corroborator backs the primary evidence. Then some item of a high tier that is clean of conflicts
has another origin than the corroborator that is cured, unless a single corroborator counts, all
such items have the origin of the one that is cured, and the primary evidence has not. -/
theorem cured_backed (hhigh : e.hasHigh false = true) (he : corroborators[i]? = some e)
    (hr : (grade s (some p) corroborators).sources[i + 1]? = some r) :
    (r.isCured = true ↔ s.independence.any IndependenceCheck.contradicts = false ∧
      ∃ b ∈ corroborators, b.Backs p) ∧
    (r.isCured = true →
      (∃ b ∈ corroborators, b.isEligible = true ∧ b.origin ≠ e.origin) ∨
        (assess (some p) corroborators s.independence).independent = 1 ∧
          e.origin ≠ p.origin ∧
          ∀ b ∈ corroborators, b.isEligible = true → b.origin = e.origin) := by
  have hcured := isCured_of_sources hhigh he hr
  refine ⟨hcured, fun h => ?_⟩
  by_cases hall : ∀ b ∈ corroborators, b.isEligible = true → b.origin = e.origin
  · obtain ⟨hone, hne⟩ := independent_eq_one (hcured.mp h).2 hall s.independence
    exact .inr ⟨hone, hne, hall⟩
  · push Not at hall
    exact .inl hall

/-- An item of an advisor, who may hide a conflict of high severity. -/
def advice (hidesConflict : Bool) : Evidence :=
  ⟨unconflicted.id, "advisor", .b, .athbatAlNas,
    if hidesConflict then some (.ofSeverity .high false) else none⟩

/-- With an audit beside the second item of the advisor, two corroborators count, and the audit is
what the cure of the first item rests on apart from its own origin. -/
theorem cured_backed_audited :
    let audit : Evidence := ⟨unconflicted.id, "audit", .b, .athbatAlNas, none⟩
    let corroborators := [advice true, advice false, audit]
    let r := CureResult.cured unconflicted.id
      "undisclosed HIGH conflict cured by 2 independent high-tier corroborator(s)"
    (advice true).hasHigh false = true ∧ corroborators[0]? = some (advice true) ∧
      (grade (withDefects []) (some unconflicted) corroborators).sources[0 + 1]? = some r ∧
      r.isCured = true ∧ (∃ b ∈ corroborators, b.Backs unconflicted) ∧
      ∃ b ∈ corroborators, b.isEligible = true ∧ b.origin ≠ (advice true).origin := by
  intro audit corroborators r
  have hhigh : (advice true).hasHigh false = true := by decide
  have hr :
      (grade (withDefects []) (some unconflicted) corroborators).sources[0 + 1]? = some r := by
    decide
  have he : corroborators[0]? = some (advice true) := rfl
  obtain ⟨hcured, hapart⟩ := cured_backed hhigh he hr
  refine ⟨hhigh, he, hr, rfl, (hcured.mp rfl).2, (hapart rfl).resolve_right fun h => ?_⟩
  exact absurd h.1 (by decide)

/-- A second item of the advisor is enough to cure the conflict that the first one hides. -/
theorem not_cured_apart :
    ¬ ∀ (s : Sanad) (p e : Evidence) (corroborators : List Evidence) (i : Nat) (r : CureResult),
      e.hasHigh false = true → corroborators[i]? = some e →
        (grade s (some p) corroborators).sources[i + 1]? = some r → r.isCured = true →
          ∃ b ∈ corroborators, b.isEligible = true ∧ b.origin ≠ e.origin := by
  intro h
  obtain ⟨b, hb, -, hne⟩ := h (withDefects []) unconflicted (advice true)
    [advice true, advice false] 0
    (.cured unconflicted.id
      "undisclosed HIGH conflict cured by 1 independent high-tier corroborator(s)")
    (by decide) rfl (by decide) rfl
  simp only [List.mem_cons, List.not_mem_nil, or_false] at hb
  rcases hb with rfl | rfl
  · exact hne rfl
  · exact hne rfl

end Isnad.Grading
