import Isnad.Proofs.Grading.Formula
import Isnad.Proofs.Grading.Origins

/-!
# What a grade vouches for

Conflicts of interest fail closed: whatever is not cured holds the grade down or adds a defect. So a
grade better than C says of every source that its conflict was assessed and, where it is a hidden
one of high severity, that some corroborator backs the primary evidence; and a disclosed conflict
that adds no defect says that more than one does, or that independence was confirmed
(`grade_fails_closed`).
-/

namespace Isnad

/-- The item is independent support: of a high tier, without a conflict or with a low one, and not
of the origin of the primary evidence. -/
structure Evidence.Backs (e primary : Evidence) : Prop where
  tier : e.tier.isHigh = true
  clean : e.isClean = true
  origin : e.origin ≠ primary.origin

theorem Evidence.backs_iff {e p : Evidence} :
    e.Backs p ↔ e.isEligible = true ∧ e.origin ≠ p.origin := by
  rw [isEligible, Bool.and_eq_true]
  exact ⟨fun h => ⟨⟨h.tier, h.clean⟩, h.origin⟩, fun ⟨⟨htier, hclean⟩, ho⟩ => ⟨htier, hclean, ho⟩⟩

namespace Grading

variable {s : Sanad} {p e : Evidence} {corroborators : List Evidence} {c : CureContext}

/-! ## The corroborators behind a number -/

theorem mem_origins_iff {o : String} :
    o ∈ (eligibleOrigins corroborators).erase p.origin ↔
      ∃ b ∈ corroborators, b.Backs p ∧ b.origin = o := by
  simp only [Finset.mem_erase, mem_eligibleOrigins, Evidence.backs_iff]
  constructor
  · rintro ⟨hne, b, hb, heligible, rfl⟩
    exact ⟨b, hb, ⟨heligible, hne⟩, rfl⟩
  · rintro ⟨b, hb, ⟨heligible, hne⟩, rfl⟩
    exact ⟨hne, b, hb, heligible, rfl⟩

theorem one_le_independent_iff (check : Option IndependenceCheck) :
    1 ≤ (assess (some p) corroborators check).independent ↔ ∃ b ∈ corroborators, b.Backs p := by
  rw [independent_assess, Finset.one_le_card]
  constructor
  · rintro ⟨o, ho⟩
    obtain ⟨b, hb, hbacks, -⟩ := mem_origins_iff.mp ho
    exact ⟨b, hb, hbacks⟩
  · rintro ⟨b, hb, hbacks⟩
    exact ⟨b.origin, mem_origins_iff.mpr ⟨b, hb, hbacks, rfl⟩⟩

theorem two_le_independent_iff (check : Option IndependenceCheck) :
    2 ≤ (assess (some p) corroborators check).independent ↔
      ∃ b ∈ corroborators, ∃ b' ∈ corroborators,
        b.Backs p ∧ b'.Backs p ∧ b.origin ≠ b'.origin := by
  rw [independent_assess, Nat.succ_le_iff, Finset.one_lt_card]
  constructor
  · rintro ⟨o, ho, o', ho', hne⟩
    obtain ⟨b, hb, hbacks, rfl⟩ := mem_origins_iff.mp ho
    obtain ⟨b', hb', hbacks', rfl⟩ := mem_origins_iff.mp ho'
    exact ⟨b, hb, b', hb', hbacks, hbacks', hne⟩
  · rintro ⟨b, hb, b', hb', hbacks, hbacks', hne⟩
    exact ⟨b.origin, mem_origins_iff.mpr ⟨b, hb, hbacks, rfl⟩, b'.origin,
      mem_origins_iff.mpr ⟨b', hb', hbacks', rfl⟩, hne⟩

theorem statusOf_eq_mutawatir_iff {n : Nat} {isConfirmed : Bool} :
    statusOf n isConfirmed = .mutawatir ↔ 2 ≤ n ∨ n = 1 ∧ isConfirmed = true := by
  match n with
  | 0 => simp [statusOf]
  | 1 => cases isConfirmed <;> simp [statusOf]
  | n + 2 => simp [statusOf]

/-- What cures a disclosed conflict: two corroborators, or one and a check that confirms. -/
theorem cures_disclosed_iff :
    (cureContext s p corroborators).cures true = true ↔
      (∃ b ∈ corroborators, ∃ b' ∈ corroborators,
          b.Backs p ∧ b'.Backs p ∧ b.origin ≠ b'.origin) ∨
        (∃ b ∈ corroborators, b.Backs p) ∧
          s.independence.any IndependenceCheck.confirms = true := by
  rw [CureContext.cures_true_iff, ← one_le_independent_iff s.independence,
    ← two_le_independent_iff s.independence]
  simp only [cureContext, status_assess, statusOf_eq_mutawatir_iff]
  cases s.independence.any IndependenceCheck.confirms with
  | true =>
    simp only [and_true]
    omega
  | false => simp only [Bool.false_eq_true, and_false, or_false, or_self]

theorem cures_hidden_iff :
    (cureContext s p corroborators).cures false = true ↔
      s.independence.any IndependenceCheck.contradicts = false ∧
        ∃ b ∈ corroborators, b.Backs p := by
  rw [CureContext.cures_false_iff, ← one_le_independent_iff s.independence, and_comm,
    Bool.not_eq_true']
  rfl

/-! ## Sources that nothing is imposed on -/

theorem isCapping_eq_false_iff :
    c.isCapping e = false ↔
      e.hasUnassessed = false ∧ (e.hasHigh false = true → c.cures false = true) := by
  rw [CureContext.isCapping, CureContext.isUncuredHigh, Bool.or_eq_false_iff]
  refine and_congr_right fun _ => ?_
  cases e.hasHigh false <;> simp

/-- A grade better than that of the cap leaves no source that would set it. -/
theorem isCapping_eq_false_of_grade
    (h : (grade s (some p) corroborators).grade.rank < Grade.c.rank) :
    ∀ e ∈ p :: corroborators, (cureContext s p corroborators).isCapping e = false := by
  rw [rank_grade_eq, finalRank] at h
  have hany : ¬ (p :: corroborators).any (cureContext s p corroborators).isCapping = true := by
    intro hany
    rw [if_pos hany] at h
    exact absurd (Nat.le_max_right _ 2) (Nat.not_le_of_lt h)
  rw [List.any_eq_true] at hany
  exact fun e he => Bool.eq_false_of_not_eq_true fun hcapping => hany ⟨e, he, hcapping⟩

/-- A disclosed conflict that costs nothing is cured. -/
theorem cures_of_defect_eq_none (hhigh : e.hasHigh true = true)
    (h : (judgeSource c e).defect = none) : c.cures true = true := by
  have hcostly : c.isCostly e = false := by
    rw [← (judgeSource_imposes c e).defect, h]
    rfl
  rw [CureContext.isCostly, CureContext.isUncuredHigh, hhigh, Bool.or_eq_false_iff] at hcostly
  simpa using hcostly.1

/-- With a grade better than C there is no conflict of unknown severity, and where any source hides
one of high severity, independence is not denied and some corroborator backs the primary evidence.
If the primary evidence discloses a conflict of high severity and the judgement on it, which comes
first, adds no defect, then two corroborators of different origins back it, or one does and
independence is confirmed. -/
theorem grade_fails_closed (s : Sanad) (primary : Option Evidence) (corroborators : List Evidence) :
    ((grade s primary corroborators).grade.rank < Grade.c.rank →
        ∃ p, primary = some p ∧
          (∀ e ∈ p :: corroborators, e.hasUnassessed = false) ∧
          ((∃ e ∈ p :: corroborators, e.hasHigh false = true) →
            s.independence.any IndependenceCheck.contradicts = false ∧
              ∃ b ∈ corroborators, b.Backs p)) ∧
      ∀ p r, primary = some p → p.hasHigh true = true →
        (grade s primary corroborators).sources.head? = some r → r.defect = none →
        (∃ b ∈ corroborators, ∃ b' ∈ corroborators,
            b.Backs p ∧ b'.Backs p ∧ b.origin ≠ b'.origin) ∨
          (∃ b ∈ corroborators, b.Backs p) ∧
            s.independence.any IndependenceCheck.confirms = true := by
  constructor
  · intro h
    cases primary with
    | none => exact absurd h (show ¬ Grade.d.rank < Grade.c.rank by decide)
    | some p =>
      have hcapping := isCapping_eq_false_of_grade h
      refine ⟨p, rfl, fun e he => (isCapping_eq_false_iff.mp (hcapping e he)).1, ?_⟩
      rintro ⟨e, he, hhigh⟩
      exact cures_hidden_iff.mp ((isCapping_eq_false_iff.mp (hcapping e he)).2 hhigh)
  · rintro p r rfl hhigh hr hdefect
    obtain rfl : judgeSource (cureContext s p corroborators) p = r := Option.some.inj hr
    exact cures_disclosed_iff.mp (cures_of_defect_eq_none hhigh hdefect)

/-- A source with a conflict of high severity. -/
def conflicted (isDisclosed : Bool) : Evidence :=
  ⟨(withDefects []).primary, "company", .b, .thiqah, some (.ofSeverity .high isDisclosed)⟩

/-- With one corroborator and a check that confirms, a hidden conflict of the primary evidence
leaves the grade at A and a disclosed one adds no defect. -/
theorem grade_fails_closed_confirmed :
    let s := { withDefects [] with independence := some ⟨true, true⟩ }
    let audit : Evidence := ⟨s.primary, "audit", .b, .athbatAlNas, none⟩
    let r := CureResult.cured s.primary "disclosed HIGH conflict cured by MUTAWATIR corroboration"
    ((grade s (some (conflicted false)) [audit]).grade = .a ∧
        (conflicted false).hasHigh false = true ∧
        s.independence.any IndependenceCheck.contradicts = false ∧
        ∃ b ∈ [audit], b.Backs (conflicted false)) ∧
      (conflicted true).hasHigh true = true ∧
        (grade s (some (conflicted true)) [audit]).sources.head? = some r ∧ r.defect = none ∧
        ((∃ b ∈ [audit], ∃ b' ∈ [audit],
            b.Backs (conflicted true) ∧ b'.Backs (conflicted true) ∧ b.origin ≠ b'.origin) ∨
          (∃ b ∈ [audit], b.Backs (conflicted true)) ∧
            s.independence.any IndependenceCheck.confirms = true) := by
  intro s audit r
  have hgrade : (grade s (some (conflicted false)) [audit]).grade = .a := by decide
  have hhidden : (conflicted false).hasHigh false = true := by decide
  have hhigh : (conflicted true).hasHigh true = true := by decide
  have hr : (grade s (some (conflicted true)) [audit]).sources.head? = some r := by decide
  obtain ⟨p, hp, -, hbacked⟩ :=
    (grade_fails_closed s (some (conflicted false)) [audit]).1 (by rw [hgrade]; decide)
  obtain rfl := Option.some.inj hp
  have hdisclosed := (grade_fails_closed s (some (conflicted true)) [audit]).2
    (conflicted true) r rfl hhigh hr rfl
  exact ⟨⟨hgrade, hhidden, hbacked ⟨_, List.mem_cons_self, hhidden⟩⟩, hhigh, hr, rfl, hdisclosed⟩

end Grading
end Isnad
