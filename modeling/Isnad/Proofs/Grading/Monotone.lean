import Isnad.Proofs.Grading.Formula
import Isnad.Proofs.Grading.Origins

/-!
# Support and doubt

What the cures of a sanad depend on is ordered by how much it supports (`CureContext.Supports`).
More support cures no less and starts from no weaker grade, so each quantity that the grade is
computed from follows the order (`grade_le`). Corroborators with mild conflicts and a favourable
independence check support, and defects on record only ever count against the sanad
(`grade_monotone`).
-/

namespace Isnad

/-- Without a conflict, or with one that is assessed and at most of medium severity. -/
def Evidence.isMild (e : Evidence) : Bool :=
  e.conflict.all fun c => !c.isPresent || c.severity = some .low || c.severity = some .medium

theorem Evidence.hasUnassessed_of_isMild {e : Evidence} (h : e.isMild = true) :
    e.hasUnassessed = false := by
  cases hc : e.conflict with
  | none => simp [hasUnassessed, hc]
  | some c => cases hs : c.severity <;> simp_all [hasUnassessed, isMild]

theorem Evidence.hasHigh_of_isMild {e : Evidence} (h : e.isMild = true) (isDisclosed : Bool) :
    e.hasHigh isDisclosed = false := by
  cases hc : e.conflict with
  | none => simp [hasHigh, hc]
  | some c =>
    rw [isMild, hc] at h
    rcases hs : c.severity with - | - | - | - <;> simp_all [hasHigh]

theorem IndependenceCheck.contradicts_of_confirms {check : IndependenceCheck}
    (h : check.confirms = true) : check.contradicts = false := by
  rw [confirms, Bool.and_eq_true] at h
  simp [contradicts, h]

namespace Grading

variable {s s' : Sanad} {primary : Option Evidence} {p e : Evidence}
  {corroborators corroborators' : List Evidence} {c c' : CureContext}
  {check check' : Option IndependenceCheck} {isDisclosed : Bool}

/-! ## The order of support -/

/-- There are no fewer corroborators, full corroboration stays, and nothing new is denied. -/
structure CureContext.Supports (c' c : CureContext) : Prop where
  independent : c.independent ≤ c'.independent
  status : c.status = .mutawatir → c'.status = .mutawatir
  check : c'.check.any IndependenceCheck.contradicts = true →
    c.check.any IndependenceCheck.contradicts = true

namespace CureContext.Supports

theorem cures (h : c'.Supports c) (hc : c.cures isDisclosed = true) :
    c'.cures isDisclosed = true := by
  cases isDisclosed with
  | true => exact cures_true_iff.mpr ((cures_true_iff.mp hc).imp h.status h.independent.trans')
  | false =>
    obtain ⟨hindependent, hcheck⟩ := cures_false_iff.mp hc
    rw [Bool.not_eq_true'] at hcheck
    have hcheck' : c'.check.any IndependenceCheck.contradicts = false := by
      by_contra hne
      rw [h.check (Bool.eq_true_of_not_eq_false hne)] at hcheck
      cases hcheck
    exact cures_false_iff.mpr ⟨hindependent.trans h.independent, by rw [hcheck', Bool.not_false]⟩

theorem isUncuredHigh (h : c'.Supports c) (hc : c'.isUncuredHigh e isDisclosed = true) :
    c.isUncuredHigh e isDisclosed = true := by
  rw [CureContext.isUncuredHigh, Bool.and_eq_true, Bool.not_eq_true'] at hc ⊢
  refine ⟨hc.1, Bool.eq_false_iff.mpr fun hcures => ?_⟩
  rw [h.cures hcures] at hc
  exact absurd hc.2 (by decide)

theorem isCapping (h : c'.Supports c) (hc : c'.isCapping e = true) : c.isCapping e = true := by
  rw [CureContext.isCapping, Bool.or_eq_true] at hc ⊢
  exact hc.imp_right h.isUncuredHigh

theorem isCostly (h : c'.Supports c) (hc : c'.isCostly e = true) : c.isCostly e = true := by
  rw [CureContext.isCostly, Bool.or_eq_true] at hc ⊢
  exact hc.imp h.isUncuredHigh h.isUncuredHigh

theorem startRank_le (h : c'.Supports c) (p : Evidence) : startRank c' p ≤ startRank c p := by
  rw [startRank, startRank]
  by_cases hc : c.status = .mutawatir
  · rw [if_pos hc, if_pos (h.status hc)]
  · rw [if_neg hc]
    split
    · exact Nat.sub_le _ _
    · exact Nat.le_refl _

end CureContext.Supports

/-- The grade follows each quantity that it is computed from. -/
theorem grade_le (hfatal : s.hasOpenFatal = true → s'.hasOpenFatal = true)
    (hstart : startRank (cureContext s p corroborators) p ≤
      startRank (cureContext s' p corroborators') p)
    (hcost : cost (cureContext s p corroborators) s (p :: corroborators) ≤
      cost (cureContext s' p corroborators') s' (p :: corroborators'))
    (hcap : (p :: corroborators).countP (cureContext s p corroborators).isCapping ≤
      (p :: corroborators').countP (cureContext s' p corroborators').isCapping) :
    (grade s (some p) corroborators).grade ≤ (grade s' (some p) corroborators').grade := by
  have hcapped : (p :: corroborators).any (cureContext s p corroborators).isCapping = true →
      (p :: corroborators').any (cureContext s' p corroborators').isCapping = true := by
    rw [List.any_eq_true, ← List.countP_pos_iff, List.any_eq_true, ← List.countP_pos_iff]
    exact fun h => h.trans_le hcap
  rw [Grade.le_def, rank_grade_eq, rank_grade_eq, finalRank, finalRank]
  generalize startRank (cureContext s p corroborators) p = start,
    startRank (cureContext s' p corroborators') p = start' at hstart ⊢
  have huncapped : (if s.hasOpenFatal then 3 else
      min 3 (start + cost (cureContext s p corroborators) s (p :: corroborators))) ≤
      if s'.hasOpenFatal then 3 else
        min 3 (start' + cost (cureContext s' p corroborators') s' (p :: corroborators')) := by
    by_cases h : s.hasOpenFatal = true
    · rw [if_pos h, if_pos (hfatal h)]
    · rw [if_neg h]
      split <;> omega
  by_cases h : (p :: corroborators).any (cureContext s p corroborators).isCapping = true
  · rw [if_pos h, if_pos (hcapped h)]
    exact max_le_max_right 2 huncapped
  · rw [if_neg h]
    by_cases h' : (p :: corroborators').any (cureContext s' p corroborators').isCapping = true
    · rw [if_pos h']
      exact le_max_of_le_left huncapped
    · rw [if_neg h']
      exact huncapped

/-- More support for the same defects, and no more sources that it leaves costly or capping. -/
theorem CureContext.Supports.grade_le
    (h : (cureContext s' p corroborators').Supports (cureContext s p corroborators))
    (hdefects : s'.defects = s.defects)
    (hcostly : (p :: corroborators').countP (cureContext s' p corroborators').isCostly ≤
      (p :: corroborators).countP (cureContext s' p corroborators').isCostly)
    (hcapping : (p :: corroborators').countP (cureContext s' p corroborators').isCapping ≤
      (p :: corroborators).countP (cureContext s' p corroborators').isCapping) :
    (grade s' (some p) corroborators').grade ≤ (grade s (some p) corroborators).grade := by
  refine Grading.grade_le ?_ (h.startRank_le p) ?_ ?_
  · rw [Sanad.hasOpenFatal, hdefects]
    exact id
  · rw [cost, cost, hdefects]
    exact Nat.add_le_add_left
      (hcostly.trans (List.countP_mono_left fun _ _ => h.isCostly)) _
  · exact hcapping.trans (List.countP_mono_left fun _ _ => h.isCapping)

/-! ## More corroborators -/

theorem statusOf_mono {m n : Nat} {isConfirmed isConfirmed' : Bool} (h : m ≤ n)
    (hconfirmed : isConfirmed = true → isConfirmed' = true)
    (hm : statusOf m isConfirmed = .mutawatir) : statusOf n isConfirmed' = .mutawatir := by
  match m, n with
  | 0, _ => cases hm
  | 1, 0 => omega
  | 1, 1 =>
    cases isConfirmed with
    | false => cases hm
    | true => rw [hconfirmed rfl]; rfl
  | _, n + 2 => rfl
  | m + 2, 0 => omega
  | m + 2, 1 => omega

theorem cureContext_supports_insertIdx (s : Sanad) (p : Evidence) (corroborators : List Evidence)
    (i : Nat) (e : Evidence) :
    (cureContext s p (corroborators.insertIdx i e)).Supports (cureContext s p corroborators) where
  independent := independent_le_insertIdx p corroborators s.independence i e
  status := statusOf_mono (independent_le_insertIdx p corroborators s.independence i e) id
  check := id

theorem countP_insertIdx_of_neg {α : Type} {f : α → Bool} {a : α} (ha : f a = false) (l : List α)
    (i : Nat) : (l.insertIdx i a).countP f = l.countP f := by
  by_cases hi : i ≤ l.length
  · rw [(List.perm_insertIdx a l hi).countP_eq, List.countP_cons_of_neg (by simp [ha])]
  · rw [List.insertIdx_of_length_lt (by omega)]

/-- A source with a mild conflict, or none, costs and limits nothing. -/
theorem CureContext.harmless_of_isMild (h : e.isMild = true) (c : CureContext) :
    c.isCostly e = false ∧ c.isCapping e = false := by
  simp [isCostly, isCapping, isUncuredHigh, e.hasHigh_of_isMild h, e.hasUnassessed_of_isMild h]

theorem grade_insertIdx_le (h : e.isMild = true) (s : Sanad) (primary : Option Evidence)
    (corroborators : List Evidence) (i : Nat) :
    (grade s primary (corroborators.insertIdx i e)).grade ≤
      (grade s primary corroborators).grade := by
  cases primary with
  | none => exact Nat.le_refl _
  | some p =>
    obtain ⟨hcostly, hcapping⟩ :=
      (cureContext s p (corroborators.insertIdx i e)).harmless_of_isMild h
    refine (cureContext_supports_insertIdx s p corroborators i e).grade_le rfl ?_ ?_
    · exact (countP_insertIdx_of_neg hcostly (p :: corroborators) (i + 1)).le
    · exact (countP_insertIdx_of_neg hcapping (p :: corroborators) (i + 1)).le

/-! ## A more favourable check -/

/-- Checks are compared by what they confirm and what they contradict. -/
theorem grade_check_le
    (hconfirms : check.any IndependenceCheck.confirms = true →
      check'.any IndependenceCheck.confirms = true)
    (hcontradicts : check'.any IndependenceCheck.contradicts = true →
      check.any IndependenceCheck.contradicts = true)
    (s : Sanad) (primary : Option Evidence) (corroborators : List Evidence) :
    (grade { s with independence := check' } primary corroborators).grade ≤
      (grade { s with independence := check } primary corroborators).grade := by
  cases primary with
  | none => exact Nat.le_refl _
  | some p =>
    have hsupports : (cureContext { s with independence := check' } p corroborators).Supports
        (cureContext { s with independence := check } p corroborators) := by
      refine ⟨?_, ?_, hcontradicts⟩
      · simp only [cureContext, independent_assess, Nat.le_refl]
      · simp only [cureContext, status_assess, independent_assess]
        exact statusOf_mono (Nat.le_refl _) hconfirms
    exact hsupports.grade_le rfl (Nat.le_refl _) (Nat.le_refl _)

/-! ## Fewer defects -/

/-- Of the defects on record, the lasting major ones and the fatal ones count against a sanad. -/
theorem grade_defects_le {defects : List Defect}
    (hmajor : s.defects.countP Defect.isLastingMajor ≤ defects.countP Defect.isLastingMajor)
    (hfatal : s.defects.countP Defect.isOpenFatal ≤ defects.countP Defect.isOpenFatal)
    (primary : Option Evidence) (corroborators : List Evidence) :
    (grade s primary corroborators).grade ≤
      (grade { s with defects := defects } primary corroborators).grade := by
  cases primary with
  | none => exact Nat.le_refl _
  | some p =>
    refine grade_le ?_ (Nat.le_refl _) (Nat.add_le_add_right hmajor _) (Nat.le_refl _)
    rw [Sanad.hasOpenFatal, Sanad.hasOpenFatal, List.any_eq_true, ← List.countP_pos_iff,
      List.any_eq_true, ← List.countP_pos_iff]
    exact fun h => h.trans_le hfatal

theorem grade_le_insertIdx_defect (s : Sanad) (primary : Option Evidence)
    (corroborators : List Evidence) (i : Nat) (d : Defect) :
    (grade s primary corroborators).grade ≤
      (grade { s with defects := s.defects.insertIdx i d } primary corroborators).grade :=
  grade_defects_le (List.sublist_insertIdx _ _ _).countP_le
    (List.sublist_insertIdx _ _ _).countP_le primary corroborators

theorem countP_set_le {α : Type} {f : α → Bool} {l : List α} {i : Nat} {a b : α}
    (ha : l[i]? = some a) (hb : f b = true → f a = true) : (l.set i b).countP f ≤ l.countP f := by
  obtain ⟨hi, rfl⟩ := List.getElem?_eq_some_iff.mp ha
  rw [List.countP_set hi]
  have hpos : f l[i] = true → 0 < l.countP f := fun h =>
    List.countP_pos_iff.mpr ⟨l[i], List.getElem_mem hi, h⟩
  split <;> split <;> simp_all

/-- An open defect counts for no less than it does with another status. -/
theorem grade_set_status_le {d : Defect} {i : Nat} (hd : s.defects[i]? = some d)
    (hopen : d.isOpen = true) (status : DefectStatus) (primary : Option Evidence)
    (corroborators : List Evidence) :
    (grade { s with defects := s.defects.set i { d with status := status } } primary
      corroborators).grade ≤ (grade s primary corroborators).grade := by
  have hmajor : Defect.isLastingMajor { d with status := status } = true →
      d.isLastingMajor = true := by
    simp only [Defect.isLastingMajor, Defect.isOpenMajor, hopen, Bool.and_eq_true, true_and]
    exact fun h => ⟨h.1.2, h.2⟩
  have hfatal : Defect.isOpenFatal { d with status := status } = true →
      d.isOpenFatal = true := by
    simp only [Defect.isOpenFatal, hopen, Bool.and_eq_true, true_and]
    exact And.right
  exact grade_defects_le (s := { s with
    defects := s.defects.set i { d with status := status } }) (countP_set_le hd hmajor)
    (countP_set_le hd hfatal) primary corroborators

/-! ## Support and doubt -/

/-- More support never makes a grade weaker and more doubt never makes it stronger: neither a
corroborator with at most a mild conflict, wherever it is inserted, nor closing an open defect costs
anything, another defect gains nothing, and of all independence checks, and none, those that
contradict give the weakest grade and those that confirm the strongest. -/
theorem grade_monotone (s : Sanad) (primary : Option Evidence) (corroborators : List Evidence) :
    (∀ (i : Nat) (e : Evidence), e.isMild = true →
        (grade s primary (corroborators.insertIdx i e)).grade ≤
          (grade s primary corroborators).grade) ∧
      (∀ (doubt confirm : IndependenceCheck) (check : Option IndependenceCheck),
        doubt.contradicts = true → confirm.confirms = true →
        (grade { s with independence := check } primary corroborators).grade ≤
            (grade { s with independence := some doubt } primary corroborators).grade ∧
          (grade { s with independence := some confirm } primary corroborators).grade ≤
            (grade { s with independence := check } primary corroborators).grade) ∧
      (∀ (i : Nat) (d : Defect), (grade s primary corroborators).grade ≤
        (grade { s with defects := s.defects.insertIdx i d } primary corroborators).grade) ∧
      ∀ (i : Nat) (d : Defect) (status : DefectStatus), s.defects[i]? = some d →
        d.isOpen = true →
        (grade { s with defects := s.defects.set i { d with status := status } } primary
          corroborators).grade ≤ (grade s primary corroborators).grade := by
  refine ⟨fun i e h => grade_insertIdx_le h s primary corroborators i, ?_,
    grade_le_insertIdx_defect s primary corroborators,
    fun i d status hd hopen => grade_set_status_le hd hopen status primary corroborators⟩
  intro doubt confirm check hdoubt hconfirm
  constructor
  · refine grade_check_le (fun h => ?_) (fun _ => ?_) s primary corroborators
    · rw [Option.any_some] at h
      simp [doubt.contradicts_of_confirms h] at hdoubt
    · rwa [Option.any_some]
  · refine grade_check_le (fun _ => ?_) (fun h => ?_) s primary corroborators
    · rwa [Option.any_some]
    · rw [Option.any_some] at h
      simp [confirm.contradicts_of_confirms hconfirm] at h

/-- A stale sanad. -/
def stale : Sanad := withDefects [.opened .staleness .major .requestSource "old"]

/-- A source with a conflict of high severity that it discloses. -/
def disclosed : Evidence :=
  ⟨stale.primary, "company", .b, .thiqah, some (.ofSeverity .high true)⟩

/-- A corroborator of high tier without a conflict. -/
def corroborator (origin : String) : Evidence := ⟨stale.primary, origin, .b, .athbatAlNas, none⟩

/-- With one corroborator the stale sanad is graded D. Another one, or a check that confirms
independence, makes that B, and closing its defect C. -/
theorem grade_monotone_stale :
    let audit := corroborator "audit"
    let registry := corroborator "registry"
    let confirmed := { stale with independence := some ⟨true, true⟩ }
    let cured := { stale with
      defects := stale.defects.set 0 ⟨.staleness, .major, .requestSource, .cured, "old"⟩ }
    ((grade stale (some disclosed) [audit]).grade,
        (grade stale (some disclosed) ([audit].insertIdx 1 registry)).grade,
        (grade confirmed (some disclosed) [audit]).grade,
        (grade cured (some disclosed) [audit]).grade) = (.d, .b, .b, .c) ∧
      (grade stale (some disclosed) ([audit].insertIdx 1 registry)).grade ≤
        (grade stale (some disclosed) [audit]).grade ∧
      (grade confirmed (some disclosed) [audit]).grade ≤
        (grade stale (some disclosed) [audit]).grade ∧
      (grade cured (some disclosed) [audit]).grade ≤
        (grade stale (some disclosed) [audit]).grade := by
  intro audit registry confirmed cured
  obtain ⟨hmore, hcheck, -, hclosed⟩ := grade_monotone stale (some disclosed) [audit]
  refine ⟨by decide, ?_, ?_, ?_⟩
  · exact hmore 1 registry (by decide)
  · exact (hcheck ⟨true, false⟩ ⟨true, true⟩ none (by decide) (by decide)).2
  · exact hclosed 0 (.opened .staleness .major .requestSource "old") .cured rfl (by decide)

end Grading
end Isnad
