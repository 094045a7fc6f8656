import Isnad.Grading.Basic
import Mathlib.Logic.Function.Iterate

/-!
# The grade as a function of what it counts

The steps that a grading logs come to one expression: the grade of the primary evidence, stronger
by a step for full corroboration, weaker by a step for each open major defect that counts, under
the cap (`unforced`). An open fatal defect overrides it (`grade_eq`). What a grading derives from
conflicts of interest depends on the evidence and the independence check only.
-/

namespace Isnad

namespace Grade

@[simp] theorem d_cappedBy (cap : Option Grade) : Grade.d.cappedBy cap = .d := by
  cases cap with
  | none => rfl
  | some ceiling => cases ceiling <;> rfl

end Grade

theorem Sanad.hasOpenFatal_iff {s : Sanad} :
    s.hasOpenFatal = true ↔ ∃ d ∈ s.defects, d.isOpenFatal = true := List.any_eq_true

namespace Grading

variable {s s' : Sanad} {primary : Option Evidence} {p : Evidence} {corroborators : List Evidence}

/-- The grade of a sanad when fatal defects are left aside. -/
def unforced (s : Sanad) (r : GradeResult) : Grade :=
  let start := if r.status = .mutawatir then r.base.upgraded else r.base
  let majors := (countedDefects s r.addedDefects).countP Defect.isOpenMajor
  (Grade.downgraded^[majors] start).cappedBy r.cap

/-! ## Steps of a trace -/

namespace Trace

variable {t : Trace}

theorem grade_upgrade (t : Trace) (status : CorroborationStatus) :
    (t.upgrade status).grade = if status = .mutawatir then t.grade.upgraded else t.grade := by
  unfold upgrade
  split <;> rfl

theorem grade_downgrade (t : Trace) (d : Defect) :
    (t.downgrade d).grade = if d.isOpenMajor then t.grade.downgraded else t.grade := by
  unfold downgrade
  split <;> rfl

/-- Each open major defect of a list costs a step. -/
theorem grade_foldl_downgrade (defects : List Defect) (t : Trace) :
    (defects.foldl downgrade t).grade =
      Grade.downgraded^[defects.countP Defect.isOpenMajor] t.grade := by
  induction defects generalizing t with
  | nil => rfl
  | cons d ds ih =>
    rw [List.foldl_cons, ih, grade_downgrade, List.countP_cons]
    split
    · rw [Function.iterate_succ_apply]
    · rfl

theorem grade_force (t : Trace) (fatal : Option Defect) :
    (t.force fatal).grade = if fatal.isSome then .d else t.grade := by
  cases fatal <;> rfl

theorem grade_limit (t : Trace) (cap : Option Grade) :
    (t.limit cap).grade = t.grade.cappedBy cap := by
  unfold limit
  cases cap with
  | none => rfl
  | some ceiling =>
    dsimp only
    split
    · rename_i h
      exact h.symm
    · rfl

end Trace

/-- An open fatal defect gives the weakest grade, whatever else counts. -/
theorem grade_eq (s : Sanad) (p : Evidence) (corroborators : List Evidence) :
    (grade s (some p) corroborators).grade =
      if s.hasOpenFatal then .d else unforced s (grade s (some p) corroborators) := by
  have hfatal : (s.defects.find? Defect.isOpenFatal).isSome = s.hasOpenFatal := by
    rw [Bool.eq_iff_iff, List.find?_isSome, Sanad.hasOpenFatal_iff]
  simp only [grade, Trace.grade_limit, Trace.grade_force, Trace.grade_foldl_downgrade,
    Trace.grade_upgrade, hfatal]
  split
  · exact Grade.d_cappedBy _
  · rfl

/-! ## What is derived from conflicts -/

/-- A source adds a defect of a derived kind that is described by its identifier. -/
theorem exists_of_judgeSource {c : CureContext} {e : Evidence} {d : Defect}
    (h : (judgeSource c e).defect = some d) :
    ∃ type cure what, DefectType.isConflictDerived type = true ∧
      d = .opened type .major cure ("source " ++ e.id.toString ++ what) := by
  unfold judgeSource at h
  split at h
  · split at h
    · unfold judgeConflict at h
      split at h
      · cases h
      · cases h
      · cases h
      · split at h
        · unfold judgeHighDisclosed at h
          split at h
          · cases h
          · cases h
            exact ⟨.coiHighUncured, _, _, rfl, rfl⟩
        · unfold judgeHighUndisclosed at h
          dsimp only at h
          split at h
          · cases h
          · cases h
            exact ⟨.coiHighUndisclosed, _, _, rfl, by rw [String.append_assoc]⟩
    · cases h
  · cases h

theorem judgeSource_defect {c : CureContext} {e : Evidence} {d : Defect}
    (h : (judgeSource c e).defect = some d) :
    d.isOpen = true ∧ d.severity = .major ∧ d.type.isConflictDerived = true := by
  obtain ⟨type, cure, what, htype, rfl⟩ := exists_of_judgeSource h
  exact ⟨rfl, rfl, htype⟩

/-- Every defect that a grading adds is that of a source. -/
theorem exists_of_mem_addedDefects {d : Defect}
    (h : d ∈ (grade s primary corroborators).addedDefects) :
    ∃ c e, (judgeSource c e).defect = some d := by
  cases primary with
  | none => exact absurd h List.not_mem_nil
  | some p =>
    obtain ⟨r, hr, hd⟩ := List.mem_filterMap.mp h
    obtain ⟨e, -, rfl⟩ := List.mem_map.mp hr
    exact ⟨_, e, hd⟩

/-- Derived defects are open, of major severity and of the kinds that are derived. -/
theorem derived_of_mem_addedDefects {d : Defect}
    (h : d ∈ (grade s primary corroborators).addedDefects) :
    d.isOpen = true ∧ d.severity = .major ∧ d.type.isConflictDerived = true := by
  obtain ⟨c, e, hd⟩ := exists_of_mem_addedDefects h
  exact judgeSource_defect hd

/-- Sanads with one independence check differ in their grades only by their own defects. -/
theorem grade_congr (h : s'.independence = s.independence) :
    (grade s' primary corroborators).base = (grade s primary corroborators).base ∧
    (grade s' primary corroborators).status = (grade s primary corroborators).status ∧
    (grade s' primary corroborators).cap = (grade s primary corroborators).cap ∧
    (grade s' primary corroborators).addedDefects =
      (grade s primary corroborators).addedDefects := by
  cases primary with
  | none => exact ⟨rfl, rfl, rfl, rfl⟩
  | some p => simp only [grade, h, and_self]

/-- A sanad of which only the defects are of note. -/
def withDefects (defects : List Defect) : Sanad :=
  let id : Uuid := ⟨List.replicate 32 (Fin.last 15), List.length_replicate⟩
  ⟨id, id, id, [], .one, [], defects, .a, .none, none⟩

end Grading
end Isnad
