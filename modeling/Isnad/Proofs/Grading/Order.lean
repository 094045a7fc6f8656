import Isnad.Proofs.Grading.Formula
import Isnad.Proofs.Grading.Origins

/-!
# The order of corroborators

Which corroborators are counted depends on their order, since the first one of an origin takes it.
How many are depends on nothing but which ones there are, and neither does anything that is read off
their number (`cureContext_congr`). So a reordering of the corroborators reorders the judgements,
defects and warnings of a grading and leaves the rest of it alone (`grade_reorder`).
-/

namespace Isnad.Grading

variable {s : Sanad} {p : Evidence} {corroborators corroborators' : List Evidence}

/-! ## What depends on which sources there are -/

/-- To count corroborators it matters which ones there are, and the primary evidence is none. -/
theorem independent_congr (h : ∀ e, e ∈ p :: corroborators' ↔ e ∈ p :: corroborators)
    (check : Option IndependenceCheck) :
    (assess (some p) corroborators' check).independent =
      (assess (some p) corroborators check).independent := by
  rw [independent_assess, independent_assess]
  congr 1
  ext origin
  simp only [Finset.mem_erase, mem_eligibleOrigins]
  refine and_congr_right fun hne => exists_congr fun b => ?_
  by_cases hb : b = p
  · -- the primary evidence has the origin that is left out
    refine iff_of_false ?_ ?_ <;> rintro ⟨-, -, rfl⟩ <;> exact hne (congrArg _ hb)
  · have hmem := h b
    simp only [List.mem_cons, hb, false_or] at hmem
    rw [hmem]

theorem cureContext_congr (h : ∀ e, e ∈ p :: corroborators' ↔ e ∈ p :: corroborators) (s : Sanad) :
    cureContext s p corroborators' = cureContext s p corroborators := by
  rw [cureContext, cureContext, status_assess, status_assess, independent_congr h]

theorem cap_grade_congr (h : ∀ e, e ∈ p :: corroborators' ↔ e ∈ p :: corroborators) (s : Sanad) :
    (grade s (some p) corroborators').cap = (grade s (some p) corroborators).cap := by
  rw [cap_grade_eq, cap_grade_eq, cureContext_congr h]
  congr 1
  simp only [List.any_eq_true, h]

theorem sources_grade (s : Sanad) (p : Evidence) (corroborators : List Evidence) :
    (grade s (some p) corroborators).sources =
      (p :: corroborators).map (judgeSource (cureContext s p corroborators)) := rfl

theorem addedDefects_grade (s : Sanad) (primary : Option Evidence)
    (corroborators : List Evidence) :
    (grade s primary corroborators).addedDefects =
      (grade s primary corroborators).sources.filterMap (·.defect) := by
  cases primary <;> rfl

theorem mem_addedDefects_congr (h : ∀ e, e ∈ p :: corroborators' ↔ e ∈ p :: corroborators)
    (s : Sanad) (d : Defect) :
    d ∈ (grade s (some p) corroborators').addedDefects ↔
      d ∈ (grade s (some p) corroborators).addedDefects := by
  simp only [addedDefects_grade, List.mem_filterMap, sources_grade, cureContext_congr h,
    List.mem_map, h]

/-! ## Reordered corroborators -/

theorem isPromoted_assess (p : Evidence) (corroborators : List Evidence)
    (check : Option IndependenceCheck) :
    (assess (some p) corroborators check).isPromoted =
      ((assess (some p) corroborators check).independent = 1 &&
        check.any IndependenceCheck.confirms) := rfl

/-- What is read off the number of the corroborators that count. -/
theorem assess_perm (h : corroborators'.Perm corroborators) (primary : Option Evidence)
    (check : Option IndependenceCheck) :
    (assess primary corroborators' check).status = (assess primary corroborators check).status ∧
      (assess primary corroborators' check).independent =
        (assess primary corroborators check).independent ∧
      (assess primary corroborators' check).isPromoted =
        (assess primary corroborators check).isPromoted := by
  cases primary with
  | none => exact ⟨rfl, rfl, rfl⟩
  | some p =>
    have hindependent := independent_congr (fun _ => (h.cons p).mem_iff) check
    refine ⟨?_, hindependent, ?_⟩
    · rw [status_assess, status_assess, hindependent]
    · rw [isPromoted_assess, isPromoted_assess, hindependent]

theorem cureContext_perm (h : corroborators'.Perm corroborators) (s : Sanad) (p : Evidence) :
    cureContext s p corroborators' = cureContext s p corroborators :=
  cureContext_congr (fun _ => (h.cons p).mem_iff) s

/-- The sources are judged the same in any order. -/
theorem sources_grade_perm (h : corroborators'.Perm corroborators) (s : Sanad)
    (primary : Option Evidence) :
    (grade s primary corroborators').sources.Perm (grade s primary corroborators).sources := by
  cases primary with
  | none => exact .refl _
  | some p =>
    rw [sources_grade, sources_grade, cureContext_perm h]
    exact (h.cons p).map _

theorem finalRank_perm (h : corroborators'.Perm corroborators) (s : Sanad) (p : Evidence) :
    finalRank s p corroborators' = finalRank s p corroborators := by
  have hsources := h.cons p
  rw [finalRank, finalRank, cureContext_perm h, hsources.any_eq, cost, cost, hsources.countP_eq]

/-- The order of the corroborators moves what is said of each source and changes nothing else: not
the grade, the status or the cap, nor how many corroborators count and whether that promotes. -/
theorem grade_reorder (h : corroborators'.Perm corroborators) (s : Sanad)
    (primary : Option Evidence) :
    let r := grade s primary corroborators
    let r' := grade s primary corroborators'
    (r'.grade = r.grade ∧ r'.base = r.base ∧ r'.status = r.status ∧ r'.cap = r.cap) ∧
      (r'.sources.Perm r.sources ∧ r'.addedDefects.Perm r.addedDefects ∧
        r'.warnings.Perm r.warnings) ∧
      ∀ check,
        (assess primary corroborators' check).status =
            (assess primary corroborators check).status ∧
          (assess primary corroborators' check).independent =
            (assess primary corroborators check).independent ∧
          (assess primary corroborators' check).isPromoted =
            (assess primary corroborators check).isPromoted := by
  intro r r'
  have hsources : r'.sources.Perm r.sources := sources_grade_perm h s primary
  refine ⟨?_, ?_, assess_perm h primary⟩
  · cases primary with
    | none => exact ⟨rfl, rfl, rfl, rfl⟩
    | some p =>
      refine ⟨Grade.rank_injective ?_, rfl, (assess_perm h (some p) s.independence).1, ?_⟩
      · rw [rank_grade_eq, rank_grade_eq, finalRank_perm h]
      · rw [cap_grade_eq, cap_grade_eq, cureContext_perm h, (h.cons p).any_eq]
  · cases primary with
    | none => exact ⟨.refl _, .refl _, .refl _⟩
    | some p => exact ⟨hsources, hsources.filterMap _, hsources.flatMap_right _⟩

/-- Four items: two of one origin, one of that origin with a disclosed conflict of high severity,
and one with an undisclosed one of medium severity. -/
def entangled : List Evidence :=
  let item := fun (k : Fin 16) origin conflict =>
    (⟨⟨List.replicate 32 k, List.length_replicate⟩, origin, .b, .athbatAlNas, conflict⟩ : Evidence)
  [item (.last 15) "audit" none, item (.castAdd 1 (.last 14)) "audit" none,
    item (.castAdd 2 (.last 13)) "audit" (some (.ofSeverity .high true)),
    item (.castAdd 3 (.last 12)) "press" (some (.ofSeverity .medium false))]

/-- In the reverse order another item counts for the shared origin, and the grade is the same. -/
theorem grade_reorder_entangled :
    let s := withDefects []
    let p : Evidence := ⟨s.primary, "company", .a, .thiqah, none⟩
    entangled.reverse.Perm entangled ∧
      (assess (some p) entangled.reverse none).counted ≠ (assess (some p) entangled none).counted ∧
      (grade s (some p) entangled.reverse).addedDefects ≠ [] ∧
      (grade s (some p) entangled.reverse).grade = (grade s (some p) entangled).grade ∧
      (grade s (some p) entangled.reverse).sources.Perm (grade s (some p) entangled).sources := by
  intro s p
  have hperm : entangled.reverse.Perm entangled := List.reverse_perm entangled
  obtain ⟨⟨hgrade, -⟩, ⟨hsources, -⟩, -⟩ := grade_reorder hperm s (some p)
  exact ⟨hperm, by decide, by decide, hgrade, hsources⟩

end Isnad.Grading
