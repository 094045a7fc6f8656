import Isnad.Proofs.Grading.Regrading
import Isnad.Proofs.Sanad.Written

/-!
# Documents of graded sanads

A grading writes three fields of a sanad and leaves the others. The defects it keeps were there
before and those it adds are of the grammar, so the document of a graded sanad keeps to the grammar.
The one condition across fields holds as well: what forces the weakest grade is every fatal defect
that is open afterwards (`passed_regraded`).
-/

namespace Isnad

open Json Document

/-! ## Documents of defects -/

namespace Defect

variable {d : Defect}

theorem conforms_toJson (h : Text.isBlankText d.description = false) :
    Sanad.IsObjectOf Sanad.DefectConforms d.toJson := by
  obtain ⟨doc, hdoc, hw⟩ := d.exists_writtenAs
  exact ⟨doc, hdoc,
    { type := holds_ofLabel hw.type
      severity := holds_ofLabel hw.severity
      cure := holds_ofLabel hw.cure
      status := .of_lookup hw.status ⟨_, .text⟩
      description := ⟨_, hw.description, by simp, .intro h⟩ }⟩

theorem isOpenFatal_of_toJson (h : Sanad.IsObjectOf Sanad.IsOpenFatal d.toJson) :
    d.isOpenFatal = true := by
  obtain ⟨doc, hdoc, hw⟩ := d.exists_writtenAs
  obtain ⟨doc', hdoc', ⟨x, hx, -, hfatal⟩, hopened⟩ := h
  cases hdoc.symm.trans hdoc'
  cases hw.severity.symm.trans hx
  have hopen : d.status = .opened :=
    (names_ofLabel_iff.mp (hopened _ hw.status (ofLabel_ne_null _))).symm
  have hsevere : d.severity = .fatal := (names_ofLabel_iff.mp hfatal).symm
  simp [isOpenFatal, isOpen, hopen, hsevere]

end Defect

/-! ## Documents of sanads -/

namespace Sanad

open Grading (GradeResult)

variable {s : Sanad} {r : GradeResult}

/-- The fields that a grading writes. -/
def gradedFields : List String := ["defects", "sanad_grade", "corroboration_status"]

/-- A grading leaves the other fields. -/
theorem member?_toJson_applyTo (r : GradeResult) (s : Sanad) {name : String}
    (h : name ∉ gradedFields) : (r.applyTo s).toJson.member? name = s.toJson.member? name := by
  simp only [gradedFields, List.mem_cons, List.not_mem_nil, or_false, not_or] at h
  obtain ⟨hdefects, hgrade, hstatus⟩ := h
  simp only [toJson, member?_object, List.reverse_cons, List.reverse_nil, List.nil_append,
    List.cons_append, List.lookup_cons, beq_false_of_ne hdefects, beq_false_of_ne hgrade,
    beq_false_of_ne hstatus]
  rfl

theorem defect_conforms {doc : Members} (hc : Conforms doc) (hdoc : s.toJson = .obj doc)
    {d : Defect} (hd : d ∈ s.defects) : IsObjectOf DefectConforms d.toJson := by
  obtain ⟨doc', hdoc', hw⟩ := s.exists_writtenAs
  cases hdoc.symm.trans hdoc'
  obtain ⟨items, hitems, hconform⟩ := hc.defects _ hw.defects (by simp [ofList])
  cases hitems
  exact hconform _ (List.mem_map_of_mem hd)

/-- The document of a sanad keeps to the grammar through a change of its grade, as far as the new
defects do and the new grade is what an open fatal defect demands. -/
theorem conforms_applyTo (hs : IsObjectOf Conforms s.toJson)
    (hadded : ∀ d ∈ r.addedDefects, IsObjectOf DefectConforms d.toJson)
    (hfatal : (r.applyTo s).hasOpenFatal = true → r.grade = .d) :
    IsObjectOf Conforms (r.applyTo s).toJson := by
  obtain ⟨doc, hdoc, hc⟩ := hs
  obtain ⟨doc', hdoc', hw⟩ := (r.applyTo s).exists_writtenAs
  have hkept : ∀ {name}, name ∉ gradedFields → doc'.lookup name = doc.lookup name := by
    intro name hname
    have h := member?_toJson_applyTo r s hname
    rwa [hdoc, hdoc'] at h
  have holds : ∀ {name P}, name ∉ gradedFields → Holds doc name P → Holds doc' name P := by
    intro name P hname h
    rwa [Holds, hkept hname]
  have mayHold : ∀ {name P}, name ∉ gradedFields → MayHold doc name P → MayHold doc' name P := by
    intro name P hname h
    rwa [MayHold, hkept hname]
  refine ⟨doc', hdoc',
    { id := holds (by decide) hc.id
      claim := holds (by decide) hc.claim
      primary := holds (by decide) hc.primary
      corroborators := mayHold (by decide) hc.corroborators
      independence := mayHold (by decide) hc.independence
      confidence := holds (by decide) hc.confidence
      status := holds_ofLabel hw.status
      grade := holds_ofLabel hw.grade
      chain := holds (by decide) hc.chain
      defects := ?_
      gradeOfFatal := ?_ }⟩
  · intro x hx _
    cases hw.defects.symm.trans hx
    refine ⟨_, rfl, List.forall_mem_map.mpr fun d hd => ?_⟩
    rcases List.mem_append.mp hd with hkeep | hadd
    · exact defect_conforms hc hdoc (List.mem_filter.mp hkeep).1
    · exact hadded d hadd
  · rintro ⟨x, hx, -, items, rfl, y, hy, hopen⟩
    cases hw.defects.symm.trans hx
    obtain ⟨d, hd, rfl⟩ := List.mem_map.mp hy
    refine ⟨_, hw.grade, ofLabel_ne_null _, ?_⟩
    have hd := hfatal (hasOpenFatal_iff.mpr ⟨d, hd, Defect.isOpenFatal_of_toJson hopen⟩)
    rw [show (r.applyTo s).grade = .d from hd]
    exact .text

end Sanad

/-! ## After a grading -/

namespace Grading

open Sanad (IsObjectOf DefectConforms validate)

variable {s : Sanad} {primary : Option Evidence} {corroborators : List Evidence}

/-- A new defect is described by the source it comes from. -/
theorem conforms_of_mem_addedDefects {d : Defect}
    (h : d ∈ (grade s primary corroborators).addedDefects) :
    IsObjectOf DefectConforms d.toJson := by
  obtain ⟨c, e, hd⟩ := exists_of_mem_addedDefects h
  obtain ⟨type, cure, what, -, rfl⟩ := exists_of_judgeSource hd
  have hs : 's' ∈ ("source " ++ e.id.toString ++ what).toList := by simp
  exact Defect.conforms_toJson (Text.isBlankText_of_mem hs (by decide))

theorem grade_of_hasOpenFatal_regraded
    (h : (regraded s primary corroborators).hasOpenFatal = true) :
    (grade s primary corroborators).grade = .d := by
  cases primary with
  | none => rfl
  | some p => rw [grade_eq, if_pos (hasOpenFatal_of_lasting (hasOpenFatal_regraded.mp h))]

/-- A sanad whose document passes the checks still passes them after a grading, whatever the
evidence. In particular its grade is the weakest one if a fatal defect is open, and the new defects
are of the grammar. -/
theorem passed_regraded (s : Sanad) (primary : Option Evidence) (corroborators : List Evidence)
    (h : (validate s.toJson).passed = true) :
    (validate ((grade s primary corroborators).applyTo s).toJson).passed = true ∧
      (((grade s primary corroborators).applyTo s).hasOpenFatal = true →
        ((grade s primary corroborators).applyTo s).grade = .d) ∧
      ∀ d ∈ (grade s primary corroborators).addedDefects,
        IsObjectOf DefectConforms d.toJson := by
  simp only [Sanad.passed_iff_memberIssues, Sanad.memberIssues_eq_nil_iff] at h ⊢
  exact ⟨Sanad.conforms_applyTo h (fun _ => conforms_of_mem_addedDefects)
    grade_of_hasOpenFatal_regraded, grade_of_hasOpenFatal_regraded,
    fun _ => conforms_of_mem_addedDefects⟩

/-- A sanad of one node with an open fatal defect, and another one from an earlier grading. -/
def circular : Sanad :=
  let s := withDefects [.opened .circularity .fatal .discardClaim "loop",
    .opened .coiHighUncured .major .requireMutawatirCorroboration "stale"]
  { s with
    grade := .d
    chain := [⟨s.id, .extract, .agent, "extractor",
      ⟨⟨2025, 12, 31, by decide⟩, .last 23, .last 59, .last 60, ⟨0, by decide⟩⟩, none, none,
      none⟩] }

def undisclosed : Evidence :=
  ⟨circular.primary, "company", .a, .thiqah, some (.ofSeverity .high false)⟩

/-- Its earlier defect gives way to that of an undisclosed conflict, and it keeps its grade. -/
theorem passed_regraded_circular :
    (validate circular.toJson).passed = true ∧
      (validate (regraded circular (some undisclosed) []).toJson).passed = true ∧
      (regraded circular (some undisclosed) []).defects.map Defect.type =
        [.circularity, .coiHighUndisclosed] := by
  have h : (validate circular.toJson).passed = true := by decide +kernel
  exact ⟨h, (passed_regraded circular (some undisclosed) [] h).1, by decide⟩

end Grading
end Isnad
