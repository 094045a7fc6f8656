import Isnad.Proofs.Grading.Result

/-!
# Grading a sanad again

A grading replaces what an earlier one derived from conflicts, so a second grading on the same
evidence derives and counts the same. Only an open fatal defect of a derived kind disturbs this: the
first grading is forced by it and removes it, and the second one is no longer forced
(`regraded_iff`). After two gradings a third changes nothing.
-/

namespace Isnad

/-- The defects that a grading replaces. -/
def Defect.isOpenDerived (d : Defect) : Bool := d.type.isConflictDerived && d.isOpen

namespace Grading

variable {s : Sanad} {primary : Option Evidence} {corroborators : List Evidence} {d : Defect}
  {defects added : List Defect}

/-! ## Replacing defects -/

/-- The defects on record after those that a grading replaces gave way to `added`. -/
def replaced (defects added : List Defect) : List Defect :=
  defects.filter (!·.isOpenDerived) ++ added

theorem replaced_replaced (h : ∀ d ∈ added, d.isOpenDerived = true) (added' : List Defect) :
    replaced (replaced defects added) added' = replaced defects added' := by
  have hnone : added.filter (!·.isOpenDerived) = [] :=
    List.filter_eq_nil_iff.mpr fun d hd => by simp [h d hd]
  rw [replaced, replaced, List.filter_append, List.filter_filter, hnone, List.append_nil, replaced]
  simp only [Bool.and_self]

/-- What the next grading will replace is what the last one added. -/
theorem filter_replaced (h : ∀ d ∈ added, d.isOpenDerived = true) :
    (replaced defects added).filter (·.isOpenDerived) = added := by
  have hnone : (defects.filter (!·.isOpenDerived)).filter (·.isOpenDerived) = [] := by
    rw [List.filter_filter, List.filter_eq_nil_iff]
    intro d _
    simp
  rw [replaced, List.filter_append, hnone, List.nil_append, List.filter_eq_self.mpr h]

/-- The sanad after it was graded and its grade applied. -/
def regraded (s : Sanad) (primary : Option Evidence) (corroborators : List Evidence) : Sanad :=
  (grade s primary corroborators).applyTo s

/-- An open fatal defect of a kind that gradings do not derive. -/
def hasLastingFatal (s : Sanad) : Prop :=
  ∃ d ∈ s.defects, d.isOpenFatal = true ∧ d.type.isConflictDerived = false

theorem grade_regraded_congr (s : Sanad) (primary : Option Evidence)
    (corroborators : List Evidence) :
    (grade (regraded s primary corroborators) primary corroborators).base =
      (grade s primary corroborators).base ∧
    (grade (regraded s primary corroborators) primary corroborators).status =
      (grade s primary corroborators).status ∧
    (grade (regraded s primary corroborators) primary corroborators).cap =
      (grade s primary corroborators).cap ∧
    (grade (regraded s primary corroborators) primary corroborators).addedDefects =
      (grade s primary corroborators).addedDefects :=
  grade_congr rfl

/-! ## Defects after a grading -/

theorem mem_defects_regraded :
    d ∈ (regraded s primary corroborators).defects ↔
      (d ∈ s.defects ∧ (d.type.isConflictDerived && d.isOpen) = false) ∨
        d ∈ (grade s primary corroborators).addedDefects := by
  rw [regraded, GradeResult.applyTo, List.mem_append, List.mem_filter]
  exact or_congr_left (and_congr_right fun _ => by rw [Bool.not_eq_true'])

/-- The fatal defects that a grading leaves open are those of kinds it does not derive. -/
theorem hasOpenFatal_regraded :
    (regraded s primary corroborators).hasOpenFatal = true ↔ hasLastingFatal s := by
  rw [Sanad.hasOpenFatal_iff]
  constructor
  · rintro ⟨d, hd, hfatal⟩
    have hopen : d.isOpen = true ∧ d.severity = .fatal := by simpa [Defect.isOpenFatal] using hfatal
    rcases mem_defects_regraded.mp hd with ⟨hd, hkeep⟩ | hadded
    · exact ⟨d, hd, hfatal, by simpa [hopen.1] using hkeep⟩
    · obtain ⟨-, hmajor, -⟩ := derived_of_mem_addedDefects hadded
      exact absurd (hmajor.symm.trans hopen.2) (by decide)
  · rintro ⟨d, hd, hfatal, hkind⟩
    exact ⟨d, mem_defects_regraded.mpr (.inl ⟨hd, by simp [hkind]⟩), hfatal⟩

theorem hasOpenFatal_of_lasting (h : hasLastingFatal s) : s.hasOpenFatal = true := by
  obtain ⟨d, hd, hfatal, -⟩ := h
  exact Sanad.hasOpenFatal_iff.mpr ⟨d, hd, hfatal⟩

theorem hasLastingFatal_regraded :
    hasLastingFatal (regraded s primary corroborators) ↔ hasLastingFatal s := by
  constructor
  · exact fun h => hasOpenFatal_regraded.mp (hasOpenFatal_of_lasting h)
  · rintro ⟨d, hd, hfatal, hkind⟩
    exact ⟨d, mem_defects_regraded.mpr (.inl ⟨hd, by simp [hkind]⟩), hfatal, hkind⟩

theorem filter_addedDefects_eq_nil {f : Defect → Bool}
    (hf : ∀ d, d.isOpen = true → d.type.isConflictDerived = true → f d = false) :
    (grade s primary corroborators).addedDefects.filter f = [] := by
  rw [List.filter_eq_nil_iff]
  intro d hd
  obtain ⟨hopen, -, hkind⟩ := derived_of_mem_addedDefects hd
  simp [hf d hopen hkind]

theorem isOpenDerived_of_mem_addedDefects
    (h : d ∈ (grade s primary corroborators).addedDefects) : d.isOpenDerived = true := by
  obtain ⟨hopen, -, hkind⟩ := derived_of_mem_addedDefects h
  rw [Defect.isOpenDerived, hopen, hkind]
  rfl

/-- A second grading replaces the derived defects by the same ones. -/
theorem defects_regraded_regraded (s : Sanad) (primary : Option Evidence)
    (corroborators : List Evidence) :
    (regraded (regraded s primary corroborators) primary corroborators).defects =
      (regraded s primary corroborators).defects := by
  obtain ⟨-, -, -, hadded⟩ := grade_regraded_congr s primary corroborators
  change replaced (replaced _ _) _ = _
  rw [hadded, replaced_replaced fun _ => isOpenDerived_of_mem_addedDefects]
  rfl

/-- Derived defects on record do not count, so that a grading leaves the others that do. -/
theorem countedDefects_regraded (added : List Defect) :
    countedDefects (regraded s primary corroborators) added = countedDefects s added := by
  rw [countedDefects, countedDefects, regraded, GradeResult.applyTo]
  dsimp only
  rw [List.filter_append, List.filter_filter, filter_addedDefects_eq_nil, List.append_nil]
  · congr 1
    refine List.filter_congr fun d _ => ?_
    cases d.type.isConflictDerived <;> simp
  · intro d _ hkind
    simp [hkind]

theorem unforced_regraded :
    unforced (regraded s primary corroborators)
        (grade (regraded s primary corroborators) primary corroborators) =
      unforced s (grade s primary corroborators) := by
  obtain ⟨hbase, hstatus, hcap, hadded⟩ := grade_regraded_congr s primary corroborators
  rw [unforced, hadded, countedDefects_regraded, hbase, hstatus, hcap, unforced]

/-! ## The second grade -/

/-- The two grades differ exactly if the first one was forced by nothing but derived defects. -/
theorem grade_regraded_iff {p : Evidence} :
    (grade (regraded s (some p) corroborators) (some p) corroborators).grade =
        (grade s (some p) corroborators).grade ↔
      (s.hasOpenFatal = true →
        hasLastingFatal s ∨ unforced s (grade s (some p) corroborators) = .d) := by
  rw [grade_eq, grade_eq, unforced_regraded]
  by_cases hlast : hasLastingFatal s
  · rw [if_pos (hasOpenFatal_regraded.mpr hlast), if_pos (hasOpenFatal_of_lasting hlast)]
    exact ⟨fun _ _ => .inl hlast, fun _ => rfl⟩
  · rw [if_neg (mt hasOpenFatal_regraded.mp hlast)]
    by_cases hfatal : s.hasOpenFatal = true
    · rw [if_pos hfatal]
      exact ⟨fun h _ => .inr h, fun h => (h hfatal).resolve_left hlast⟩
    · rw [if_neg hfatal]
      exact ⟨fun _ h => absurd h hfatal, fun _ => rfl⟩

/-- A second application changes the grade if anything. -/
theorem regraded_regraded_iff :
    regraded (regraded s primary corroborators) primary corroborators =
        regraded s primary corroborators ↔
      (grade (regraded s primary corroborators) primary corroborators).grade =
        (grade s primary corroborators).grade := by
  constructor
  · exact fun h => congrArg Sanad.grade h
  · intro h
    have hdefects := defects_regraded_regraded s primary corroborators
    obtain ⟨-, hstatus, -, -⟩ := grade_regraded_congr s primary corroborators
    generalize hs : regraded s primary corroborators = t at *
    have ht : t.grade = (grade s primary corroborators).grade ∧
        t.status = (grade s primary corroborators).status := by
      rw [← hs]
      exact ⟨rfl, rfl⟩
    rw [regraded, GradeResult.applyTo] at hdefects ⊢
    dsimp only at hdefects
    rw [hdefects, h, hstatus, ← ht.1, ← ht.2]

/-- Grading again on the same evidence derives and counts the same, and gives the same grade and
the same sanad unless an open fatal defect of a derived kind forced the first grade alone, without
which it is not the weakest. A third grading changes nothing. -/
theorem regraded_stable_iff (s : Sanad) (primary : Option Evidence)
    (corroborators : List Evidence) :
    let r₁ := grade s primary corroborators
    let s₁ := r₁.applyTo s
    let r₂ := grade s₁ primary corroborators
    let s₂ := r₂.applyTo s₁
    let r₃ := grade s₂ primary corroborators
    (r₂.status = r₁.status ∧ r₂.cap = r₁.cap ∧ r₂.addedDefects = r₁.addedDefects ∧
        s₂.defects = s₁.defects) ∧
      (r₂.grade = r₁.grade ∧ s₂ = s₁ ↔
        (primary.isSome = true → s.hasOpenFatal = true →
          hasLastingFatal s ∨ unforced s r₁ = .d)) ∧
      r₃.applyTo s₂ = s₂ := by
  intro r₁ s₁ r₂ s₂ r₃
  obtain ⟨-, hstatus, hcap, hadded⟩ := grade_regraded_congr s primary corroborators
  refine ⟨⟨hstatus, hcap, hadded, defects_regraded_regraded s primary corroborators⟩, ?_, ?_⟩
  · have hsame : (r₂.grade = r₁.grade ∧ s₂ = s₁) ↔ r₂.grade = r₁.grade :=
      and_iff_left_of_imp regraded_regraded_iff.mpr
    rw [hsame]
    cases primary with
    | none => exact ⟨fun _ h => absurd h (by decide), fun _ => rfl⟩
    | some p => exact grade_regraded_iff.trans ⟨fun h _ => h, fun h => h rfl⟩
  · refine regraded_regraded_iff.mpr ?_
    cases primary with
    | none => rfl
    | some p =>
      exact grade_regraded_iff.mpr fun h =>
        .inl (hasLastingFatal_regraded.mpr (hasOpenFatal_regraded.mp h))

/-- A sanad whose only defect is open, fatal and of a kind that gradings derive. -/
def staleFatal : Sanad :=
  withDefects [.opened .coiHighUncured .fatal .requireMutawatirCorroboration "stale"]

/-- It is graded D and, without the defect that this grading removed, A. -/
theorem not_regraded_stable :
    ¬ ∀ (s : Sanad) (p : Evidence) (corroborators : List Evidence),
      let r₁ := grade s (some p) corroborators
      let s₁ := r₁.applyTo s
      (grade s₁ (some p) corroborators).grade = r₁.grade := by
  intro h
  have hgrade := h staleFatal ⟨⟨List.replicate 32 0, rfl⟩, "company", .a, .athbatAlNas, none⟩ []
  exact absurd hgrade (by decide)

end Grading
end Isnad
