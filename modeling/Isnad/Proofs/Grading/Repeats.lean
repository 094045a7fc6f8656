import Isnad.Proofs.Grading.Monotone
import Isnad.Proofs.Grading.OnFile
import Isnad.Proofs.Grading.Order

/-!
# Evidence that is listed more than once

A sanad may list an item several times, the primary evidence among its corroborators included. What
the corroborators amount to does not notice (`cureContext_congr`), so an item is judged the same
every time, and each time what it costs is counted again. Listed once, it costs as much less
(`gradeFrom_distinct`).
-/

namespace Isnad

/-- The identifiers of the evidence besides the primary one that a sanad refers to, each once. -/
structure Sanad.IsDistinct (s : Sanad) (ids : List Uuid) : Prop where
  nodup : ids.Nodup
  mem_iff : ∀ id, id ∈ ids ↔ id ∈ s.corroborators ∧ id ≠ s.primary

namespace Sanad.IsDistinct

variable {s : Sanad} {ids : List Uuid}

theorem nodup_cons (h : s.IsDistinct ids) : (s.primary :: ids).Nodup :=
  List.nodup_cons.mpr ⟨fun hmem => ((h.mem_iff _).mp hmem).2 rfl, h.nodup⟩

theorem mem_references (h : s.IsDistinct ids) {id : Uuid} :
    id ∈ s.primary :: ids ↔ id ∈ s.references := by
  rw [references, List.mem_cons, List.mem_cons, h.mem_iff]
  by_cases hid : id = s.primary <;> simp [hid]

/-- The sanad lists them, and some of what it lists once more. -/
theorem exists_repeats (h : s.IsDistinct ids) :
    ∃ repeats, ((s.primary :: ids) ++ repeats).Perm s.references ∧
      ∀ id ∈ repeats, 1 < s.references.count id := by
  have hperm : ((s.primary :: ids) ++ s.references.diff (s.primary :: ids)).Perm s.references := by
    refine List.subperm_append_diff_self_of_count_le fun id hid => ?_
    rw [List.count_eq_one_of_mem h.nodup_cons hid]
    exact List.count_pos_iff.mpr (h.mem_references.mp hid)
  refine ⟨_, hperm, fun id hid => ?_⟩
  -- once among the distinct identifiers, and at least once more here
  have hmem : id ∈ s.references := hperm.subset (List.mem_append_right _ hid)
  rw [← hperm.count_eq, List.count_append,
    List.count_eq_one_of_mem h.nodup_cons (h.mem_references.mpr hmem)]
  exact Nat.lt_add_of_pos_right (List.count_pos_iff.mpr hid)

end Sanad.IsDistinct

namespace Grading

variable {s : Sanad} {store : EvidenceStore} {r r' : GradeResult} {ids : List Uuid}
  {item : Uuid → Evidence} {p : Evidence} {corroborators corroborators' : List Evidence}

/-! ## Judgements and costs by listings -/

theorem judgeConflict_source (source : Uuid) (conflict : Conflict) (c : CureContext) :
    (judgeConflict source conflict c).source = source := by
  unfold judgeConflict
  split
  · rfl
  · rfl
  · rfl
  · -- a conflict of high severity is judged by its cures
    split
    · unfold judgeHighDisclosed
      split <;> rfl
    · unfold judgeHighUndisclosed
      dsimp only
      split <;> rfl

theorem judgeSource_source (c : CureContext) (e : Evidence) : (judgeSource c e).source = e.id := by
  unfold judgeSource
  split
  · split
    · exact judgeConflict_source _ _ _
    · rfl
  · rfl

/-- An item is judged as often as it is listed, and always the same. -/
theorem filter_sources {c : CureContext} (h : ∀ id ∈ ids, (item id).id = id) (id : Uuid) :
    ((ids.map item).map (judgeSource c)).filter (·.source = id) =
      List.replicate (ids.count id) (judgeSource c (item id)) := by
  have hfilter : ids.filter ((·.source = id) ∘ judgeSource c ∘ item) = ids.filter (· = id) := by
    refine List.filter_congr fun id' hid' => ?_
    simp only [Function.comp_apply, judgeSource_source, h id' hid']
  rw [List.map_map, List.filter_map, hfilter, List.filter_eq, List.map_replicate]
  rfl

theorem countP_countedDefects_eq (s : Sanad) (p : Evidence) (corroborators : List Evidence) :
    (countedDefects s (grade s (some p) corroborators).addedDefects).countP Defect.isOpenMajor =
      s.defects.countP Defect.isLastingMajor +
        (grade s (some p) corroborators).addedDefects.length := by
  rw [countP_countedDefects, cost, length_addedDefects]

/-- The grade of a sanad before fatal defects and caps. -/
def uncapped (s : Sanad) (r : GradeResult) : Grade :=
  Grade.downgraded^[(countedDefects s r.addedDefects).countP Defect.isOpenMajor]
    (if r.status = .mutawatir then r.base.upgraded else r.base)

theorem grade_eq_uncapped (s : Sanad) (p : Evidence) (corroborators : List Evidence) :
    (grade s (some p) corroborators).grade =
      if s.hasOpenFatal then .d
      else (uncapped s (grade s (some p) corroborators)).cappedBy
        (grade s (some p) corroborators).cap :=
  grade_eq s p corroborators

section Relisted

variable {repeats : List Evidence}
  (hmem : ∀ e, e ∈ p :: corroborators' ↔ e ∈ p :: corroborators)
  (hperm : (p :: corroborators' ++ repeats).Perm (p :: corroborators))

include hmem hperm

theorem length_addedDefects_relisted (s : Sanad) :
    (grade s (some p) corroborators).addedDefects.length =
      (grade s (some p) corroborators').addedDefects.length +
        repeats.countP (cureContext s p corroborators).isCostly := by
  rw [length_addedDefects, length_addedDefects, cureContext_congr hmem, ← List.countP_append]
  exact (hperm.countP_eq _).symm

/-- Every time that an item is listed once more, it costs one more step if it costs one at all. -/
theorem uncapped_relisted (s : Sanad) :
    uncapped s (grade s (some p) corroborators) =
      Grade.downgraded^[repeats.countP (cureContext s p corroborators).isCostly]
        (uncapped s (grade s (some p) corroborators')) := by
  have hstatus : (grade s (some p) corroborators').status =
      (grade s (some p) corroborators).status :=
    congrArg CureContext.status (cureContext_congr hmem s)
  rw [uncapped, uncapped, countP_countedDefects_eq, countP_countedDefects_eq, hstatus,
    length_addedDefects_relisted hmem hperm, ← Function.iterate_add_apply]
  congr 1
  omega

theorem grade_relisted_le (s : Sanad) :
    (grade s (some p) corroborators').grade ≤ (grade s (some p) corroborators).grade := by
  have hcontext := cureContext_congr hmem s
  have hcount (f : Evidence → Bool) :
      (p :: corroborators').countP f ≤ (p :: corroborators).countP f := by
    rw [← hperm.countP_eq, List.countP_append]
    exact Nat.le_add_right _ _
  refine grade_le id (Nat.le_of_eq (by rw [hcontext])) ?_ ?_
  · rw [hcontext]
    exact Nat.add_le_add_left (hcount _) _
  · rw [hcontext]
    exact hcount _

theorem grade_relisted_eq
    (h : ∀ e ∈ repeats, (cureContext s p corroborators).isCostly e = false) :
    (grade s (some p) corroborators').grade = (grade s (some p) corroborators).grade := by
  have hnone : repeats.countP (cureContext s p corroborators).isCostly = 0 :=
    List.countP_eq_zero.mpr fun e he => by rw [h e he]; exact Bool.false_ne_true
  rw [grade_eq_uncapped, grade_eq_uncapped, uncapped_relisted hmem hperm, hnone,
    cap_grade_congr hmem]
  rfl

end Relisted

/-! ## Each source once -/

/-- A grading `r'` that says once of every source what `r` says as often as the sanad lists it. Each
surplus defect is one more step down, before fatal defects and caps. -/
structure Condenses (s : Sanad) (r' r : GradeResult) : Prop where
  base : r'.base = r.base
  status : r'.status = r.status
  cap : r'.cap = r.cap
  sources : ∀ id ∈ s.references, ∃ c : CureResult,
    r'.sources.filter (·.source = id) = [c] ∧
      r.sources.filter (·.source = id) = List.replicate (s.references.count id) c
  addedDefects : r'.addedDefects = r'.sources.filterMap (·.defect) ∧
    r.addedDefects = r.sources.filterMap (·.defect)
  mem_addedDefects : ∀ d, d ∈ r'.addedDefects ↔ d ∈ r.addedDefects
  uncapped : ∃ surplus, r.addedDefects.length = r'.addedDefects.length + surplus ∧
    uncapped s r = Grade.downgraded^[surplus] (uncapped s r')
  grade : r'.grade = (if s.hasOpenFatal then .d else (Grading.uncapped s r').cappedBy r'.cap) ∧
    r.grade = if s.hasOpenFatal then .d else (Grading.uncapped s r).cappedBy r.cap
  grade_le : r'.grade ≤ r.grade
  grade_eq : (∀ c ∈ r.sources, c.defect.isSome = true → s.references.count c.source = 1) →
    r'.grade = r.grade

theorem condenses_grade (hitem : ∀ id ∈ s.references, (item id).id = id)
    (h : s.IsDistinct ids) :
    Condenses s (grade s (some (item s.primary)) (ids.map item))
      (grade s (some (item s.primary)) (s.corroborators.map item)) := by
  obtain ⟨repeats, hrelisted, hrepeats⟩ := h.exists_repeats
  have hperm := hrelisted.map item
  rw [List.map_append, List.map_cons] at hperm
  have hmem : ∀ e, e ∈ item s.primary :: ids.map item ↔
      e ∈ item s.primary :: s.corroborators.map item := by
    intro e
    rw [← List.map_cons, ← List.map_cons, List.mem_map, List.mem_map]
    simp only [h.mem_references, Sanad.references]
  have hitem' : ∀ id ∈ s.primary :: ids, (item id).id = id :=
    fun id hid => hitem id (h.mem_references.mp hid)
  have hcontext := cureContext_congr hmem s
  exact
    { base := rfl
      status := congrArg CureContext.status hcontext
      cap := cap_grade_congr hmem s
      sources := fun id hid => by
        refine ⟨judgeSource (cureContext s (item s.primary) (s.corroborators.map item)) (item id),
          ?_, filter_sources hitem id⟩
        have hone := List.count_eq_one_of_mem h.nodup_cons (h.mem_references.mpr hid)
        rw [sources_grade, hcontext, ← List.map_cons, filter_sources hitem' id, hone]
        rfl
      addedDefects := ⟨addedDefects_grade s _ _, addedDefects_grade s _ _⟩
      mem_addedDefects := mem_addedDefects_congr hmem s
      uncapped := ⟨_, length_addedDefects_relisted hmem hperm s, uncapped_relisted hmem hperm s⟩
      grade := ⟨grade_eq_uncapped s _ _, grade_eq_uncapped s _ _⟩
      grade_le := grade_relisted_le hmem hperm s
      grade_eq := fun hcosts => by
        -- what is listed again is listed twice at least, so by `hcosts` it adds no defect
        refine grade_relisted_eq hmem hperm fun e he => ?_
        obtain ⟨id, hid, rfl⟩ := List.mem_map.mp he
        have hlisted := hrepeats id hid
        have hid' : id ∈ s.references := List.count_pos_iff.mp (Nat.zero_lt_of_lt hlisted)
        by_contra hcostly
        have hone := hcosts (judgeSource _ (item id))
          (by rw [sources_grade]; exact List.mem_map_of_mem (List.mem_map_of_mem hid'))
          (by rw [(judgeSource_imposes _ _).defect]; exact Bool.eq_true_of_not_eq_false hcostly)
        rw [judgeSource_source, hitem id hid'] at hone
        omega }

/-- A source is judged each time that it is listed, always the same, and costs the same again. With
the repeats left out, status, cap and the set of the added defects stay, and there is a defect at
most for each source. The grade is stronger by the steps that the repeats cost, if there are any
such. -/
theorem gradeFrom_distinct (hr : gradeFrom store s = .ok r) (h : s.IsDistinct ids) :
    ∃ r', gradeFrom store { s with corroborators := ids } = .ok r' ∧ Condenses s r' r := by
  obtain ⟨item, hitems, rfl⟩ := exists_items_of_gradeFrom hr
  have hitem : ∀ id ∈ s.references, (item id).id = id :=
    fun id hid => EvidenceStore.id_of_get? (hitems id hid)
  have hids : ∀ id ∈ Sanad.references { s with corroborators := ids },
      store.get? id = some (item id) := fun id hid => hitems id (h.mem_references.mp hid)
  exact ⟨_, gradeFrom_of_items hids, condenses_grade hitem h⟩

/-- An item with a disclosed conflict of high severity. -/
def advisor : Evidence :=
  ⟨⟨List.replicate 32 (.castSucc (.last 14)), List.length_replicate⟩, "advisor", .b, .athbatAlNas,
    some (.ofSeverity .high true)⟩

def listedTwice : Sanad := { withDefects [] with corroborators := [advisor.id, advisor.id] }

theorem isDistinct_listedTwice : listedTwice.IsDistinct [advisor.id] where
  nodup := List.nodup_singleton _
  mem_iff id := by
    have hne : advisor.id ≠ listedTwice.primary := by decide
    simp only [listedTwice, List.mem_cons, List.not_mem_nil, or_false, or_self]
    exact (and_iff_left_of_imp fun h => h ▸ hne).symm

/-- Its second mention costs a step. -/
theorem gradeFrom_distinct_listedTwice :
    ∃ r r', gradeFrom (.ofList [unconflicted, advisor]) listedTwice = .ok r ∧
      listedTwice.IsDistinct [advisor.id] ∧
      gradeFrom (.ofList [unconflicted, advisor])
        { listedTwice with corroborators := [advisor.id] } = .ok r' ∧
      Condenses listedTwice r' r ∧ r'.grade = .b ∧ r.grade = .c ∧
      r'.addedDefects.length = 1 ∧ r.addedDefects.length = 2 := by
  have hr : gradeFrom (.ofList [unconflicted, advisor]) listedTwice = .ok _ := rfl
  obtain ⟨r', hr', hcondenses⟩ := gradeFrom_distinct hr isDistinct_listedTwice
  cases hr'
  exact ⟨_, _, hr, isDistinct_listedTwice, rfl, hcondenses, by decide, by decide, by decide,
    by decide⟩

/-- So neither the grade nor the number of defects of a source is free of repeats. -/
theorem not_gradeFrom_distinct :
    (¬ ∀ (store : EvidenceStore) (s : Sanad) (r r' : GradeResult) (ids : List Uuid),
      gradeFrom store s = .ok r → s.IsDistinct ids →
        gradeFrom store { s with corroborators := ids } = .ok r' → r'.grade = r.grade) ∧
    ¬ ∀ (store : EvidenceStore) (s : Sanad) (r : GradeResult) (id : Uuid),
      gradeFrom store s = .ok r →
        ((r.sources.filter (·.source = id)).filterMap (·.defect)).length ≤ 1 := by
  constructor
  · intro h
    have hgrade := h (.ofList [unconflicted, advisor]) listedTwice _ _ _ rfl
      isDistinct_listedTwice rfl
    exact absurd hgrade (by decide)
  · intro h
    have hone := h (.ofList [unconflicted, advisor]) listedTwice _ advisor.id rfl
    exact absurd hone (by decide)

end Grading
end Isnad
