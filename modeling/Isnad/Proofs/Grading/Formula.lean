import Isnad.Proofs.Grading.Result

/-!
# The grade in closed form

Counted in steps below the strongest grade, what moves a grade adds up: the steps down are bounded
once, at the weakest grade, and the only cap there is comes last (`rank_grade_eq`). What the sources
contribute is read off a table of cures (`CureContext.cures`). The order of the defects on record
shows in the explanation alone (`grade_formula`).
-/

namespace Isnad

namespace Grade

/-- Steps down add up as far as the weakest grade. -/
theorem rank_iterate_downgraded (g : Grade) (n : Nat) :
    (downgraded^[n] g).rank = min 3 (g.rank + n) := by
  induction n with
  | zero => exact (Nat.min_eq_right g.rank_le).symm
  | succ n ih =>
    rw [Function.iterate_succ_apply', rank_downgraded, ih]
    omega

theorem rank_cappedBy_ite (g ceiling : Grade) (isSet : Bool) :
    (g.cappedBy (if isSet then some ceiling else none)).rank =
      if isSet then max g.rank ceiling.rank else g.rank := by
  cases isSet with
  | true => exact rank_stricter g ceiling
  | false => rfl

theorem stricter_self (g : Grade) : g.stricter g = g := if_pos (Nat.le_refl g.rank)

theorem strictest?_replicate_succ (n : Nat) (g : Grade) :
    strictest? (List.replicate (n + 1) g) = some g := by
  rw [List.replicate_succ, strictest?]
  induction n with
  | zero => rfl
  | succ n ih => rw [List.replicate_succ, List.foldl_cons, stricter_self, ih]

/-- Where every cap that is set is the same, it is the strictest. -/
theorem strictestCap_map_ite {α : Type} (l : List α) (f : α → Bool) (g : Grade) :
    strictestCap (l.map fun a => if f a then some g else none) =
      if l.any f then some g else none := by
  have hset : (l.map fun a => if f a then some g else none).filterMap id =
      List.replicate (l.countP f) g := by
    induction l with
    | nil => rfl
    | cons a l ih =>
      rw [List.map_cons, List.filterMap_cons, ih, List.countP_cons]
      cases f a <;> rfl
  rw [strictestCap, hset]
  by_cases h : l.any f = true
  · obtain ⟨n, hn⟩ := Nat.exists_eq_succ_of_ne_zero
      (Nat.ne_of_gt (List.countP_pos_iff.mpr (List.any_eq_true.mp h)))
    rw [if_pos h, hn, strictest?_replicate_succ]
  · rw [if_neg h, List.countP_eq_zero.mpr fun a ha hf => h (List.any_eq_true.mpr ⟨a, ha, hf⟩)]
    rfl

end Grade

/-- A conflict that is present without an assessment of its severity. -/
def Evidence.hasUnassessed (e : Evidence) : Bool :=
  e.conflict.any fun c => c.isPresent && c.severity = none

/-- A conflict of high severity that is present, and disclosed or not. -/
def Evidence.hasHigh (e : Evidence) (isDisclosed : Bool) : Bool :=
  e.conflict.any fun c => c.isPresent && c.severity = some .high && c.isDisclosed = isDisclosed

/-- An open major defect of a kind that gradings do not derive. -/
def Defect.isLastingMajor (d : Defect) : Bool := d.isOpenMajor && !d.type.isConflictDerived

namespace Grading

variable {s : Sanad} {primary : Option Evidence} {p : Evidence} {corroborators : List Evidence}

/-! ## The table of cures -/

namespace CureContext

/-- What cures disclosed and undisclosed conflicts of high severity. -/
def cures (c : CureContext) : Bool → Bool
  | true => c.status = .mutawatir || 2 ≤ c.independent
  | false => 1 ≤ c.independent && !c.check.any IndependenceCheck.contradicts

theorem cures_true_iff {c : CureContext} :
    c.cures true = true ↔ c.status = .mutawatir ∨ 2 ≤ c.independent := by
  simp only [cures, Bool.or_eq_true, decide_eq_true_eq]

theorem cures_false_iff {c : CureContext} :
    c.cures false = true ↔ 1 ≤ c.independent ∧ !c.check.any IndependenceCheck.contradicts := by
  simp only [cures, Bool.and_eq_true, decide_eq_true_eq]

/-- A conflict of high severity that is not cured. -/
def isUncuredHigh (c : CureContext) (e : Evidence) (isDisclosed : Bool) : Bool :=
  e.hasHigh isDisclosed && !c.cures isDisclosed

/-- A source with a conflict that limits the grade. -/
def isCapping (c : CureContext) (e : Evidence) : Bool := e.hasUnassessed || c.isUncuredHigh e false

/-- A source with a conflict that costs a step. -/
def isCostly (c : CureContext) (e : Evidence) : Bool :=
  c.isUncuredHigh e true || c.isUncuredHigh e false

end CureContext

/-- What a judgement imposes: a cap, a defect, or neither. -/
structure CureResult.Imposes (r : CureResult) (isCapping isCostly : Bool) : Prop where
  cap : r.cap = if isCapping then some .c else none
  defect : r.defect.isSome = isCostly
  isCured : r.isCured = !(isCapping || isCostly)

theorem judgeHighDisclosed_imposes (source : Uuid) (c : CureContext) :
    (judgeHighDisclosed source c).Imposes false (!c.cures true) := by
  unfold judgeHighDisclosed
  split
  · rename_i h
    rw [CureContext.cures_true_iff.mpr h]
    exact ⟨rfl, rfl, rfl⟩
  · rename_i h
    rw [Bool.eq_false_iff.mpr (mt CureContext.cures_true_iff.mp h)]
    exact ⟨rfl, rfl, rfl⟩

theorem judgeHighUndisclosed_imposes (source : Uuid) (c : CureContext) :
    (judgeHighUndisclosed source c).Imposes (!c.cures false) (!c.cures false) := by
  unfold judgeHighUndisclosed
  dsimp only
  split
  · rename_i h
    rw [CureContext.cures_false_iff.mpr h]
    exact ⟨rfl, rfl, rfl⟩
  · rename_i h
    rw [Bool.eq_false_iff.mpr (mt CureContext.cures_false_iff.mp h)]
    exact ⟨rfl, rfl, rfl⟩

theorem judgeSource_imposes (c : CureContext) (e : Evidence) :
    (judgeSource c e).Imposes (c.isCapping e) (c.isCostly e) := by
  unfold CureContext.isCapping CureContext.isCostly CureContext.isUncuredHigh Evidence.hasUnassessed
    Evidence.hasHigh judgeSource
  cases e.conflict with
  | none => exact ⟨rfl, rfl, rfl⟩
  | some conflict =>
    obtain ⟨isPresent, severity, isDisclosed, kind, description⟩ := conflict
    match isPresent, severity, isDisclosed with
    | false, _, _ => exact ⟨rfl, rfl, rfl⟩
    | true, none, _ => exact ⟨rfl, rfl, rfl⟩
    | true, some .low, _ => exact ⟨rfl, rfl, rfl⟩
    | true, some .medium, _ => exact ⟨rfl, rfl, rfl⟩
    | true, some .high, true => simpa [judgeConflict] using judgeHighDisclosed_imposes e.id c
    | true, some .high, false => simpa [judgeConflict] using judgeHighUndisclosed_imposes e.id c

/-! ## The formula -/

/-- What the cures of a sanad's sources depend on. -/
def cureContext (s : Sanad) (p : Evidence) (corroborators : List Evidence) : CureContext :=
  let assessment := assess (some p) corroborators s.independence
  ⟨assessment.status, assessment.independent, s.independence⟩

/-- The steps below the strongest grade before anything counts against the sanad. -/
def startRank (c : CureContext) (p : Evidence) : Nat :=
  if c.status = .mutawatir then p.grade.rank - 1 else p.grade.rank

/-- The steps that lasting defects and sources cost. -/
def cost (c : CureContext) (s : Sanad) (sources : List Evidence) : Nat :=
  s.defects.countP Defect.isLastingMajor + sources.countP c.isCostly

/-- The steps below the strongest grade in the end. -/
def finalRank (s : Sanad) (p : Evidence) (corroborators : List Evidence) : Nat :=
  let c := cureContext s p corroborators
  let sources := p :: corroborators
  let uncapped := if s.hasOpenFatal then 3 else min 3 (startRank c p + cost c s sources)
  if sources.any c.isCapping then max uncapped 2 else uncapped

theorem cap_grade_eq (s : Sanad) (p : Evidence) (corroborators : List Evidence) :
    (grade s (some p) corroborators).cap =
      if (p :: corroborators).any (cureContext s p corroborators).isCapping then some .c
      else none := by
  rw [← Grade.strictestCap_map_ite]
  change Grade.strictestCap (((p :: corroborators).map (judgeSource _)).map _) = _
  rw [List.map_map]
  congr 1
  exact List.map_congr_left fun e _ => (judgeSource_imposes _ e).cap

theorem isOpenMajor_of_mem_addedDefects {d : Defect}
    (h : d ∈ (grade s primary corroborators).addedDefects) : d.isOpenMajor = true := by
  obtain ⟨hopen, hmajor, -⟩ := derived_of_mem_addedDefects h
  simp [Defect.isOpenMajor, hopen, hmajor]

/-- Each costly source adds one defect. -/
theorem length_addedDefects (s : Sanad) (p : Evidence) (corroborators : List Evidence) :
    (grade s (some p) corroborators).addedDefects.length =
      (p :: corroborators).countP (cureContext s p corroborators).isCostly := by
  change (((p :: corroborators).map (judgeSource _)).filterMap _).length = _
  rw [List.length_filterMap_eq_countP, List.countP_map]
  refine List.countP_congr fun e _ => ?_
  rw [Function.comp_apply, (judgeSource_imposes _ e).defect]
  rfl

theorem countP_countedDefects (s : Sanad) (p : Evidence) (corroborators : List Evidence) :
    (countedDefects s (grade s (some p) corroborators).addedDefects).countP Defect.isOpenMajor =
      cost (cureContext s p corroborators) s (p :: corroborators) := by
  rw [countedDefects, List.countP_append, List.countP_filter,
    List.countP_eq_length.mpr fun _ => isOpenMajor_of_mem_addedDefects, length_addedDefects]
  rfl

theorem rank_grade_eq (s : Sanad) (p : Evidence) (corroborators : List Evidence) :
    (grade s (some p) corroborators).grade.rank = finalRank s p corroborators := by
  have hstart : (if (grade s (some p) corroborators).status = .mutawatir then p.grade.upgraded
      else p.grade).rank = startRank (cureContext s p corroborators) p := by
    rw [apply_ite Grade.rank, Grade.rank_upgraded]
    rfl
  rw [grade_eq, finalRank]
  split
  · dsimp only [Grade.rank]
    split <;> rfl
  · unfold unforced
    dsimp only
    rw [cap_grade_eq, Grade.rank_cappedBy_ite, Grade.rank_iterate_downgraded,
      countP_countedDefects, ← hstart]
    rfl

/-! ## The order of the defects -/

namespace Trace

/-- A step down for a defect of a kind. -/
def stepDown (t : Trace) (kind : DefectType) : Trace :=
  t.step t.grade.downgraded fun g => "open MAJOR " ++ label kind ++ ": downgraded to " ++ label g

theorem foldl_downgrade_eq (t : Trace) (defects : List Defect) :
    defects.foldl downgrade t =
      ((defects.filter Defect.isOpenMajor).map Defect.type).foldl stepDown t := by
  rw [List.foldl_map, List.foldl_filter]
  rfl

theorem force_congr {fatal fatal' : Option Defect} (t : Trace)
    (h : fatal'.map Defect.type = fatal.map Defect.type) : t.force fatal' = t.force fatal := by
  cases fatal' <;> cases fatal <;> simp_all [force]

end Trace

/-- The kinds of the lasting open major defects, in the order of the record. -/
def majorKinds (defects : List Defect) : List DefectType :=
  (defects.filter Defect.isLastingMajor).map Defect.type

/-- The kind of the first open fatal defect. -/
def fatalKind? (defects : List Defect) : Option DefectType :=
  (defects.find? Defect.isOpenFatal).map Defect.type

theorem kinds_countedDefects (s : Sanad) (added : List Defect) :
    ((countedDefects s added).filter Defect.isOpenMajor).map Defect.type =
      majorKinds s.defects ++ (added.filter Defect.isOpenMajor).map Defect.type := by
  rw [countedDefects, List.filter_append, List.filter_filter, List.map_append]
  rfl

/-- Of the defects on record, a grading sees the kinds alone. -/
theorem grade_congr_kinds {defects : List Defect}
    (hmajor : majorKinds defects = majorKinds s.defects)
    (hfatal : fatalKind? defects = fatalKind? s.defects) :
    grade { s with defects := defects } primary corroborators = grade s primary corroborators := by
  cases primary with
  | none => rfl
  | some p =>
    simp only [grade, Trace.foldl_downgrade_eq, kinds_countedDefects, hmajor,
      Trace.force_congr _ hfatal]

theorem grade_grade_perm {defects : List Defect} (h : defects.Perm s.defects)
    (primary : Option Evidence) (corroborators : List Evidence) :
    (grade { s with defects := defects } primary corroborators).grade =
      (grade s primary corroborators).grade := by
  cases primary with
  | none => rfl
  | some p =>
    have hmajors : defects.countP Defect.isLastingMajor = s.defects.countP Defect.isLastingMajor :=
      h.countP_eq _
    have hfatal : Sanad.hasOpenFatal { s with defects := defects } = s.hasOpenFatal := h.any_eq
    refine Grade.rank_injective ?_
    rw [rank_grade_eq, rank_grade_eq, finalRank, finalRank, hfatal, cost, cost, hmajors]
    rfl

/-- The order of the defects shows in the explanation alone. -/
theorem grade_perm {defects : List Defect} (h : defects.Perm s.defects) :
    grade { s with defects := defects } primary corroborators =
      { grade s primary corroborators with
        explanation :=
          (grade { s with defects := defects } primary corroborators).explanation } := by
  have hgrade := grade_grade_perm h primary corroborators
  cases primary with
  | none => rfl
  | some p =>
    dsimp only
    rw [← hgrade]
    rfl

/-- The grade is that of the formula, under the one cap there is, and the order of the defects shows
in the explanation alone, and there as far as it is one of their kinds. Without primary evidence the
grade is the weakest one and nothing is derived. -/
theorem grade_formula (s : Sanad) (corroborators : List Evidence) :
    (∀ p, (grade s (some p) corroborators).base = p.grade ∧
        (grade s (some p) corroborators).status = (cureContext s p corroborators).status ∧
        (grade s (some p) corroborators).grade.rank = finalRank s p corroborators ∧
        (grade s (some p) corroborators).cap =
          if (p :: corroborators).any (cureContext s p corroborators).isCapping then some .c
          else none) ∧
      (∀ primary defects, defects.Perm s.defects →
        grade { s with defects := defects } primary corroborators =
          { grade s primary corroborators with
            explanation :=
              (grade { s with defects := defects } primary corroborators).explanation }) ∧
      (∀ primary defects, majorKinds defects = majorKinds s.defects →
        fatalKind? defects = fatalKind? s.defects →
        grade { s with defects := defects } primary corroborators =
          grade s primary corroborators) ∧
      (grade s none corroborators).grade = .d ∧ (grade s none corroborators).status = .none ∧
      (grade s none corroborators).sources = [] ∧
      (grade s none corroborators).addedDefects = [] ∧ (grade s none corroborators).cap = none :=
  ⟨fun p => ⟨rfl, rfl, rank_grade_eq s p corroborators, cap_grade_eq s p corroborators⟩,
    fun _ _ h => grade_perm h, fun _ _ hmajor hfatal => grade_congr_kinds hmajor hfatal,
    rfl, rfl, rfl, rfl, rfl⟩

/-- A sanad with two open major defects. -/
def brokenAndStale : Sanad :=
  withDefects [.opened .brokenChain .major .reconstructChain "gap",
    .opened .staleness .major .requestSource "old"]

def unconflicted : Evidence := ⟨brokenAndStale.primary, "company", .a, .athbatAlNas, none⟩

/-- It is graded C in either order of its defects, and whatever they are described as. -/
theorem grade_formula_brokenAndStale :
    finalRank brokenAndStale unconflicted [] = 2 ∧
      (grade brokenAndStale (some unconflicted) []).grade.rank = 2 ∧
      (brokenAndStale.defects.reverse.Perm brokenAndStale.defects ∧
        (grade { brokenAndStale with defects := brokenAndStale.defects.reverse }
          (some unconflicted) []).grade = .c) ∧
      grade { brokenAndStale with
          defects := brokenAndStale.defects.map fun d => { d with description := "" } }
        (some unconflicted) [] = grade brokenAndStale (some unconflicted) [] := by
  obtain ⟨hformula, hperm, hkinds, -⟩ := grade_formula brokenAndStale []
  have hrank : finalRank brokenAndStale unconflicted [] = 2 := by decide
  refine ⟨hrank, (hformula unconflicted).2.2.1.trans hrank, ⟨List.reverse_perm _, ?_⟩, ?_⟩
  · rw [hperm _ _ (List.reverse_perm _)]
    decide
  · exact hkinds _ _ (by decide) (by decide)

/-- The explanation tells the orders apart. -/
theorem not_grade_perm :
    ¬ ∀ (s : Sanad) (p : Evidence) (corroborators : List Evidence) (defects : List Defect),
      defects.Perm s.defects → grade { s with defects := defects } (some p) corroborators =
        grade s (some p) corroborators := by
  intro h
  have hgrade := h brokenAndStale unconflicted [] _ (List.reverse_perm _)
  exact absurd hgrade (by decide)

end Grading
end Isnad
