import Isnad.Proofs.Grading.FailClosed
import Isnad.Proofs.Grading.Order

/-!
# Which corroborators count

The count goes through the corroborators with the origins that are taken. At every point these are
the origin of the primary evidence and those of the items so far that could count
(`Taken.after`): what is skipped for its tier or its conflicts takes no origin, and what is skipped
for its origin adds none. So each item has its verdict from the items before it
(`Taken.isVerdict_of_judge`), and the items that count are of different origins
(`nodup_origins_judge`). What becomes of the corroborators and of their number is put together in
`corroborators_counted`.
-/

namespace Isnad.Grading

variable {p e : Evidence} {earlier corroborators : List Evidence} {taken : List String}
  {r : Option SkipReason} {check : Option IndependenceCheck} {i : Nat}

/-- The origin is that of the primary evidence, or of an earlier item that could count. -/
def IsTaken (p : Evidence) (earlier : List Evidence) (origin : String) : Prop :=
  origin = p.origin ∨ ∃ b ∈ earlier, b.isEligible = true ∧ b.origin = origin

/-- The verdict on an item that comes after others: its tier matters first, then its conflicts, and
its origin last. -/
structure IsVerdict (p : Evidence) (earlier : List Evidence) (e : Evidence)
    (r : Option SkipReason) : Prop where
  lowTier : r = some .lowTier ↔ e.tier.isHigh = false
  conflicted : r = some .conflicted ↔ e.tier.isHigh = true ∧ e.isClean = false
  sharedOrigin : r = some .sharedOrigin ↔ e.isEligible = true ∧ IsTaken p earlier e.origin
  counted : r = none ↔ e.isEligible = true ∧ ¬ IsTaken p earlier e.origin

/-! ## The origins that are taken -/

/-- The origins that are taken after an item. -/
def takenAfter (taken : List String) (e : Evidence) : List String :=
  if skipReason? taken e = none then e.origin :: taken else taken

theorem judge_cons (taken : List String) (e : Evidence) (es : List Evidence) :
    judge taken (e :: es) = (e, skipReason? taken e) :: judge (takenAfter taken e) es := by
  rw [judge, takenAfter]
  cases skipReason? taken e <;> rfl

/-- The list holds the origins that are taken. -/
def Taken (p : Evidence) (earlier : List Evidence) (taken : List String) : Prop :=
  ∀ origin, origin ∈ taken ↔ IsTaken p earlier origin

theorem taken_start (p : Evidence) : Taken p [] [p.origin] := by
  intro origin
  simp [IsTaken]

theorem isTaken_concat {origin : String} :
    IsTaken p (earlier ++ [e]) origin ↔
      IsTaken p earlier origin ∨ e.isEligible = true ∧ e.origin = origin := by
  simp only [IsTaken, List.mem_append, List.mem_singleton, or_and_right, exists_or,
    exists_eq_left, or_assoc]

theorem Taken.after (h : Taken p earlier taken) (e : Evidence) :
    Taken p (earlier ++ [e]) (takenAfter taken e) := by
  intro origin
  rw [isTaken_concat, ← h origin, takenAfter]
  split
  · rename_i hcounts
    rw [List.mem_cons, or_comm, eq_comm, and_iff_right (skipReason?_eq_none_iff.mp hcounts).1]
  · rename_i hskipped
    rw [iff_self_or]
    rintro ⟨heligible, rfl⟩
    by_contra hfree
    exact hskipped (skipReason?_eq_none_iff.mpr ⟨heligible, hfree⟩)

/-! ## Verdicts -/

theorem Taken.isVerdict (h : Taken p earlier taken) (e : Evidence) :
    IsVerdict p earlier e (skipReason? taken e) := by
  have horigin : taken.contains e.origin = true ↔ IsTaken p earlier e.origin := by
    rw [List.contains_iff_mem, h]
  unfold skipReason?
  constructor <;> grind [Evidence.isEligible]

/-- There is one verdict for each corroborator, in their order. -/
theorem map_fst_judge (taken : List String) (es : List Evidence) :
    (judge taken es).map (·.1) = es := by
  induction es generalizing taken with
  | nil => rfl
  | cons e es ih => rw [judge_cons, List.map_cons, ih]

/-- Every item is judged by those before it. -/
theorem Taken.isVerdict_of_judge (h : Taken p earlier taken)
    (hi : (judge taken corroborators)[i]? = some (e, r)) :
    IsVerdict p (earlier ++ corroborators.take i) e r := by
  induction corroborators generalizing earlier taken i with
  | nil => simp [judge] at hi
  | cons b bs ih =>
    rw [judge_cons] at hi
    cases i with
    | zero =>
      obtain ⟨rfl, rfl⟩ := Prod.mk.inj (Option.some.inj hi)
      rw [List.take_zero, List.append_nil]
      exact h.isVerdict b
    | succ i =>
      rw [List.take_succ_cons, List.append_cons]
      exact ih (h.after b) hi

/-- Of two items that count, the origin of the later one was not taken by the earlier. -/
theorem nodup_origins_judge (p : Evidence) (corroborators : List Evidence) :
    (((judge [p.origin] corroborators).filter (·.2.isNone)).map (·.1.origin)).Nodup := by
  have hverdict {i : Nat} {v : Evidence × Option SkipReason}
      (hv : (judge [p.origin] corroborators)[i]? = some v) :
      IsVerdict p (corroborators.take i) v.1 v.2 := (taken_start p).isVerdict_of_judge hv
  rw [List.Nodup, List.pairwise_map, List.pairwise_filter, List.pairwise_iff_getElem]
  intro i j hi hj hij hfirst hsecond heq
  have hv := hverdict (List.getElem?_eq_getElem hi)
  have hw := hverdict (List.getElem?_eq_getElem hj)
  obtain ⟨heligible, -⟩ := hv.counted.mp (Option.isNone_iff_eq_none.mp hfirst)
  obtain ⟨-, hfree⟩ := hw.counted.mp (Option.isNone_iff_eq_none.mp hsecond)
  have htake : corroborators.take j = ((judge [p.origin] corroborators).take j).map (·.1) := by
    rw [List.map_take, map_fst_judge]
  have hmem : (judge [p.origin] corroborators)[i] ∈ (judge [p.origin] corroborators).take j :=
    List.mem_take_iff_getElem.mpr ⟨i, Nat.lt_min.mpr ⟨hij, hi⟩, rfl⟩
  exact hfree (.inr ⟨_, htake ▸ List.mem_map_of_mem hmem, heligible, heq⟩)

/-! ## The number of items that count -/

theorem statusOf_eq_ahad_iff {n : Nat} {isConfirmed : Bool} :
    (statusOf n isConfirmed = .ahad1 ↔ n = 0) ∧
      (statusOf n isConfirmed = .ahad2 ↔ n = 1 ∧ isConfirmed = false) := by
  match n with
  | 0 => simp [statusOf]
  | 1 => cases isConfirmed <;> simp [statusOf]
  | n + 2 => simp [statusOf]

/-- An item that is listed already, or that has the origin of the primary evidence, brings no new
origin. -/
theorem independent_insertIdx (h : e.origin = p.origin ∨ e ∈ corroborators) (i : Nat) :
    (assess (some p) (corroborators.insertIdx i e) check).independent =
      (assess (some p) corroborators check).independent := by
  rw [independent_assess, independent_assess]
  congr 1
  ext origin
  simp only [Finset.mem_erase, mem_eligibleOrigins]
  refine and_congr_right fun hne => ⟨?_, ?_⟩
  · rintro ⟨b, hb, heligible, rfl⟩
    rcases List.eq_or_mem_of_mem_insertIdx hb with rfl | hb
    · exact ⟨b, h.resolve_left hne, heligible, rfl⟩
    · exact ⟨b, hb, heligible, rfl⟩
  · rintro ⟨b, hb, heligible⟩
    exact ⟨b, (List.sublist_insertIdx _ _ _).subset hb, heligible⟩

/-- Every corroborator is either counted or skipped, in their order, and by its verdict. Those that
count are of different origins, and there are as many as origins other than that of the primary
evidence among the items of a high tier that are clean of conflicts. Their number makes the status,
for a single one with the check. Neither a corroborator that is listed again nor an item of the
primary evidence's origin, such as the primary evidence itself, changes the status. -/
theorem corroborators_counted (p : Evidence) (corroborators : List Evidence)
    (check : Option IndependenceCheck) :
    let a := assess (some p) corroborators check
    (∃ verdicts : List (Evidence × Option SkipReason),
      verdicts.map (·.1) = corroborators ∧
      (∀ i e r, verdicts[i]? = some (e, r) → IsVerdict p (corroborators.take i) e r) ∧
      a.counted = (verdicts.filter (·.2.isNone)).map (·.1.id) ∧
      a.skipped = verdicts.filterMap (fun v => v.2.map (v.1.id, ·)) ∧
      ((verdicts.filter (·.2.isNone)).map (·.1.origin)).Nodup) ∧
    a.counted.length = ((eligibleOrigins corroborators).erase p.origin).card ∧
    (a.status = .ahad1 ↔ a.counted.length = 0) ∧
    (a.status = .ahad2 ↔
      a.counted.length = 1 ∧ check.any IndependenceCheck.confirms = false) ∧
    (a.status = .mutawatir ↔ 2 ≤ a.counted.length ∨ a.isPromoted = true) ∧
    (a.isPromoted = true ↔ a.counted.length = 1 ∧ check.any IndependenceCheck.confirms = true) ∧
    ∀ i e, e.origin = p.origin ∨ e ∈ corroborators →
      (assess (some p) (corroborators.insertIdx i e) check).status = a.status := by
  intro a
  have hpromoted : a.isPromoted = true ↔
      a.counted.length = 1 ∧ check.any IndependenceCheck.confirms = true := by
    rw [isPromoted_assess, Bool.and_eq_true, decide_eq_true_eq]
    rfl
  refine ⟨⟨judge [p.origin] corroborators, map_fst_judge _ _, fun i e r hi => ?_, ?_, rfl,
      nodup_origins_judge p corroborators⟩, independent_assess p corroborators check,
    statusOf_eq_ahad_iff.1, statusOf_eq_ahad_iff.2, ?_, hpromoted, fun i e he => ?_⟩
  · exact (taken_start p).isVerdict_of_judge hi
  · rw [← List.filterMap_eq_map, List.filterMap_filter]
    rfl
  · rw [hpromoted]
    exact statusOf_eq_mutawatir_iff
  · rw [status_assess, independent_insertIdx he]
    rfl

/-- Of the four corroborators the first counts, and the check promotes it. To list it again, or the
primary evidence with it, leaves the status as it is. -/
theorem corroborators_counted_entangled :
    let p : Evidence := ⟨(withDefects []).primary, "company", .a, .thiqah, none⟩
    let check : Option IndependenceCheck := some ⟨true, true⟩
    let a := assess (some p) entangled check
    a.counted.length = 1 ∧ a.skipped.map (·.2) = [.sharedOrigin, .conflicted, .conflicted] ∧
      check.any IndependenceCheck.confirms = true ∧ a.isPromoted = true ∧
      a.status = .mutawatir ∧
      p.origin = p.origin ∧ (assess (some p) (entangled.insertIdx 2 p) check).status = a.status ∧
      entangled.head (by decide) ∈ entangled ∧
      (assess (some p) (entangled.insertIdx 4 (entangled.head (by decide))) check).status =
        a.status := by
  intro p check a
  obtain ⟨-, -, -, -, hmutawatir, hpromoted, hinsert⟩ := corroborators_counted p entangled check
  have hone : a.counted.length = 1 := by decide
  have hisPromoted : a.isPromoted = true := hpromoted.mpr ⟨hone, rfl⟩
  exact ⟨hone, by decide, rfl, hisPromoted, hmutawatir.mpr (.inr hisPromoted), rfl,
    hinsert 2 p (.inl rfl), List.head_mem _, hinsert 4 _ (.inr (List.head_mem _))⟩

end Isnad.Grading
