import Isnad.Grading.Corroboration
import Mathlib.Data.Finset.Card
import Mathlib.Data.List.InsertIdx

/-!
# Corroborators by their origins

Corroborators are counted one after the other, each against the origins taken so far. What is
counted in the end is the number of different origins among those that could count, that of the
primary evidence apart (`independent_assess`). So the order in which they come does not matter, and
one more of them never lowers the number.
-/

namespace Isnad

/-- A corroborator that counts unless its origin is taken. -/
def Evidence.isEligible (e : Evidence) : Bool := e.tier.isHigh && e.isClean

namespace Grading

variable {p e : Evidence} {corroborators : List Evidence} {check : Option IndependenceCheck}

/-- The origins of the corroborators that could count. -/
def eligibleOrigins (corroborators : List Evidence) : Finset String :=
  ((corroborators.filter Evidence.isEligible).map Evidence.origin).toFinset

theorem mem_eligibleOrigins {origin : String} :
    origin ∈ eligibleOrigins corroborators ↔
      ∃ b ∈ corroborators, b.isEligible = true ∧ b.origin = origin := by
  simp [eligibleOrigins, and_assoc]

theorem eligibleOrigins_cons (e : Evidence) (es : List Evidence) :
    eligibleOrigins (e :: es) =
      if e.isEligible then insert e.origin (eligibleOrigins es) else eligibleOrigins es := by
  rw [eligibleOrigins, List.filter_cons]
  split
  · rw [List.map_cons, List.toFinset_cons, eligibleOrigins]
  · rfl

theorem skipReason?_eq_none_iff {taken : List String} :
    skipReason? taken e = none ↔ e.isEligible = true ∧ e.origin ∉ taken := by
  unfold skipReason? Evidence.isEligible
  cases e.tier.isHigh with
  | false => simp
  | true => cases e.isClean <;> simp

/-- What is new to a set counts once, and the rest apart from it. -/
theorem card_insert_sdiff {o : String} {origins taken : Finset String} (h : o ∉ taken) :
    (insert o origins \ taken).card = (origins \ insert o taken).card + 1 := by
  have hinsert : insert o origins \ taken = insert o (origins \ insert o taken) := by
    ext x
    by_cases hx : x = o <;> simp [hx, h]
  rw [hinsert, Finset.card_insert_of_notMem (by simp)]

/-- Every eligible origin that is not taken yet counts once. -/
theorem countP_judge (taken : List String) (es : List Evidence) :
    (judge taken es).countP (·.2.isNone) = (eligibleOrigins es \ taken.toFinset).card := by
  induction es generalizing taken with
  | nil => simp [judge, eligibleOrigins]
  | cons e es ih =>
    rw [judge, eligibleOrigins_cons]
    cases hskip : skipReason? taken e with
    | none =>
      obtain ⟨heligible, htaken⟩ := skipReason?_eq_none_iff.mp hskip
      rw [if_pos heligible, card_insert_sdiff (mt List.mem_toFinset.mp htaken),
        ← List.toFinset_cons, ← ih]
      exact List.countP_cons_of_pos rfl
    | some r =>
      rw [List.countP_cons_of_neg (by simp), ih]
      by_cases heligible : e.isEligible = true
      · -- what is eligible and does not count shares its origin
        have htaken : e.origin ∈ taken := by
          by_contra h
          rw [skipReason?_eq_none_iff.mpr ⟨heligible, h⟩] at hskip
          cases hskip
        rw [if_pos heligible, Finset.insert_sdiff_of_mem _ (List.mem_toFinset.mpr htaken)]
      · rw [if_neg heligible]

/-- The number of independent corroborators is that of their origins. -/
theorem independent_assess (p : Evidence) (corroborators : List Evidence)
    (check : Option IndependenceCheck) :
    (assess (some p) corroborators check).independent =
      ((eligibleOrigins corroborators).erase p.origin).card := by
  have hcount := countP_judge [p.origin] corroborators
  rw [List.toFinset_cons, List.toFinset_nil, insert_empty_eq, Finset.sdiff_singleton_eq_erase]
    at hcount
  rw [← hcount, assess, Assessment.independent]
  dsimp only
  rw [List.length_filterMap_eq_countP]
  refine List.countP_congr fun x _ => ?_
  obtain ⟨e, _ | r⟩ := x <;> simp

theorem status_assess (p : Evidence) (corroborators : List Evidence)
    (check : Option IndependenceCheck) :
    (assess (some p) corroborators check).status =
      statusOf (assess (some p) corroborators check).independent
        (check.any IndependenceCheck.confirms) := rfl

theorem eligibleOrigins_mono {es es' : List Evidence} (h : es.Sublist es') :
    eligibleOrigins es ⊆ eligibleOrigins es' := by
  intro o ho
  obtain ⟨b, hb, heligible⟩ := mem_eligibleOrigins.mp ho
  exact mem_eligibleOrigins.mpr ⟨b, h.subset hb, heligible⟩

/-- One more corroborator lowers no count. -/
theorem independent_le_insertIdx (p : Evidence) (corroborators : List Evidence)
    (check : Option IndependenceCheck) (i : Nat) (e : Evidence) :
    (assess (some p) corroborators check).independent ≤
      (assess (some p) (corroborators.insertIdx i e) check).independent := by
  rw [independent_assess, independent_assess]
  exact Finset.card_le_card
    (Finset.erase_subset_erase _ (eligibleOrigins_mono (List.sublist_insertIdx _ _ _)))

end Grading
end Isnad
