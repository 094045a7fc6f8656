import Isnad.Grade
import Mathlib.Data.List.Basic

/-!
# The weakest of several grades

A fold finds the weakest grade of a list. It is one of them, none of them is weaker, and there is
one unless the list is empty (`strictest?_eq_iff`).
-/

namespace Isnad.Grade

variable {g h : Grade} {gs : List Grade} {o : Option Grade}

/-- One of the grades that none of them is weaker than, and none of no grades. -/
def IsWeakestOf (gs : List Grade) : Option Grade → Prop
  | none => gs = []
  | some g => g ∈ gs ∧ ∀ h ∈ gs, h ≤ g

theorem le_stricter_left (g h : Grade) : g ≤ g.stricter h := by
  rw [le_def, rank_stricter]
  exact Nat.le_max_left _ _

theorem le_stricter_right (g h : Grade) : h ≤ g.stricter h := by
  rw [le_def, rank_stricter]
  exact Nat.le_max_right _ _

theorem stricter_mem (g h : Grade) : g.stricter h = g ∨ g.stricter h = h := by
  unfold stricter
  split
  · exact .inr rfl
  · exact .inl rfl

theorem isWeakestOf_foldl_stricter (g : Grade) (gs : List Grade) :
    IsWeakestOf (g :: gs) (some (gs.foldl stricter g)) := by
  induction gs generalizing g with
  | nil => exact ⟨List.mem_singleton_self g, fun h hh => (List.mem_singleton.mp hh) ▸ Nat.le_refl _⟩
  | cons k gs ih =>
    obtain ⟨hmem, hle⟩ := ih (g.stricter k)
    have hstricter : g.stricter k ≤ (k :: gs).foldl stricter g := hle _ List.mem_cons_self
    constructor
    · rcases List.mem_cons.mp hmem with heq | hmem
      · rw [List.foldl_cons, heq]
        rcases stricter_mem g k with h | h <;> simp [h]
      · exact List.mem_cons_of_mem _ (List.mem_cons_of_mem _ hmem)
    · refine List.forall_mem_cons.mpr ⟨Nat.le_trans (le_stricter_left g k) hstricter,
        List.forall_mem_cons.mpr ⟨Nat.le_trans (le_stricter_right g k) hstricter, fun h hh => ?_⟩⟩
      exact hle h (List.mem_cons_of_mem _ hh)

theorem isWeakestOf_strictest? : (gs : List Grade) → IsWeakestOf gs (strictest? gs)
  | [] => rfl
  | g :: gs => isWeakestOf_foldl_stricter g gs

/-- Of one list only one grade is the weakest. -/
theorem IsWeakestOf.eq {o' : Option Grade} (ho : IsWeakestOf gs o) (ho' : IsWeakestOf gs o') :
    o = o' := by
  cases o with
  | none =>
    obtain rfl : gs = [] := ho
    cases o' with
    | none => rfl
    | some g => exact absurd ho'.1 List.not_mem_nil
  | some g =>
    cases o' with
    | none =>
      obtain rfl : gs = [] := ho'
      exact absurd ho.1 List.not_mem_nil
    | some g' =>
      exact congrArg some (rank_injective (Nat.le_antisymm (ho'.2 g ho.1) (ho.2 g' ho'.1)))

theorem strictest?_eq_iff : strictest? gs = o ↔ IsWeakestOf gs o :=
  ⟨fun h => h ▸ isWeakestOf_strictest? gs, fun h => (isWeakestOf_strictest? gs).eq h⟩

end Isnad.Grade
