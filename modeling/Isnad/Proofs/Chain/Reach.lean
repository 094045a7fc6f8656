import Isnad.Chain.Linkage
import Isnad.Proofs.Chain.Tree
import Mathlib.Algebra.BigOperators.Group.Finset.Basic
import Mathlib.Algebra.BigOperators.Intervals

/-!
# What a node reaches

The search for descendants looks at every pending index once for each edge that leads to it. Its
budget is the number of edges and one more, for the start. This suffices: what is found is closed
under children (`reach_closed`), hence is exactly what children of children lead to
(`mem_descendants_iff`).
-/

namespace Isnad.ChainGraph

open Finset

/-- `j` is listed among the children of `i`. -/
def IsChild (g : ChainGraph) (i j : Nat) : Prop := j ∈ g.childrenOf i

/-- The children that are still to be looked at once the nodes in `seen` are done. -/
def unseenEdges (g : ChainGraph) (seen : List Nat) : Nat :=
  ∑ i ∈ (range g.children.length).filter (· ∉ seen), (g.childrenOf i).length

variable {g : ChainGraph}

theorem childrenOf_eq_nil {i : Nat} (h : g.children.length ≤ i) : g.childrenOf i = [] := by
  simp [childrenOf, h]

theorem unseenEdges_nil : g.unseenEdges [] = g.edgeCount := by
  simp only [unseenEdges, List.not_mem_nil, not_false_eq_true, filter_true, edgeCount,
    List.length_flatten, childrenOf]
  induction g.children with
  | nil => rfl
  | cons c cs ih =>
    rw [List.length_cons, sum_range_succ', List.map_cons, List.sum_cons, Nat.add_comm]
    simpa using ih

/-- Seeing a node leaves the children of the others. -/
theorem unseenEdges_cons {seen : List Nat} {i : Nat} (hi : i ∉ seen) :
    g.unseenEdges (i :: seen) + (g.childrenOf i).length = g.unseenEdges seen := by
  have herase : (range g.children.length).filter (· ∉ i :: seen) =
      ((range g.children.length).filter (· ∉ seen)).erase i := by
    ext j
    simp only [mem_filter, mem_erase, List.mem_cons, not_or]
    tauto
  rw [unseenEdges, herase, unseenEdges]
  by_cases h : i < g.children.length
  · exact sum_erase_add _ _ (mem_filter.mpr ⟨mem_range.mpr h, hi⟩)
  · rw [childrenOf_eq_nil (not_lt.mp h), erase_eq_of_notMem (by simp [h])]
    rfl

/-- What is found was seen before or can be reached from a pending node. -/
theorem reach_sound (n : Nat) (pending seen : List Nat) {j : Nat}
    (h : j ∈ g.reach n pending seen) :
    j ∈ seen ∨ ∃ i ∈ pending, Relation.ReflTransGen g.IsChild i j := by
  fun_induction reach g n pending seen with
  | case1 => exact .inl h
  | case2 => exact .inl h
  | case3 n i pending seen _ ih =>
    rcases ih h with hs | ⟨k, hk, hkj⟩
    · exact .inl hs
    · exact .inr ⟨k, List.mem_cons_of_mem _ hk, hkj⟩
  | case4 n i pending seen _ ih =>
    rcases ih h with hs | ⟨k, hk, hkj⟩
    · rcases List.mem_cons.mp hs with rfl | hs
      · exact .inr ⟨j, List.mem_cons_self, .refl⟩
      · exact .inl hs
    · rcases List.mem_append.mp hk with hk | hk
      · exact .inr ⟨i, List.mem_cons_self, .head hk hkj⟩
      · exact .inr ⟨k, List.mem_cons_of_mem _ hk, hkj⟩

/-- No node is found twice. -/
theorem reach_nodup (n : Nat) (pending seen : List Nat) (h : seen.Nodup) :
    (g.reach n pending seen).Nodup := by
  fun_induction reach g n pending seen with
  | case1 => exact h
  | case2 => exact h
  | case3 n i pending seen _ ih => exact ih h
  | case4 n i pending seen hi ih => exact ih (List.nodup_cons.mpr ⟨by simpa using hi, h⟩)

/-- With budget for all that is pending and all unseen edges, the search ends with a set that holds
what it started from and is closed under children. -/
theorem reach_closed (n : Nat) (pending seen : List Nat)
    (hn : pending.length + g.unseenEdges seen ≤ n)
    (hseen : ∀ i ∈ seen, ∀ j, g.IsChild i j → j ∈ seen ∨ j ∈ pending) :
    (∀ i, i ∈ seen ∨ i ∈ pending → i ∈ g.reach n pending seen) ∧
      ∀ i ∈ g.reach n pending seen, ∀ j, g.IsChild i j → j ∈ g.reach n pending seen := by
  fun_induction reach g n pending seen with
  | case1 =>
    refine ⟨fun i hi => hi.resolve_right List.not_mem_nil, fun i hi j hj => ?_⟩
    exact (hseen i hi j hj).resolve_right List.not_mem_nil
  | case2 pending seen hne =>
    cases pending with
    | nil => exact absurd rfl hne
    | cons i pending => simp at hn
  | case3 n i pending seen hi ih =>
    have hi : i ∈ seen := by simpa using hi
    rw [List.length_cons] at hn
    have hrest : ∀ k ∈ seen, ∀ j, g.IsChild k j → j ∈ seen ∨ j ∈ pending := by
      intro k hk j hj
      rcases hseen k hk j hj with h | h
      · exact .inl h
      · rcases List.mem_cons.mp h with rfl | h
        · exact .inl hi
        · exact .inr h
    obtain ⟨hkeep, hclosed⟩ := ih (by omega) hrest
    refine ⟨fun k hk => hkeep k ?_, hclosed⟩
    rcases hk with h | h
    · exact .inl h
    · rcases List.mem_cons.mp h with rfl | h
      · exact .inl hi
      · exact .inr h
  | case4 n i pending seen hi ih =>
    have hi : i ∉ seen := by simpa using hi
    have hcount := unseenEdges_cons (g := g) hi
    rw [List.length_cons] at hn
    have hrest : ∀ k ∈ i :: seen, ∀ j, g.IsChild k j →
        j ∈ i :: seen ∨ j ∈ g.childrenOf i ++ pending := by
      intro k hk j hj
      rcases List.mem_cons.mp hk with rfl | hk
      · exact .inr (List.mem_append_left _ hj)
      · rcases hseen k hk j hj with h | h
        · exact .inl (List.mem_cons_of_mem _ h)
        · rcases List.mem_cons.mp h with rfl | h
          · exact .inl List.mem_cons_self
          · exact .inr (List.mem_append_right _ h)
    obtain ⟨hkeep, hclosed⟩ := ih (by rw [List.length_append]; omega) hrest
    refine ⟨fun k hk => hkeep k ?_, hclosed⟩
    rcases hk with h | h
    · exact .inl (List.mem_cons_of_mem _ h)
    · rcases List.mem_cons.mp h with rfl | h
      · exact .inl List.mem_cons_self
      · exact .inr (List.mem_append_right _ h)

/-- The search finds the node itself and what descends from it, and nothing else. -/
theorem mem_descendants_iff {i j : Nat} :
    j ∈ g.descendants i ↔ Relation.ReflTransGen g.IsChild i j := by
  constructor
  · intro h
    obtain h | ⟨k, hk, hkj⟩ := reach_sound _ _ _ h
    · exact absurd h List.not_mem_nil
    · rwa [List.mem_singleton.mp hk] at hkj
  · intro h
    have hbudget : [i].length + g.unseenEdges [] ≤ g.edgeCount + 1 := by
      rw [unseenEdges_nil, List.length_singleton, Nat.add_comm]
    obtain ⟨hkeep, hclosed⟩ := reach_closed (g := g) _ [i] [] hbudget (by simp)
    induction h with
    | refl => exact hkeep i (.inr (List.mem_singleton_self i))
    | tail _ hbc ih => exact hclosed _ ih _ hbc

theorem descendants_nodup (i : Nat) : (g.descendants i).Nodup :=
  reach_nodup _ _ _ List.nodup_nil

end Isnad.ChainGraph
