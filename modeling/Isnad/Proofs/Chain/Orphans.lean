import Isnad.Proofs.Chain.Reported
import Mathlib.Data.Finset.Max

/-!
# Orphans

Following parents from a first link ends: there are finitely many first links, so the way comes to a
link without a parent, to one whose parent is outside the chain, or to a cycle (`exists_end`). If
one first link has no parent, the orphans are the first links whose way does not end there. They are
reported, and with what is reached from the root they make up the chain (`orphans_counted`).
-/

namespace Isnad

open Relation

namespace ChainLink

variable {links : List ChainLink} {l m p root : ChainLink}

/-- Following parents from the link `l` leads to the first link `m`. -/
def Ancestor (links : List ChainLink) (m l : ChainLink) : Prop := ReflTransGen (Parent links) m l

/-- The link names a parent that is not in the chain. -/
def NamesOutside (links : List ChainLink) (l : ChainLink) : Prop :=
  ∃ name, l.parent = some name ∧ name ∉ ids links

/-- Following parents from the link leads back to it. -/
def OnCycle (links : List ChainLink) (l : ChainLink) : Prop := TransGen (Parent links) l l

/-- The link is the only first link without a parent. -/
def IsOnlyRoot (links : List ChainLink) (root : ChainLink) : Prop :=
  ∀ l, IsFirst links l ∧ l.parent = none ↔ l = root

theorem IsOnlyRoot.isFirst (h : IsOnlyRoot links root) : IsFirst links root :=
  ((h root).mpr rfl).1

theorem IsOnlyRoot.parent (h : IsOnlyRoot links root) : root.parent = none := ((h root).mpr rfl).2

theorem isOnlyRoot_iff :
    IsOnlyRoot links root ↔ (firsts links).filter (·.parent.isNone) = [root] := by
  have hmem (l : ChainLink) :
      l ∈ (firsts links).filter (·.parent.isNone) ↔ IsFirst links l ∧ l.parent = none := by
    rw [List.mem_filter, mem_firsts_iff, Option.isNone_iff_eq_none]
  constructor
  · intro h
    rw [← List.perm_singleton, List.perm_ext_iff_of_nodup ((nodup_firsts links).filter _)
      (List.nodup_singleton root)]
    intro l
    rw [hmem, h, List.mem_singleton]
  · intro h l
    rw [← hmem, h, List.mem_singleton]

/-! ## Where parents lead -/

theorem OnCycle.isFirst (h : OnCycle links l) : IsFirst links l := by
  obtain ⟨p, -, hp⟩ := TransGen.tail'_iff.mp h
  exact hp.2.1

theorem exists_parent {name : String} (hl : IsFirst links l) (hname : l.parent = some name)
    (hmem : name ∈ ids links) : ∃ p, Parent links p l := by
  obtain ⟨k, hk, rfl⟩ := List.mem_map.mp hmem
  obtain ⟨p, hp, hid⟩ := exists_isFirst hk
  exact ⟨p, hp, hl, by rw [hname, hid]⟩

theorem eq_of_ancestor (h : Ancestor links m l) (hl : ∀ p, ¬ Parent links p l) : m = l := by
  rcases ReflTransGen.cases_tail h with heq | ⟨p, -, hp⟩
  · exact heq.symm
  · exact absurd hp (hl p)

theorem not_parent_of_none (links : List ChainLink) (h : l.parent = none) (p : ChainLink) :
    ¬ Parent links p l := by
  intro hp
  rw [hp.2.2] at h
  cases h

theorem NamesOutside.not_parent (h : NamesOutside links l) (p : ChainLink) :
    ¬ Parent links p l := by
  obtain ⟨name, hname, hout⟩ := h
  intro hp
  obtain rfl := Option.some.inj (hname.symm.trans hp.2.2)
  exact hout (List.mem_map_of_mem hp.1.mem)

open Classical in
/-- The ancestors of a first link, itself among them. -/
noncomputable def ancestors (links : List ChainLink) (l : ChainLink) : Finset ChainLink :=
  (firsts links).toFinset.filter (Ancestor links · l)

theorem mem_ancestors_iff (hl : IsFirst links l) : m ∈ ancestors links l ↔ Ancestor links m l := by
  classical
  rw [ancestors, Finset.mem_filter, List.mem_toFinset, mem_firsts_iff]
  exact and_iff_right_of_imp fun hm => isFirst_of_reaches hm hl

theorem ancestors_subset (h : Parent links p l) : ancestors links p ⊆ ancestors links l := by
  intro x hx
  exact (mem_ancestors_iff h.2.1).mpr (((mem_ancestors_iff h.1).mp hx).tail h)

/-- Following parents ends. Of the ancestors take one that has the fewest itself: if it has a
parent, that parent has as many, so the link is an ancestor of its parent. -/
theorem exists_end (h : IsFirst links l) :
    ∃ m, Ancestor links m l ∧ (m.parent = none ∨ NamesOutside links m ∨ OnCycle links m) := by
  obtain ⟨m, hm, hmin⟩ := (ancestors links l).exists_min_image
    (fun m => (ancestors links m).card) ⟨l, (mem_ancestors_iff h).mpr .refl⟩
  have hml : Ancestor links m l := (mem_ancestors_iff h).mp hm
  have hmfirst := isFirst_of_reaches hml h
  refine ⟨m, hml, ?_⟩
  cases hparent : m.parent with
  | none => exact .inl rfl
  | some name =>
    by_cases hname : name ∈ ids links
    · obtain ⟨p, hp⟩ := exists_parent hmfirst hparent hname
      have heq : ancestors links p = ancestors links m :=
        Finset.eq_of_subset_of_card_le (ancestors_subset hp)
          (hmin p ((mem_ancestors_iff h).mpr (.head hp hml)))
      have hmp : Ancestor links m p :=
        (mem_ancestors_iff hp.1).mp (heq ▸ (mem_ancestors_iff hmfirst).mpr .refl)
      exact .inr (.inr (.tail' hmp hp))
    · exact .inr (.inl ⟨name, hparent, hname⟩)

/-- Following parents does not end at the only root exactly if it ends at a link whose parent is
outside the chain, or runs into a cycle. -/
theorem IsOnlyRoot.not_ancestor_iff (h : IsOnlyRoot links root) (hl : IsFirst links l) :
    ¬ Ancestor links root l ↔
      ∃ m, Ancestor links m l ∧ (NamesOutside links m ∨ OnCycle links m) := by
  have hroot := not_parent_of_none links h.parent
  constructor
  · intro hno
    obtain ⟨m, hml, hnone | hend⟩ := exists_end hl
    · exact absurd ((h m).mp ⟨isFirst_of_reaches hml hl, hnone⟩ ▸ hml) hno
    · exact ⟨m, hml, hend⟩
  · rintro ⟨m, hml, hend⟩ hrl
    have hrm : Ancestor links root m := by
      rcases (uniquePredecessor_parent links).total hrl hml with hrm | hmr
      · exact hrm
      · exact eq_of_ancestor hmr hroot ▸ .refl
    rcases hend with hout | hcycle
    · have heq := eq_of_ancestor hrm hout.not_parent
      obtain ⟨name, hname, -⟩ := hout
      rw [← heq, h.parent] at hname
      cases hname
    · have hself := cyclic_of_reaches (uniquePredecessor_parent links) hrm hcycle
      obtain ⟨p, -, hp⟩ := TransGen.tail'_iff.mp hself
      exact hroot p hp

/-- There are orphans exactly if a parent is outside the chain or there is a cycle. -/
theorem IsOnlyRoot.exists_orphan_iff (h : IsOnlyRoot links root) :
    (∃ l, IsFirst links l ∧ ¬ Ancestor links root l) ↔
      (∃ l, IsFirst links l ∧ NamesOutside links l) ∨ ∃ l, OnCycle links l := by
  constructor
  · rintro ⟨l, hl, hno⟩
    obtain ⟨m, hml, hout | hcycle⟩ := (h.not_ancestor_iff hl).mp hno
    · exact .inl ⟨m, isFirst_of_reaches hml hl, hout⟩
    · exact .inr ⟨m, hcycle⟩
  · rintro (⟨m, hm, hout⟩ | ⟨m, hcycle⟩)
    · exact ⟨m, hm, (h.not_ancestor_iff hm).mpr ⟨m, .refl, .inl hout⟩⟩
    · exact ⟨m, hcycle.isFirst, (h.not_ancestor_iff hcycle.isFirst).mpr ⟨m, .refl, .inr hcycle⟩⟩

end ChainLink

namespace Linkage

open ChainLink

variable {links : List ChainLink} {root l : ChainLink}

/-! ## What is reported of parents and of roots -/

theorem has_orphanReference_iff :
    (ofLinks links).has .sanadOrphanReference = true ↔
      ∃ l, IsFirst links l ∧ NamesOutside links l := by
  rw [has_iff, ofCode_ofLinks, filter_rootIssues (by decide) (by decide)]
  simp only [reduceCtorEq, if_false, if_true, List.nil_append, List.append_nil, ne_eq,
    List.filterMap_eq_nil_iff, not_forall, mem_firsts_iff, exists_prop]
  refine exists_congr fun l => and_congr_right fun _ => ?_
  unfold orphanReference? NamesOutside
  cases l.parent with
  | none => simp
  | some name => simp [mem_ids_firsts]

/-- That there is no root is said only where there are first links and all of them name parents. -/
theorem exists_end_of_has_noRoot (h : (ofLinks links).has .sanadNoRoot = true) :
    (∃ l, IsFirst links l ∧ NamesOutside links l) ∨ ∃ l, OnCycle links l := by
  rw [has_iff, ofCode_ofLinks] at h
  simp only [reduceCtorEq, if_false, List.nil_append, List.append_nil] at h
  unfold rootIssues at h
  split at h
  · rename_i hroots
    split at h
    · exact absurd rfl h
    · rename_i hne
      obtain ⟨l, hl⟩ := List.exists_mem_of_ne_nil (firsts links) (by simpa using hne)
      obtain ⟨m, hml, hnone | hout | hcycle⟩ := exists_end (mem_firsts_iff.mp hl)
      · have hm := mem_firsts_iff.mpr (isFirst_of_reaches hml (mem_firsts_iff.mp hl))
        have hno := List.filter_eq_nil_iff.mp hroots m hm
        simp [hnone] at hno
      · exact .inl ⟨m, isFirst_of_reaches hml (mem_firsts_iff.mp hl), hout⟩
      · exact .inr ⟨m, hcycle⟩
  · exact absurd rfl h
  · simp at h

/-! ## The orphans -/

/-- The places that are reached from the link. -/
def reached (links : List ChainLink) (root : ChainLink) : List Nat :=
  (ChainGraph.ofLinks (firsts links)).descendants ((firsts links).idxOf root)

/-- The first links that are not reached from the link. -/
def orphans (links : List ChainLink) (root : ChainLink) : List ChainLink :=
  (firsts links).filter fun l => !(reached links root).contains ((firsts links).idxOf l)

theorem idxOf_mem_reached_iff (hr : IsFirst links root) (hl : IsFirst links l) :
    (firsts links).idxOf l ∈ reached links root ↔ Ancestor links root l := by
  rw [reached, ChainGraph.mem_descendants_iff, ChainGraph.reaches_idxOf_iff hr hl, Ancestor]

theorem mem_orphans_iff (hr : IsFirst links root) :
    l ∈ orphans links root ↔ IsFirst links l ∧ ¬ Ancestor links root l := by
  rw [orphans, List.mem_filter, mem_firsts_iff]
  refine and_congr_right fun hl => ?_
  rw [← idxOf_mem_reached_iff hr hl]
  simp

/-- The first links that are reached from the link. -/
def reachedLinks (links : List ChainLink) (root : ChainLink) : List ChainLink :=
  (firsts links).filter fun l => (reached links root).contains ((firsts links).idxOf l)

theorem mem_reached_iff (hr : IsFirst links root) {i : Nat} :
    i ∈ reached links root ↔ i ∈ (reachedLinks links root).map (firsts links).idxOf := by
  rw [List.mem_map]
  constructor
  · intro hi
    have hlt : i < (firsts links).length :=
      ChainGraph.lt_of_reaches (idxOf_lt hr) (ChainGraph.mem_descendants_iff.mp hi)
    have hidx := idxOf_linkAt hlt
    refine ⟨linkAt links i, List.mem_filter.mpr ⟨mem_firsts_iff.mpr (isFirst_linkAt hlt), ?_⟩, hidx⟩
    simpa [hidx] using hi
  · rintro ⟨l, hl, rfl⟩
    simpa using (List.mem_filter.mp hl).2

theorem length_reached (hr : IsFirst links root) :
    (reached links root).length = (reachedLinks links root).length := by
  have hlinks : ((reachedLinks links root).map (firsts links).idxOf).Nodup := by
    refine ((nodup_firsts links).filter _).map_on fun l hl l' hl' => ?_
    exact eq_of_idxOf_eq (mem_firsts_iff.mp (List.mem_of_mem_filter hl))
      (mem_firsts_iff.mp (List.mem_of_mem_filter hl'))
  have hreached : (reached links root).Nodup := ChainGraph.descendants_nodup _
  have hperm := (List.perm_ext_iff_of_nodup hreached hlinks).mpr fun i => mem_reached_iff hr
  rw [hperm.length_eq, List.length_map]

/-- What is reached and the orphans make up the first links. -/
theorem length_reached_add (hr : IsFirst links root) :
    (reached links root).length + (orphans links root).length = (firsts links).length := by
  rw [length_reached hr, reachedLinks, orphans, ← List.length_eq_length_filter_add]

theorem orphanedIssues_firsts (h : IsOnlyRoot links root) :
    orphanedIssues (firsts links) = (orphans links root).map (orphanedIssue root) := by
  have hplaces : (firsts links).mapIdx (fun i l => (i, l)) =
      (firsts links).map fun l => ((firsts links).idxOf l, l) := by
    refine List.ext_getElem (by simp) fun i hi hi' => ?_
    rw [List.length_mapIdx] at hi
    rw [List.getElem_mapIdx, List.getElem_map, (nodup_firsts links).idxOf_getElem i hi]
  rw [orphanedIssues, isOnlyRoot_iff.mp h]
  dsimp only
  rw [hplaces, List.filterMap_map, orphans, ← List.filterMap_eq_map, List.filterMap_filter]
  refine List.filterMap_congr fun l _ => ?_
  simp only [Function.comp_apply, reached, Bool.not_eq_eq_eq_not, Bool.not_true]
  split <;> simp_all

/-- What the analysis says if there is one root. -/
theorem ofLinks_of_isOnlyRoot (h : IsOnlyRoot links root) :
    (ofLinks links).root = some root.id ∧
      (ofLinks links).reachable = (reached links root).length := by
  rw [ofLinks]
  simp only [isOnlyRoot_iff.mp h, reached, and_self]

/-- What the analysis says if there is not one root. -/
theorem ofLinks_of_not_isOnlyRoot (h : ¬ ∃ root, IsOnlyRoot links root) :
    orphanedIssues (firsts links) = [] ∧ (ofLinks links).root = none ∧
      (ofLinks links).reachable = 0 := by
  simp only [isOnlyRoot_iff, not_exists] at h
  rw [orphanedIssues, ofLinks]
  dsimp only
  generalize (firsts links).filter (·.parent.isNone) = roots at h ⊢
  rcases roots with _ | ⟨root, _ | ⟨root', roots⟩⟩
  · exact ⟨rfl, rfl, rfl⟩
  · exact absurd rfl (h root)
  · exact ⟨rfl, rfl, rfl⟩

theorem ofCode_orphanedNode (links : List ChainLink) :
    (ofLinks links).ofCode .sanadOrphanedNode = orphanedIssues (firsts links) := by
  rw [ofCode_ofLinks, filter_rootIssues (by decide) (by decide)]
  simp

/-- If one first link has no parent, it is the root. The orphaned nodes that are reported are the
first links whose parents do not lead to it, which are those whose parents lead out of the chain or
into a cycle. With what is reachable they add up to the names of the chain, and there are some
exactly if an outside parent or a cycle is reported. If there is not one root, no orphaned nodes are
reported, and nothing is reachable. Where a root is missing, there is an outside parent or a
cycle. -/
theorem orphans_counted (links : List ChainLink) :
    (∀ root, IsOnlyRoot links root →
      (ofLinks links).root = some root.id ∧
      (∃ orphans : List ChainLink,
        (ofLinks links).ofCode .sanadOrphanedNode = orphans.map (orphanedIssue root) ∧
        orphans.Pairwise (Before links) ∧
        (∀ l, l ∈ orphans ↔ IsFirst links l ∧ ¬ Ancestor links root l) ∧
        (∀ l, l ∈ orphans ↔ IsFirst links l ∧
          ∃ m, Ancestor links m l ∧ (NamesOutside links m ∨ OnCycle links m)) ∧
        (ofLinks links).reachable + orphans.length = (ids links).toFinset.card) ∧
      ((ofLinks links).has .sanadOrphanedNode = true ↔
        (ofLinks links).has .sanadOrphanReference = true ∨
          (ofLinks links).has .sanadCycleDetected = true)) ∧
    ((¬ ∃ root, IsOnlyRoot links root) →
      (ofLinks links).ofCode .sanadOrphanedNode = [] ∧ (ofLinks links).root = none ∧
        (ofLinks links).reachable = 0) ∧
    ((ofLinks links).has .sanadNoRoot = true →
      (ofLinks links).has .sanadOrphanReference = true ∨
        (ofLinks links).has .sanadCycleDetected = true) := by
  refine ⟨fun root h => ?_, fun h => ?_, fun h => ?_⟩
  · obtain ⟨hroot, hreachable⟩ := ofLinks_of_isOnlyRoot h
    have hissues : (ofLinks links).ofCode .sanadOrphanedNode =
        (orphans links root).map (orphanedIssue root) :=
      (ofCode_orphanedNode links).trans (orphanedIssues_firsts h)
    refine ⟨hroot, ⟨orphans links root, hissues, (firsts_pairwise links).filter _,
      fun l => mem_orphans_iff h.isFirst, fun l => ?_, ?_⟩, ?_⟩
    · rw [mem_orphans_iff h.isFirst]
      exact and_congr_right fun hl => h.not_ancestor_iff hl
    · rw [hreachable, length_reached_add h.isFirst, length_firsts]
    · rw [has_orphanReference_iff, has_cycleDetected_iff, has_iff, hissues, ne_eq,
        List.map_eq_nil_iff, List.eq_nil_iff_forall_not_mem, not_forall_not]
      simp only [mem_orphans_iff h.isFirst]
      exact h.exists_orphan_iff
  · rw [ofCode_orphanedNode]
    exact ofLinks_of_not_isOnlyRoot h
  · rw [has_orphanReference_iff, has_cycleDetected_iff]
    exact exists_end_of_has_noRoot h

/-- A chain with a repeated name, a parent outside of it, and a cycle beside the root. -/
def disordered : List ChainLink :=
  [⟨0, "r", none⟩, ⟨1, "a", some "r"⟩, ⟨2, "a", some "x"⟩, ⟨3, "b", some "gone"⟩,
    ⟨4, "c", some "d"⟩, ⟨5, "d", some "c"⟩, ⟨6, "e", some "d"⟩]

/-- A cycle without a root. -/
def rootless : List ChainLink := [⟨0, "c", some "d"⟩, ⟨1, "d", some "c"⟩]

theorem orphans_counted_disordered :
    IsOnlyRoot disordered ⟨0, "r", none⟩ ∧ (ofLinks disordered).reachable = 2 ∧
      (ofLinks disordered).has .sanadOrphanedNode = true ∧
      (¬ ∃ root, IsOnlyRoot rootless root) ∧ (ofLinks rootless).reachable = 0 ∧
      (ofLinks rootless).has .sanadNoRoot = true ∧
      (ofLinks rootless).has .sanadCycleDetected = true := by
  have hroot : IsOnlyRoot disordered ⟨0, "r", none⟩ := isOnlyRoot_iff.mpr (by decide +kernel)
  have hnone : ¬ ∃ root, IsOnlyRoot rootless root := by
    rintro ⟨root, h⟩
    have hfilter := isOnlyRoot_iff.mp h
    have hnil : (firsts rootless).filter (·.parent.isNone) = [] := by decide +kernel
    rw [hnil] at hfilter
    cases hfilter
  have hno : (ofLinks rootless).has .sanadNoRoot = true := by decide +kernel
  obtain ⟨-, -, hhas⟩ := (orphans_counted disordered).1 _ hroot
  obtain ⟨-, hreachable⟩ := (orphans_counted rootless).2.1 hnone
  have hcycle := ((orphans_counted rootless).2.2 hno).resolve_left (by decide +kernel)
  exact ⟨hroot, by decide +kernel, hhas.mpr (.inl (by decide +kernel)), hnone, hreachable.2, hno,
    hcycle⟩

end Linkage
end Isnad
