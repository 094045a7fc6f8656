import Isnad.Proofs.Chain.Orphans
import Mathlib.Combinatorics.Enumerative.DoubleCounting

/-!
# The order of a chain

The analysis goes by places, so its words depend on the order of the links. What it counts does not:
where no name is repeated, the graph of a chain embeds into that of any chain that has the same
names with the same parents (`embeds_ofLinks`), and an embedding loses no cycle and nothing that is
reached. So the order of the links does not change the codes of the issues (`codes_ofLinks`).
-/

namespace Isnad

open Relation

namespace ChainGraph

/-! ## Embeddings -/

/-- Nodes are taken to nodes of another graph, no two to one, and children to children. -/
structure Embeds (g g' : ChainGraph) (f : Nat → Nat) : Prop where
  child : ∀ i j, g.IsChild i j → g'.IsChild (f i) (f j)
  inj : ∀ i < g.size, ∀ j < g.size, f i = f j → i = j

namespace Embeds

variable {g g' : ChainGraph} {f : Nat → Nat}

/-- Of two loops that are taken into one, the first has what the second starts with. -/
theorem mem_of_taken (h : Embeds g g' f) (hg : g.SingleParents) (hg' : g'.SingleParents)
    {a b d : Nat} {c e k : List Nat} (hac : IsLoop g.IsChild a c) (hbe : IsLoop g.IsChild b e)
    (hdk : IsLoop g'.IsChild d k) (ha : f a ∈ d :: k) (hb : f b ∈ d :: k) : b ∈ a :: c := by
  have hinj (i : Nat) (hi : i ∈ a :: c) (j : Nat) (hj : j ∈ a :: c) (hij : f i = f j) : i = j :=
    h.inj i (hg.lt_of_isLoop hac hi) j (hg.lt_of_isLoop hac hj) hij
  have htaken : IsLoop g'.IsChild (f a) (c.map f) := hac.map h.child hinj
  have hreach : ReflTransGen g'.IsChild (f b) (f a) :=
    ((hdk.reaches_first hb).trans (hdk.reaches ha)).to_reflTransGen
  have hmem : f b ∈ (a :: c).map f := htaken.mem_of_reaches hg'.unique hreach List.mem_cons_self
  obtain ⟨i, hi, heq⟩ := List.mem_map.mp hmem
  rwa [← h.inj i (hg.lt_of_isLoop hac hi) b (hg.lt_of_isLoop hbe List.mem_cons_self) heq]

/-- No cycle is lost. -/
theorem length_cycles_le (h : Embeds g g' f) (hg : g.SingleParents) (hg' : g'.SingleParents) :
    g.cycles.length ≤ g'.cycles.length := by
  obtain ⟨cs, hcs, hmem, hpairwise⟩ := exists_cycles_eq hg
  obtain ⟨cs', hcs', hmem', hpairwise'⟩ := exists_cycles_eq hg'
  have hnodup : cs.Nodup := hpairwise.imp fun hlt => ne_of_apply_ne Prod.fst hlt.ne
  have hnodup' : cs'.Nodup := hpairwise'.imp fun hlt => ne_of_apply_ne Prod.fst hlt.ne
  rw [hcs, hcs', List.length_map, List.length_map, ← List.toFinset_card_of_nodup hnodup,
    ← List.toFinset_card_of_nodup hnodup']
  refine Finset.card_le_card_of_forall_subsingleton (fun x y => f x.1 ∈ y.1 :: y.2) ?_ ?_
  · intro x hx
    have hloop := ((hmem x).mp (List.mem_toFinset.mp hx)).isLoop
    have hcyclic : TransGen g'.IsChild (f x.1) (f x.1) :=
      (hloop.reaches List.mem_cons_self).lift f h.child
    obtain ⟨d, k, hdk, hx⟩ := exists_isCycleFrom hg' hcyclic
    exact ⟨(d, k), List.mem_toFinset.mpr ((hmem' (d, k)).mpr hdk), hx⟩
  · rintro z hz x ⟨hx, hxz⟩ y ⟨hy, hyz⟩
    have hcx := (hmem x).mp (List.mem_toFinset.mp hx)
    have hcy := (hmem y).mp (List.mem_toFinset.mp hy)
    have hcz := ((hmem' z).mp (List.mem_toFinset.mp hz)).isLoop
    -- Each starts with its least node, and has that of the other.
    have hfirst : x.1 = y.1 := by
      have hle {a b : Nat} {c : List Nat} (hc : g.IsCycleFrom a c) (hb : b ∈ a :: c) : a ≤ b := by
        rcases List.mem_cons.mp hb with rfl | hb
        · exact Nat.le_refl _
        · exact (hc.least b hb).le
      exact Nat.le_antisymm (hle hcx (h.mem_of_taken hg hg' hcx.isLoop hcy.isLoop hcz hxz hyz))
        (hle hcy (h.mem_of_taken hg hg' hcy.isLoop hcx.isLoop hcz hyz hxz))
    exact Prod.ext hfirst ((hfirst ▸ hcx.isLoop).eq hcy.isLoop hg.unique)

/-- Nothing that is reached is lost. -/
theorem length_descendants_le (h : Embeds g g' f) (hg : g.SingleParents) {i : Nat}
    (hi : i < g.size) : (g.descendants i).length ≤ (g'.descendants (f i)).length := by
  have hlt (j : Nat) (hj : j ∈ g.descendants i) : j < g.size := by
    rcases ReflTransGen.cases_tail (mem_descendants_iff.mp hj) with rfl | ⟨k, -, hkj⟩
    · exact hi
    · exact (hg.lt k j hkj).2
  have hnodup : ((g.descendants i).map f).Nodup :=
    (descendants_nodup i).map_on fun j hj k hk => h.inj j (hlt j hj) k (hlt k hk)
  have hsubset : (g.descendants i).map f ⊆ g'.descendants (f i) := by
    intro k hk
    obtain ⟨j, hj, rfl⟩ := List.mem_map.mp hk
    exact mem_descendants_iff.mpr ((mem_descendants_iff.mp hj).lift f h.child)
  rw [← List.length_map f]
  exact (hnodup.subperm hsubset).length_le

end Embeds

/-! ## Chains with the same names and parents -/

open ChainLink

variable {links links' : List ChainLink} {l root root' : ChainLink}

theorem singleParents_of_nodup (hn : (ids links).Nodup) : (ofLinks links).SingleParents := by
  have h := singleParents_ofLinks links
  rwa [firsts_of_nodup hn] at h

theorem idxOf_id (hn : (ids links).Nodup) (hl : l ∈ links) :
    (ids links).idxOf l.id = links.idxOf l := by
  have hlt : links.idxOf l < (ids links).length :=
    (List.idxOf_lt_length_iff.mpr hl).trans_eq (List.length_map _).symm
  have hid : (ids links)[links.idxOf l] = l.id := by
    simp only [ids, List.getElem_map, List.getElem_idxOf]
  rw [← hid, hn.idxOf_getElem]

theorem getElem?_idxOf_id (hn : (ids links).Nodup) (hl : l ∈ links) :
    links[(ids links).idxOf l.id]? = some l := by
  rw [idxOf_id hn hl, List.getElem?_idxOf hl]

theorem idxOf_nameAt (hn : (ids links).Nodup) {i : Nat} (hi : i < links.length) :
    (ids links).idxOf (nameAt links i) = i := by
  rw [nameAt_eq (List.getElem?_eq_getElem hi), idxOf_id hn (List.getElem_mem hi)]
  exact (hn.of_map _).idxOf_getElem i hi

/-- Where the link at a place stands in another chain. -/
def placeIn (links links' : List ChainLink) (i : Nat) : Nat := (ids links').idxOf (nameAt links i)

theorem placeIn_idxOf (hn : (ids links').Nodup) (hroot : root ∈ links) (hroot' : root' ∈ links')
    (h : root'.id = root.id) : placeIn links links' (links.idxOf root) = links'.idxOf root' := by
  rw [placeIn, nameAt_eq (List.getElem?_idxOf hroot), ← h, idxOf_id hn hroot']

/-- A chain embeds into any that has its names with the same parents. -/
theorem embeds_ofLinks (hn : (ids links).Nodup) (hn' : (ids links').Nodup)
    (h : lineage links ⊆ lineage links') :
    Embeds (ofLinks links) (ofLinks links') (placeIn links links') where
  child i j hij := by
    obtain ⟨p, c, hp, hc, hpc⟩ := isChild_ofLinks.mp hij
    obtain ⟨c', hc', hcid, hcparent⟩ :=
      mem_lineage.mp (h (mem_lineage.mpr ⟨c, List.mem_of_getElem? hc, rfl, rfl⟩))
    obtain ⟨p', hp', hpid, -⟩ :=
      mem_lineage.mp (h (mem_lineage.mpr ⟨p, List.mem_of_getElem? hp, rfl, rfl⟩))
    rw [placeIn, placeIn, nameAt_eq hp, nameAt_eq hc, ← hpid, ← hcid]
    refine isChild_ofLinks.mpr ⟨p', c', getElem?_idxOf_id hn' hp', getElem?_idxOf_id hn' hc', ?_⟩
    rw [hcparent, hpc, hpid]
  inj i (hi : i < links.length) j (hj : j < links.length) hij := by
    have hmem : nameAt links i ∈ ids links' := by
      rw [nameAt_eq (List.getElem?_eq_getElem hi), ← names_lineage]
      exact Lineage.mem_names (h (mem_lineage.mpr ⟨_, List.getElem_mem hi, rfl, rfl⟩))
    rw [← idxOf_nameAt hn hi, (List.idxOf_inj hmem).mp hij, idxOf_nameAt hn hj]

end ChainGraph

namespace Linkage

open ChainLink

variable {links links' : List ChainLink}

/-! ## What is counted -/

theorem length_cycleIssues (links : List ChainLink) :
    ((ChainGraph.ofLinks (firsts links)).cycles.filterMap
      (ChainGraph.ofLinks (firsts links)).cycleIssue?).length =
        (ChainGraph.ofLinks (firsts links)).cycles.length := by
  obtain ⟨cs, hcs, hmem, -⟩ :=
    ChainGraph.exists_cycles_eq (ChainGraph.singleParents_ofLinks links)
  have hsome : cs.filterMap ((ChainGraph.ofLinks (firsts links)).cycleIssue? ∘
      fun x => x.1 :: (x.2 ++ [x.1])) = cs.map fun x =>
        cycleIssue (linksAt links x).1 (linksAt links x).2 := by
    rw [← List.filterMap_eq_map]
    exact List.filterMap_congr fun x hx =>
      ChainGraph.cycleIssue?_of_isLoop ((hmem x).mp hx).isLoop
  rw [hcs, List.filterMap_map, hsome, List.length_map, List.length_map]

theorem length_orphanReferences (links : List ChainLink) :
    (links.filterMap (orphanReference? (ids links))).length =
      (lineage links).countP fun e => e.2.any fun p => !(lineage links).names.contains p := by
  rw [List.length_filterMap_eq_countP, lineage, List.countP_map]
  refine List.countP_congr fun l _ => ?_
  have hnames : Lineage.names (links.map fun l => (l.id, l.parent)) = ids links := names_lineage
  simp only [Function.comp_apply, hnames]
  unfold orphanReference?
  cases l.parent with
  | none => rfl
  | some p => cases (ids links).contains p <;> simp

theorem length_roots (links : List ChainLink) :
    (links.filter (·.parent.isNone)).length = (lineage links).countP (·.2.isNone) := by
  rw [← List.countP_eq_length_filter, lineage, List.countP_map]
  rfl

theorem codes_rootIssues_congr {nodes nodes' roots roots' : List ChainLink}
    (hnodes : nodes'.length = nodes.length) (hroots : roots'.length = roots.length) :
    (rootIssues nodes' roots').map (·.code) = (rootIssues nodes roots).map (·.code) := by
  have hempty : nodes'.isEmpty = nodes.isEmpty := by
    rw [Bool.eq_iff_iff, List.isEmpty_iff_length_eq_zero, List.isEmpty_iff_length_eq_zero, hnodes]
  rcases roots with _ | ⟨r, _ | ⟨s, roots⟩⟩ <;> rcases roots' with _ | ⟨r', _ | ⟨s', roots'⟩⟩ <;>
    simp [rootIssues, hempty] at hroots ⊢

theorem length_orphanedIssues_add {root : ChainLink} (h : IsOnlyRoot links root) :
    (reached links root).length + (orphanedIssues (firsts links)).length =
      (firsts links).length := by
  rw [orphanedIssues_firsts h, List.length_map, length_reached_add h.isFirst]

theorem reached_length_le (hn : (ids links).Nodup) (hn' : (ids links').Nodup)
    (h : lineage links ⊆ lineage links') {root root' : ChainLink} (hroot : root ∈ links)
    (hroot' : root' ∈ links') (hid : root'.id = root.id) :
    (reached links root).length ≤ (reached links' root').length := by
  have hlt : links.idxOf root < (ChainGraph.ofLinks links).size :=
    List.idxOf_lt_length_iff.mpr hroot
  have hle := (ChainGraph.embeds_ofLinks hn hn' h).length_descendants_le
    (ChainGraph.singleParents_of_nodup hn) hlt
  rwa [ChainGraph.placeIn_idxOf hn' hroot hroot' hid, ← firsts_of_nodup hn,
    ← firsts_of_nodup hn'] at hle

section Reordered

variable (hn : (ids links).Nodup) (h : (lineage links').Perm (lineage links))
include h

theorem length_of_perm : links'.length = links.length := by
  have hlength := h.length_eq
  rwa [lineage, lineage, List.length_map, List.length_map] at hlength

theorem length_roots_of_perm : (links'.filter (·.parent.isNone)).length =
    (links.filter (·.parent.isNone)).length := by
  rw [length_roots, length_roots, h.countP_eq]

theorem length_orphanReferences_of_perm :
    (links'.filterMap (orphanReference? (ids links'))).length =
      (links.filterMap (orphanReference? (ids links))).length := by
  have hnames : (lineage links').names.Perm (lineage links).names := h.map _
  rw [length_orphanReferences, length_orphanReferences, h.countP_eq]
  refine List.countP_congr fun e _ => ?_
  simp only [List.contains_eq_mem, hnames.mem_iff]

include hn

theorem nodup_of_perm : (ids links').Nodup := by
  rw [← names_lineage] at hn ⊢
  exact (h.map _).nodup_iff.mpr hn

theorem length_cycles_of_perm : (ChainGraph.ofLinks links').cycles.length =
    (ChainGraph.ofLinks links).cycles.length := by
  have hn' := nodup_of_perm hn h
  have hg := ChainGraph.singleParents_of_nodup hn
  have hg' := ChainGraph.singleParents_of_nodup hn'
  exact Nat.le_antisymm ((ChainGraph.embeds_ofLinks hn' hn h.subset).length_cycles_le hg' hg)
    ((ChainGraph.embeds_ofLinks hn hn' h.symm.subset).length_cycles_le hg hg')

theorem exists_isOnlyRoot_of_perm {root : ChainLink} (hroot : IsOnlyRoot links root) :
    ∃ root', IsOnlyRoot links' root' ∧ root'.id = root.id := by
  have hn' := nodup_of_perm hn h
  have hlength := length_roots_of_perm h
  obtain ⟨root', hmem, hid, hparent⟩ := mem_lineage.mp
    (h.symm.subset (mem_lineage.mpr ⟨root, hroot.isFirst.mem, rfl, hroot.parent⟩))
  refine ⟨root', isOnlyRoot_iff.mpr ?_, hid⟩
  have hroots := isOnlyRoot_iff.mp hroot
  rw [firsts_of_nodup hn] at hroots
  rw [firsts_of_nodup hn']
  rw [hroots, List.length_singleton, List.length_eq_one_iff] at hlength
  obtain ⟨r, hr⟩ := hlength
  have hrmem : root' ∈ links'.filter (·.parent.isNone) :=
    List.mem_filter.mpr ⟨hmem, Option.isNone_iff_eq_none.mpr hparent⟩
  rw [hr, List.mem_singleton] at hrmem
  rw [hr, hrmem]

theorem length_orphanedIssues_of_perm :
    (orphanedIssues (firsts links')).length = (orphanedIssues (firsts links)).length := by
  have hn' := nodup_of_perm hn h
  by_cases hex : ∃ root, IsOnlyRoot links root
  · obtain ⟨root, hroot⟩ := hex
    obtain ⟨root', hroot', hid⟩ := exists_isOnlyRoot_of_perm hn h hroot
    have hreached : (reached links' root').length = (reached links root).length :=
      Nat.le_antisymm
        (reached_length_le hn' hn h.subset hroot'.isFirst.mem hroot.isFirst.mem hid.symm)
        (reached_length_le hn hn' h.symm.subset hroot.isFirst.mem hroot'.isFirst.mem hid)
    have hadd := length_orphanedIssues_add hroot
    have hadd' := length_orphanedIssues_add hroot'
    rw [firsts_of_nodup hn] at hadd
    rw [firsts_of_nodup hn', length_of_perm h] at hadd'
    rw [firsts_of_nodup hn, firsts_of_nodup hn']
    omega
  · have hex' : ¬ ∃ root, IsOnlyRoot links' root := by
      rintro ⟨root', hroot'⟩
      obtain ⟨root, hroot, -⟩ := exists_isOnlyRoot_of_perm hn' h.symm hroot'
      exact hex ⟨root, hroot⟩
    rw [(ofLinks_of_not_isOnlyRoot hex).1, (ofLinks_of_not_isOnlyRoot hex').1]

/-- The codes of the issues of links do not depend on the order of the links. -/
theorem codes_ofLinks :
    (ofLinks links').issues.map (·.code) = (ofLinks links).issues.map (·.code) := by
  have hn' := nodup_of_perm hn h
  have hpart {is is' : List Issue} {c : IssueCode} (hc : ∀ i ∈ is, i.code = c)
      (hc' : ∀ i ∈ is', i.code = c) (hlength : is'.length = is.length) :
      is'.map (·.code) = is.map (·.code) := by
    rw [List.map_eq_replicate_iff.mpr hc, List.map_eq_replicate_iff.mpr hc', hlength]
  rw [issues_ofLinks, issues_ofLinks, repeats_eq_nil_iff.mpr hn, repeats_eq_nil_iff.mpr hn']
  simp only [List.map_append]
  congr 1
  · congr 1
    · congr 1
      · congr 1
        refine hpart (fun _ => code_of_mem_orphanReferences)
          (fun _ => code_of_mem_orphanReferences) ?_
        rw [firsts_of_nodup hn, firsts_of_nodup hn']
        exact length_orphanReferences_of_perm h
      · rw [firsts_of_nodup hn, firsts_of_nodup hn']
        exact codes_rootIssues_congr (length_of_perm h) (length_roots_of_perm h)
    · refine hpart (fun _ => code_of_mem_cycleIssues) (fun _ => code_of_mem_cycleIssues) ?_
      rw [length_cycleIssues, length_cycleIssues, firsts_of_nodup hn, firsts_of_nodup hn']
      exact length_cycles_of_perm hn h
  · exact hpart (fun _ => code_of_mem_orphanedIssues) (fun _ => code_of_mem_orphanedIssues)
      (length_orphanedIssues_of_perm hn h)

end Reordered

end Linkage
end Isnad
