import Isnad.Proofs.Chain.Search

/-!
# The analysis of a chain finds no issue exactly in trees

The issues come in five kinds, and each kind is absent under one condition of a tree
(`issues_ofLinks`). The graph of a chain has an edge where the chain names a parent, so what the
searches find on the graph is what following parents gives on the chain. Together: a chain that is
not empty is sound exactly if it is a tree (`isSound_iff_isTree`).
-/

namespace Isnad

open Lineage

namespace ChainLink

/-- A chain by the names of its nodes and of their parents. -/
def lineage (links : List ChainLink) : Lineage String := links.map fun l => (l.id, l.parent)

variable {links : List ChainLink}

theorem names_lineage : (lineage links).names = ids links := by
  simp [names, lineage, ids, Function.comp_def]

theorem mem_lineage {x : String} {p : Option String} :
    (x, p) ∈ lineage links ↔ ∃ l ∈ links, l.id = x ∧ l.parent = p := by
  simp [lineage]

/-! ## Repeated names -/

theorem splitFirsts_of_nodup {seen : List String} (hs : ∀ l ∈ links, l.id ∉ seen)
    (hn : (ids links).Nodup) : splitFirsts seen links = (links, []) := by
  induction links generalizing seen with
  | nil => rfl
  | cons l ls ih =>
    rw [ids, List.map_cons, List.nodup_cons] at hn
    have hl : l.id ∉ seen := hs l List.mem_cons_self
    have hrest : ∀ k ∈ ls, k.id ∉ l.id :: seen := by
      intro k hk hmem
      rcases List.mem_cons.mp hmem with heq | hmem
      · exact hn.1 (heq ▸ List.mem_map_of_mem hk)
      · exact hs k (List.mem_cons_of_mem _ hk) hmem
    rw [splitFirsts, if_neg (by simpa using hl)]
    simp [ih hrest hn.2]

theorem nodup_of_splitFirsts {seen : List String} (h : (splitFirsts seen links).2 = []) :
    (∀ l ∈ links, l.id ∉ seen) ∧ (ids links).Nodup := by
  induction links generalizing seen with
  | nil => exact ⟨by simp, List.nodup_nil⟩
  | cons l ls ih =>
    rw [splitFirsts] at h
    split at h
    · simp at h
    · rename_i hl
      obtain ⟨hs, hn⟩ := ih h
      refine ⟨fun k hk => ?_, List.nodup_cons.mpr ⟨fun hmem => ?_, hn⟩⟩
      · rcases List.mem_cons.mp hk with rfl | hk
        · simpa using hl
        · exact fun hmem => hs k hk (List.mem_cons_of_mem _ hmem)
      · obtain ⟨k, hk, heq⟩ := List.mem_map.mp hmem
        exact hs k hk (heq ▸ List.mem_cons_self)

theorem repeats_eq_nil_iff : repeats links = [] ↔ (ids links).Nodup :=
  ⟨fun h => (nodup_of_splitFirsts h).2,
    fun h => congrArg Prod.snd (splitFirsts_of_nodup (by simp) h)⟩

theorem firsts_of_nodup (h : (ids links).Nodup) : firsts links = links :=
  congrArg Prod.fst (splitFirsts_of_nodup (by simp) h)

/-! ## Parents and roots -/

theorem orphanReferences_eq_nil_iff :
    links.filterMap (orphanReference? (ids links)) = [] ↔
      ∀ p c, (lineage links).IsParent p c → p ∈ (lineage links).names := by
  rw [List.filterMap_eq_nil_iff, names_lineage]
  constructor
  · intro h p c hpc
    obtain ⟨l, hl, -, hp⟩ := mem_lineage.mp hpc
    by_contra hmem
    simpa [orphanReference?, hp, hmem] using h l hl
  · intro h l hl
    unfold orphanReference?
    cases hp : l.parent with
    | none => rfl
    | some p => simpa using h p l.id (mem_lineage.mpr ⟨l, hl, rfl, hp⟩)

theorem rootIssues_eq_nil_iff {roots : List ChainLink} (h : links ≠ []) :
    rootIssues links roots = [] ↔ ∃ r, roots = [r] := by
  match roots with
  | [] => simp [rootIssues, h]
  | [r] => simp [rootIssues]
  | r :: r' :: rs => simp [rootIssues]

/-- One link without a parent is one name without a parent, where names are not repeated. -/
theorem roots_eq_singleton_iff (hn : (ids links).Nodup) :
    (∃ r, links.filter (·.parent.isNone) = [r]) ↔ ∃! x, (x, none) ∈ lineage links := by
  have hmem : ∀ l, l ∈ links.filter (·.parent.isNone) ↔ l ∈ links ∧ l.parent = none := by
    intro l
    rw [List.mem_filter, Option.isNone_iff_eq_none]
  constructor
  · rintro ⟨r, hr⟩
    obtain ⟨hl, hp⟩ := (hmem r).mp (hr ▸ List.mem_singleton_self r)
    refine ⟨r.id, mem_lineage.mpr ⟨r, hl, rfl, hp⟩, fun x hx => ?_⟩
    obtain ⟨l, hl', rfl, hp'⟩ := mem_lineage.mp hx
    have hlr := hr ▸ (hmem l).mpr ⟨hl', hp'⟩
    rw [List.mem_singleton.mp hlr]
  · rintro ⟨x, hx, huniq⟩
    obtain ⟨r, hl, rfl, hp⟩ := mem_lineage.mp hx
    have hall : ∀ l ∈ links.filter (·.parent.isNone), l = r := by
      intro l hl'
      obtain ⟨hl', hp'⟩ := (hmem l).mp hl'
      exact List.inj_on_of_nodup_map hn hl' hl (huniq _ (mem_lineage.mpr ⟨l, hl', rfl, hp'⟩))
    have hnd : (links.filter (·.parent.isNone)).Nodup := (List.Nodup.of_map _ hn).filter _
    cases hf : links.filter (·.parent.isNone) with
    | nil => exact absurd (hf ▸ (hmem r).mpr ⟨hl, hp⟩) List.not_mem_nil
    | cons a as =>
      rw [hf] at hall hnd
      cases as with
      | nil => exact ⟨a, rfl⟩
      | cons b bs =>
        have hab : a = b := (hall a (by simp)).trans (hall b (by simp)).symm
        simp [hab] at hnd

end ChainLink

namespace ChainGraph

variable {links : List ChainLink}

/-! ## Edges of the graph and parents in the chain -/

theorem isChild_ofLinks {i j : Nat} :
    (ofLinks links).IsChild i j ↔
      ∃ p c, links[i]? = some p ∧ links[j]? = some c ∧ c.parent = some p.id := by
  unfold IsChild childrenOf
  cases hp : links[i]? with
  | none => simp [ofLinks, List.getD_eq_getElem?_getD, hp]
  | some p =>
    simp only [ofLinks, List.getD_eq_getElem?_getD, List.getElem?_map, hp, Option.map_some,
      Option.getD_some, List.mem_reverse, List.mem_filterMap, List.mem_mapIdx,
      Option.ite_none_right_eq_some, Option.some.injEq]
    constructor
    · rintro ⟨-, ⟨k, hk, rfl⟩, hpar, rfl⟩
      exact ⟨p, links[k], rfl, List.getElem?_eq_getElem hk, hpar⟩
    · rintro ⟨q, c, rfl, hc, hpar⟩
      obtain ⟨hj, rfl⟩ := List.getElem?_eq_some_iff.mp hc
      exact ⟨_, ⟨j, hj, rfl⟩, hpar, rfl⟩

/-- The name of the link at an index. -/
def nameAt (links : List ChainLink) (i : Nat) : String := (links[i]?.map (·.id)).getD ""

theorem nameAt_eq {i : Nat} {l : ChainLink} (h : links[i]? = some l) : nameAt links i = l.id := by
  simp [nameAt, h]

theorem isParent_of_isChild {i j : Nat} (h : (ofLinks links).IsChild i j) :
    (ChainLink.lineage links).IsParent (nameAt links i) (nameAt links j) := by
  obtain ⟨p, c, hp, hc, hpar⟩ := isChild_ofLinks.mp h
  rw [nameAt_eq hp, nameAt_eq hc]
  exact ChainLink.mem_lineage.mpr ⟨c, List.mem_of_getElem? hc, rfl, hpar⟩

theorem acyclic_ofLinks (h : ∀ x, ¬ Relation.TransGen (ChainLink.lineage links).IsParent x x)
    (i : Nat) : ¬ Relation.TransGen (ofLinks links).IsChild i i :=
  fun hc => h _ (hc.lift (nameAt links) fun _ _ => isParent_of_isChild)

/-- Following children from a link is following parents to its name. -/
theorem reaches_iff_descends (hn : (ChainLink.ids links).Nodup) {i j : Nat} {p c : ChainLink}
    (hp : links[i]? = some p) (hc : links[j]? = some c) :
    Relation.ReflTransGen (ofLinks links).IsChild i j ↔
      (ChainLink.lineage links).Descends p.id c.id := by
  constructor
  · intro h
    have hd : (ChainLink.lineage links).Descends (nameAt links i) (nameAt links j) :=
      h.lift (nameAt links) fun _ _ => isParent_of_isChild
    rwa [nameAt_eq hp, nameAt_eq hc] at hd
  · intro h
    suffices hall : ∀ x, (ChainLink.lineage links).Descends p.id x → ∀ k d, links[k]? = some d →
        d.id = x → Relation.ReflTransGen (ofLinks links).IsChild i k from hall _ h j c hc rfl
    intro x hx
    induction hx with
    | refl =>
      intro k d hd hdp
      have hki : k = i := by
        obtain ⟨hk, rfl⟩ := List.getElem?_eq_some_iff.mp hd
        obtain ⟨hi, rfl⟩ := List.getElem?_eq_some_iff.mp hp
        have hlen : (ChainLink.ids links).length = links.length := List.length_map _
        have hget : (ChainLink.ids links).get ⟨k, hlen ▸ hk⟩ =
            (ChainLink.ids links).get ⟨i, hlen ▸ hi⟩ := by
          simpa [ChainLink.ids] using hdp
        exact (List.Nodup.getElem_inj_iff hn).mp hget
      exact hki ▸ .refl
    | @tail y z hpy hyz ih =>
      intro k d hd hdz
      obtain ⟨e, he, rfl, hpar⟩ := ChainLink.mem_lineage.mp hyz
      have hed : e = d :=
        List.inj_on_of_nodup_map hn he (List.mem_of_getElem? hd) hdz.symm
      subst hed
      have hy : y ∈ (ChainLink.lineage links).names := by
        rcases Relation.ReflTransGen.cases_tail hpy with rfl | ⟨w, -, hw⟩
        · rw [ChainLink.names_lineage]
          exact List.mem_map_of_mem (List.mem_of_getElem? hp)
        · exact hw.child_mem
      rw [ChainLink.names_lineage] at hy
      obtain ⟨b, hb, rfl⟩ := List.mem_map.mp hy
      obtain ⟨m, hm⟩ := List.mem_iff_getElem?.mp hb
      exact .tail (ih m b hm rfl) (isChild_ofLinks.mpr ⟨b, e, hm, hd, hpar⟩)

end ChainGraph

namespace Linkage

open ChainLink

variable {links : List ChainLink}

/-- The issues of the nodes that the root does not reach, if there is a single root. -/
def orphanedIssues (nodes : List ChainLink) : List Issue :=
  match nodes.filter (·.parent.isNone) with
  | [root] =>
    let reached := (ChainGraph.ofLinks nodes).descendants (nodes.idxOf root)
    (nodes.mapIdx fun i l => (i, l)).filterMap fun (i, l) =>
      if reached.contains i then none else some (orphanedIssue root l)
  | _ => []

theorem issues_ofLinks :
    (ofLinks links).issues = (repeats links).map duplicateIssue ++
      (firsts links).filterMap (orphanReference? (ids (firsts links))) ++
      rootIssues (firsts links) ((firsts links).filter (·.parent.isNone)) ++
      (ChainGraph.ofLinks (firsts links)).cycles.filterMap
        (ChainGraph.ofLinks (firsts links)).cycleIssue? ++
      orphanedIssues (firsts links) := by
  unfold ofLinks orphanedIssues
  dsimp only
  generalize (firsts links).filter (·.parent.isNone) = roots
  rcases roots with _ | ⟨root, _ | ⟨root', roots⟩⟩
  · exact (List.append_nil _).symm
  · rfl
  · exact (List.append_nil _).symm

theorem orphanedIssues_eq_nil_iff (hn : (ids links).Nodup) {root : ChainLink}
    (hr : links.filter (·.parent.isNone) = [root]) :
    orphanedIssues links = [] ↔
      ∀ x ∈ (lineage links).names, (lineage links).Descends root.id x := by
  have hroot : root ∈ links := (List.mem_filter.mp (hr ▸ List.mem_singleton_self root)).1
  have hidx : links[links.idxOf root]? = some root := List.getElem?_idxOf hroot
  rw [orphanedIssues, hr, List.filterMap_eq_nil_iff, names_lineage]
  simp only [List.mem_mapIdx, ids, List.mem_map, ite_eq_left_iff, reduceCtorEq, imp_false,
    not_not, List.contains_iff_mem, ChainGraph.mem_descendants_iff]
  constructor
  · rintro h - ⟨l, hl, rfl⟩
    obtain ⟨j, hj⟩ := List.mem_iff_getElem?.mp hl
    obtain ⟨hlt, rfl⟩ := List.getElem?_eq_some_iff.mp hj
    exact (ChainGraph.reaches_iff_descends hn hidx hj).mp (h _ ⟨j, hlt, rfl⟩)
  · rintro h - ⟨j, hlt, rfl⟩
    have hj : links[j]? = some links[j] := List.getElem?_eq_getElem hlt
    exact (ChainGraph.reaches_iff_descends hn hidx hj).mpr (h _ ⟨_, List.getElem_mem hlt, rfl⟩)

/-- A chain that is not empty is sound exactly if it is a tree. -/
theorem isSound_iff_isTree (h : links ≠ []) :
    (ofLinks links).isSound = true ↔ (lineage links).IsTree := by
  rw [isSound, List.isEmpty_iff, issues_ofLinks]
  simp only [List.append_eq_nil_iff, List.map_eq_nil_iff]
  constructor
  · rintro ⟨⟨⟨⟨hdup, horphan⟩, hroots⟩, -⟩, hreach⟩
    have hn := repeats_eq_nil_iff.mp hdup
    rw [firsts_of_nodup hn] at horphan hroots hreach
    obtain ⟨root, hr⟩ := (rootIssues_eq_nil_iff h).mp hroots
    have hrooted := (roots_eq_singleton_iff hn).mp ⟨root, hr⟩
    refine ⟨names_lineage ▸ hn, orphanReferences_eq_nil_iff.mp horphan, hrooted, ?_⟩
    intro r hmem
    have hroot := List.mem_filter.mp (hr ▸ List.mem_singleton_self root)
    have hmem' : (root.id, none) ∈ lineage links :=
      mem_lineage.mpr ⟨root, hroot.1, rfl, Option.isNone_iff_eq_none.mp hroot.2⟩
    rw [hrooted.unique hmem hmem']
    exact (orphanedIssues_eq_nil_iff hn hr).mp hreach
  · intro ht
    have hn : (ids links).Nodup := names_lineage ▸ ht.distinct
    obtain ⟨root, hr⟩ := (roots_eq_singleton_iff hn).mpr ht.rooted
    have hroot := List.mem_filter.mp (hr ▸ List.mem_singleton_self root)
    have hmem : (root.id, none) ∈ lineage links :=
      mem_lineage.mpr ⟨root, hroot.1, rfl, Option.isNone_iff_eq_none.mp hroot.2⟩
    have hcycles : (ChainGraph.ofLinks links).cycles = [] :=
      ChainGraph.cycles_eq_nil (ChainGraph.acyclic_ofLinks ht.acyclic)
    rw [firsts_of_nodup hn, hcycles]
    refine ⟨⟨⟨⟨repeats_eq_nil_iff.mpr hn, orphanReferences_eq_nil_iff.mpr ht.closed⟩, ?_⟩, rfl⟩, ?_⟩
    · exact (rootIssues_eq_nil_iff h).mpr ⟨root, hr⟩
    · exact (orphanedIssues_eq_nil_iff hn hr).mpr (ht.connected _ hmem)

/-- An empty chain has no issue. -/
theorem isSound_nil : (ofLinks []).isSound = true := rfl

end Linkage
end Isnad
