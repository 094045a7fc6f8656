import Isnad.Proofs.Chain.Linkage

/-!
# Rooted chains

A chain is rooted at a link if its names are not repeated, every parent it names is the name of a
link, that link alone has no parent, and following parents leads to it from everywhere. The
analysis of links finds no issue exactly in these chains and in the empty one, and it then counts
every link once (`ofLinks_rooted`).
-/

namespace Isnad

open Lineage

namespace ChainLink

variable {links : List ChainLink} {root c p : ChainLink}

/-- Following parents leads from `c` to `p` in one step. -/
def Leads (links : List ChainLink) (c p : ChainLink) : Prop :=
  c ∈ links ∧ p ∈ links ∧ c.parent = some p.id

/-- From everywhere in the chain, parents lead to a link that has none. -/
structure IsRootedAt (links : List ChainLink) (root : ChainLink) : Prop where
  distinct : (ids links).Nodup
  closed : ∀ c ∈ links, ∀ name, c.parent = some name → name ∈ ids links
  only : ∀ l, l ∈ links ∧ l.parent = none ↔ l = root
  reaches : ∀ c ∈ links, Relation.ReflTransGen (Leads links) c root

theorem IsRootedAt.root_mem (h : IsRootedAt links root) : root ∈ links := ((h.only root).mpr rfl).1

theorem IsRootedAt.root_parent (h : IsRootedAt links root) : root.parent = none :=
  ((h.only root).mpr rfl).2

/-! ## Rooted chains are trees by their names -/

theorem Leads.isParent (h : Leads links c p) : (lineage links).IsParent p.id c.id :=
  mem_lineage.mpr ⟨c, h.1, rfl, h.2.2⟩

theorem descends_of_leads (h : Relation.ReflTransGen (Leads links) c p) :
    (lineage links).Descends p.id c.id := by
  induction h using Relation.ReflTransGen.head_induction_on with
  | refl => exact .refl
  | head hcd _ ih => exact .tail ih hcd.isParent

theorem leads_of_descends (hn : (ids links).Nodup)
    (hclosed : ∀ q d, (lineage links).IsParent q d → q ∈ (lineage links).names)
    (hp : p ∈ links) {x : String} (h : (lineage links).Descends p.id x) :
    ∀ c ∈ links, c.id = x → Relation.ReflTransGen (Leads links) c p := by
  induction h with
  | refl =>
    intro c hc hcp
    rw [List.inj_on_of_nodup_map hn hc hp hcp]
  | @tail y z _ hyz ih =>
    intro c hc hcz
    obtain ⟨e, he, hez, hpar⟩ := mem_lineage.mp hyz
    obtain rfl : e = c := List.inj_on_of_nodup_map hn he hc (hez.trans hcz.symm)
    have hy := hclosed y z hyz
    rw [names_lineage] at hy
    obtain ⟨b, hb, rfl⟩ := List.mem_map.mp hy
    exact .head ⟨he, hb, hpar⟩ (ih b hb rfl)

theorem isTree_lineage_iff : (lineage links).IsTree ↔ ∃ root, IsRootedAt links root := by
  constructor
  · intro h
    have hn : (ids links).Nodup := names_lineage ▸ h.distinct
    obtain ⟨x, hx, huniq⟩ := h.rooted
    obtain ⟨root, hroot, rfl, hnone⟩ := mem_lineage.mp hx
    refine ⟨root, hn, fun c hc name hname => ?_, fun l => ⟨?_, ?_⟩, fun c hc => ?_⟩
    · rw [← names_lineage]
      exact h.closed _ _ (mem_lineage.mpr ⟨c, hc, rfl, hname⟩)
    · rintro ⟨hl, hlnone⟩
      have hid := huniq _ (mem_lineage.mpr ⟨l, hl, rfl, hlnone⟩)
      exact List.inj_on_of_nodup_map hn hl hroot hid
    · rintro rfl
      exact ⟨hroot, hnone⟩
    · have hdesc := h.connected _ hx c.id (names_lineage ▸ List.mem_map_of_mem hc)
      exact leads_of_descends hn h.closed hroot hdesc c hc rfl
  · rintro ⟨root, h⟩
    have hroot : (root.id, none) ∈ lineage links :=
      mem_lineage.mpr ⟨root, h.root_mem, rfl, h.root_parent⟩
    refine ⟨names_lineage ▸ h.distinct, fun q d hqd => ?_, ⟨root.id, hroot, fun x hx => ?_⟩,
      fun r hr x hx => ?_⟩
    · obtain ⟨c, hc, -, hpar⟩ := mem_lineage.mp hqd
      rw [names_lineage]
      exact h.closed c hc q hpar
    · obtain ⟨l, hl, rfl, hnone⟩ := mem_lineage.mp hx
      rw [(h.only l).mp ⟨hl, hnone⟩]
    · obtain ⟨l, hl, rfl, hnone⟩ := mem_lineage.mp hr
      rw [names_lineage] at hx
      obtain ⟨c, hc, rfl⟩ := List.mem_map.mp hx
      rw [(h.only l).mp ⟨hl, hnone⟩]
      exact descends_of_leads (h.reaches c hc)

end ChainLink

namespace ChainGraph

variable {links : List ChainLink}

/-- What descends from a link of a chain is a link of the chain. -/
theorem lt_of_reaches {i j : Nat} (hi : i < links.length)
    (h : Relation.ReflTransGen (ofLinks links).IsChild i j) : j < links.length := by
  rcases Relation.ReflTransGen.cases_tail h with rfl | ⟨k, -, hkj⟩
  · exact hi
  · obtain ⟨-, c, -, hc, -⟩ := isChild_ofLinks.mp hkj
    exact (List.getElem?_eq_some_iff.mp hc).1

/-- From the root of a chain every link is found once. -/
theorem length_descendants {root : ChainLink} (h : ChainLink.IsRootedAt links root) :
    ((ofLinks links).descendants (links.idxOf root)).length = links.length := by
  have hidx : links[links.idxOf root]? = some root := List.getElem?_idxOf h.root_mem
  have hmem : ∀ j, j ∈ (ofLinks links).descendants (links.idxOf root) ↔
      j ∈ List.range links.length := by
    intro j
    rw [mem_descendants_iff, List.mem_range]
    constructor
    · exact lt_of_reaches (List.idxOf_lt_length_iff.mpr h.root_mem)
    · intro hj
      refine (reaches_iff_descends h.distinct hidx (List.getElem?_eq_getElem hj)).mpr ?_
      exact ChainLink.descends_of_leads (h.reaches _ (List.getElem_mem hj))
  have hperm := (List.perm_ext_iff_of_nodup (descendants_nodup _) List.nodup_range).mpr hmem
  rw [hperm.length_eq, List.length_range]

end ChainGraph

namespace Linkage

open ChainLink

variable {links : List ChainLink}

/-- What the analysis says of a chain with a single root, if no name is repeated. -/
theorem ofLinks_of_root {root : ChainLink} (hn : (ids links).Nodup)
    (hr : links.filter (·.parent.isNone) = [root]) :
    (ofLinks links).root = some root.id ∧ (ofLinks links).reachable =
      ((ChainGraph.ofLinks links).descendants (links.idxOf root)).length := by
  rw [ofLinks, firsts_of_nodup hn]
  simp only [hr, and_self]

theorem filter_of_isRootedAt {root : ChainLink} (h : IsRootedAt links root) :
    links.filter (·.parent.isNone) = [root] := by
  obtain ⟨r, hr⟩ :=
    (roots_eq_singleton_iff h.distinct).mpr (isTree_lineage_iff.mpr ⟨root, h⟩).rooted
  obtain ⟨hmem, hnone⟩ := List.mem_filter.mp (hr ▸ List.mem_singleton_self r)
  rw [hr, (h.only r).mp ⟨hmem, Option.isNone_iff_eq_none.mp hnone⟩]

/-- A chain has no issue exactly if it is empty or rooted at one of its links. That link is then the
root, and all links are reached. -/
theorem ofLinks_rooted (links : List ChainLink) :
    ((ofLinks links).issues = [] ↔ links = [] ∨ ∃ root, IsRootedAt links root) ∧
      (∀ root, IsRootedAt links root →
        (ofLinks links).root = some root.id ∧ (ofLinks links).reachable = links.length) ∧
      ofLinks [] = ⟨none, 0, []⟩ := by
  refine ⟨?_, fun root h => ?_, rfl⟩
  · by_cases hne : links = []
    · subst hne
      exact iff_of_true rfl (.inl rfl)
    · rw [or_iff_right hne, ← isTree_lineage_iff, ← isSound_iff_isTree hne, isSound,
        List.isEmpty_iff]
  · obtain ⟨hroot, hreach⟩ := ofLinks_of_root h.distinct (filter_of_isRootedAt h)
    exact ⟨hroot, hreach.trans (ChainGraph.length_descendants h)⟩

/-- A chain of three whose root comes last. -/
def rootLast : List ChainLink := [⟨0, "b", some "a"⟩, ⟨1, "c", some "b"⟩, ⟨2, "a", none⟩]

theorem ofLinks_rootLast :
    IsRootedAt rootLast ⟨2, "a", none⟩ ∧ (ofLinks rootLast).issues = [] ∧
      (ofLinks rootLast).root = some "a" ∧ (ofLinks rootLast).reachable = 3 := by
  have hb : Leads rootLast ⟨0, "b", some "a"⟩ ⟨2, "a", none⟩ := by simp [Leads, rootLast]
  have hc : Leads rootLast ⟨1, "c", some "b"⟩ ⟨0, "b", some "a"⟩ := by simp [Leads, rootLast]
  have h : IsRootedAt rootLast ⟨2, "a", none⟩ := by
    refine ⟨by decide, by decide, fun l => ?_, ?_⟩
    · constructor
      · rintro ⟨hl, hnone⟩
        simp only [rootLast, List.mem_cons, List.not_mem_nil, or_false] at hl
        rcases hl with rfl | rfl | rfl
        · cases hnone
        · cases hnone
        · rfl
      · rintro rfl
        exact ⟨by simp [rootLast], rfl⟩
    · intro l hl
      simp only [rootLast, List.mem_cons, List.not_mem_nil, or_false] at hl
      rcases hl with rfl | rfl | rfl
      · exact .single hb
      · exact .head hc (.single hb)
      · exact .refl
  obtain ⟨hissues, hroot, -⟩ := ofLinks_rooted rootLast
  obtain ⟨hid, hreach⟩ := hroot _ h
  exact ⟨h, hissues.mpr (.inr ⟨_, h⟩), hid, hreach⟩

end Linkage
end Isnad
