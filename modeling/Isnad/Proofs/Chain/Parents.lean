import Isnad.Proofs.Chain.Cycles
import Isnad.Proofs.Chain.Firsts
import Isnad.Proofs.Chain.Rooted

/-!
# Parents among the first links

The analysis works on a graph whose nodes are the places of first links. Its edges are the parents
that first links name among first links (`isChild_iff`, `isChild_idxOf`), so no node has two parents
(`singleParents_ofLinks`) and places lead to each other as their links do (`reaches_idxOf_iff`).
-/

namespace Isnad

open Relation

namespace ChainLink

variable {links : List ChainLink} {l l' p q c : ChainLink} {i j : Nat}

/-- The first link `c` names the first link `p` as its parent. -/
def Parent (links : List ChainLink) (p c : ChainLink) : Prop :=
  IsFirst links p ∧ IsFirst links c ∧ c.parent = some p.id

theorem uniquePredecessor_parent (links : List ChainLink) : UniquePredecessor (Parent links) := by
  intro p q c hp hq
  exact hp.1.eq hq.1 (Option.some.inj (hp.2.2.symm.trans hq.2.2))

theorem isFirst_of_reaches (h : ReflTransGen (Parent links) p c) (hc : IsFirst links c) :
    IsFirst links p := by
  rcases ReflTransGen.cases_head h with rfl | ⟨d, hd, -⟩
  · exact hc
  · exact hd.1

/-! ## Places -/

/-- The first link at a place. -/
def linkAt (links : List ChainLink) (i : Nat) : ChainLink :=
  (firsts links).getD i ⟨0, "", none⟩

theorem linkAt_eq (h : (firsts links)[i]? = some l) : linkAt links i = l := by
  rw [linkAt, List.getD_eq_getElem?_getD, h, Option.getD_some]

theorem getElem?_linkAt (h : i < (firsts links).length) :
    (firsts links)[i]? = some (linkAt links i) := by
  rw [linkAt_eq (List.getElem?_eq_getElem h), List.getElem?_eq_getElem h]

theorem isFirst_linkAt (h : i < (firsts links).length) : IsFirst links (linkAt links i) :=
  mem_firsts_iff.mp (List.mem_of_getElem? (getElem?_linkAt h))

theorem linkAt_idxOf (h : IsFirst links l) : linkAt links ((firsts links).idxOf l) = l :=
  linkAt_eq (List.getElem?_idxOf (mem_firsts_iff.mpr h))

theorem nodup_firsts (links : List ChainLink) : (firsts links).Nodup :=
  (nodup_ids_firsts links).of_map _

theorem idxOf_linkAt (h : i < (firsts links).length) :
    (firsts links).idxOf (linkAt links i) = i := by
  rw [linkAt_eq (List.getElem?_eq_getElem h)]
  exact (nodup_firsts links).idxOf_getElem i h

theorem idxOf_lt (h : IsFirst links l) : (firsts links).idxOf l < (firsts links).length :=
  List.idxOf_lt_length_iff.mpr (mem_firsts_iff.mpr h)

theorem before_linkAt (hij : i < j) (hj : j < (firsts links).length) :
    Before links (linkAt links i) (linkAt links j) := by
  rw [linkAt_eq (List.getElem?_eq_getElem (hij.trans hj)), linkAt_eq (List.getElem?_eq_getElem hj)]
  exact List.pairwise_iff_getElem.mp (firsts_pairwise links) i j _ hj hij

end ChainLink

namespace ChainGraph

open ChainLink

variable {links : List ChainLink} {p c : ChainLink} {i j : Nat}

/-! ## Edges between places -/

theorem isChild_iff : (ofLinks (firsts links)).IsChild i j ↔
    i < (firsts links).length ∧ j < (firsts links).length ∧
      Parent links (linkAt links i) (linkAt links j) := by
  rw [isChild_ofLinks]
  constructor
  · rintro ⟨p, c, hp, hc, hpc⟩
    have hi := (List.getElem?_eq_some_iff.mp hp).1
    have hj := (List.getElem?_eq_some_iff.mp hc).1
    refine ⟨hi, hj, isFirst_linkAt hi, isFirst_linkAt hj, ?_⟩
    rw [linkAt_eq hp, linkAt_eq hc, hpc]
  · rintro ⟨hi, hj, hpc⟩
    exact ⟨_, _, getElem?_linkAt hi, getElem?_linkAt hj, hpc.2.2⟩

theorem parent_linkAt (h : (ofLinks (firsts links)).IsChild i j) :
    Parent links (linkAt links i) (linkAt links j) := (isChild_iff.mp h).2.2

theorem isChild_idxOf (h : Parent links p c) :
    (ofLinks (firsts links)).IsChild ((firsts links).idxOf p) ((firsts links).idxOf c) := by
  refine isChild_iff.mpr ⟨idxOf_lt h.1, idxOf_lt h.2.1, ?_⟩
  rwa [linkAt_idxOf h.1, linkAt_idxOf h.2.1]

/-- Places lead to each other as their links do. -/
theorem reaches_idxOf_iff (hp : IsFirst links p) (hc : IsFirst links c) :
    ReflTransGen (ofLinks (firsts links)).IsChild ((firsts links).idxOf p)
      ((firsts links).idxOf c) ↔ ReflTransGen (Parent links) p c := by
  constructor
  · intro h
    have hlinks : ReflTransGen (Parent links) (linkAt links ((firsts links).idxOf p))
        (linkAt links ((firsts links).idxOf c)) := h.lift (linkAt links) fun _ _ => parent_linkAt
    rwa [linkAt_idxOf hp, linkAt_idxOf hc] at hlinks
  · exact fun h => h.lift (firsts links).idxOf fun _ _ => isChild_idxOf

/-- A place is listed once at most among the children of a place. -/
theorem nodup_childrenOf_ofLinks (links : List ChainLink) (i : Nat) :
    ((ofLinks links).childrenOf i).Nodup := by
  unfold childrenOf
  cases hp : links[i]? with
  | none => simp [ofLinks, List.getD_eq_getElem?_getD, hp]
  | some p =>
    simp only [ofLinks, List.getD_eq_getElem?_getD, List.getElem?_map, hp, Option.map_some,
      Option.getD_some, List.nodup_reverse]
    rw [List.Nodup, List.pairwise_filterMap, List.pairwise_iff_getElem]
    intro m n hm hn hmn a ha b hb
    simp only [List.getElem_mapIdx, Option.ite_none_right_eq_some, Option.some.injEq] at ha hb
    omega

theorem singleParents_ofLinks (links : List ChainLink) :
    (ofLinks (firsts links)).SingleParents where
  unique i j k hik hjk := by
    obtain ⟨hi, -, hpi⟩ := isChild_iff.mp hik
    obtain ⟨hj, -, hpj⟩ := isChild_iff.mp hjk
    rw [← idxOf_linkAt hi, uniquePredecessor_parent links _ _ _ hpi hpj, idxOf_linkAt hj]
  nodup i := nodup_childrenOf_ofLinks _ i
  lt i j hij := ⟨(isChild_iff.mp hij).1, (isChild_iff.mp hij).2.1⟩

end ChainGraph

end Isnad
