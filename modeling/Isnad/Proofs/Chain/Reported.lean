import Isnad.Proofs.Chain.Parents
import Isnad.Proofs.Chain.Report
import Mathlib.Data.List.Cycle

/-!
# The cycles that are reported

The search works on places and starts each cycle at its least place. On the links of a chain this
means: every cycle of parents among the first links is reported once, from its first member in the
chain on, and the reports come in the order of these members (`cycles_reported`).
-/

namespace Isnad

namespace ChainLink

variable {links : List ChainLink} {a l : ChainLink} {c : List ChainLink}

/-- A cycle of parents among the first links, wherever it is begun. -/
structure IsCycle (links : List ChainLink) (c : Cycle ChainLink) : Prop where
  ne_nil : c ≠ Cycle.nil
  nodup : c.Nodup
  chain : c.Chain (Parent links)

/-- The issue of a cycle that is begun at `a` and goes on through `c`. -/
def cycleIssue (a : ChainLink) (c : List ChainLink) : Issue :=
  ⟨.sanadCycleDetected, "cycle: " ++ " -> ".intercalate (ids (a :: (c ++ [a]))), a.path⟩

/-- The cycle that is begun at a link and goes on through others. -/
def cycleOf (x : ChainLink × List ChainLink) : Cycle ChainLink :=
  ((x.1 :: x.2 : List ChainLink) : Cycle ChainLink)

theorem mem_cycleOf {x : ChainLink × List ChainLink} : l ∈ cycleOf x ↔ l ∈ x.1 :: x.2 :=
  Cycle.mem_coe_iff

theorem isCycle_cycleOf_iff : IsCycle links (cycleOf (a, c)) ↔ IsLoop (Parent links) a c := by
  constructor
  · intro h
    exact ⟨Cycle.nodup_coe_iff.mp h.nodup, (Cycle.chain_coe_cons _ a c).mp h.chain⟩
  · intro h
    refine ⟨fun hnil => ?_, Cycle.nodup_coe_iff.mpr h.nodup,
      (Cycle.chain_coe_cons _ a c).mpr h.closes⟩
    exact List.cons_ne_nil a c ((Cycle.coe_eq_nil _).mp hnil)

/-- The links at the places of a loop. -/
def linksAt (links : List ChainLink) (x : Nat × List Nat) : ChainLink × List ChainLink :=
  (linkAt links x.1, x.2.map (linkAt links))

theorem isFirst_of_isLoop (h : IsLoop (Parent links) a c) (hl : l ∈ a :: c) : IsFirst links l := by
  obtain ⟨p, -, hp⟩ := h.exists_mem hl
  exact hp.2.1

theorem eq_of_idxOf_eq {l' : ChainLink} (hl : IsFirst links l) (hl' : IsFirst links l')
    (h : (firsts links).idxOf l = (firsts links).idxOf l') : l = l' := by
  rw [← linkAt_idxOf hl, h, linkAt_idxOf hl']

/-- A cycle can be begun at its first member. -/
theorem IsCycle.exists_begun_first {s : Cycle ChainLink} (h : IsCycle links s) :
    ∃ a c, s = cycleOf (a, c) ∧ ∀ l ∈ c, (firsts links).idxOf a < (firsts links).idxOf l := by
  induction s using Quotient.inductionOn' with
  | h ls =>
    have hne : ls ≠ [] := fun hnil => h.ne_nil ((Cycle.coe_eq_nil _).mpr hnil)
    obtain ⟨a, ha, hmin⟩ := ls.toFinset.exists_min_image (firsts links).idxOf
      (List.toFinset_nonempty_iff ls |>.mpr hne)
    obtain ⟨before, after, rfl⟩ := List.append_of_mem (List.mem_toFinset.mp ha)
    have hrotated : Quotient.mk'' (before ++ a :: after) = cycleOf (a, after ++ before) :=
      Cycle.coe_eq_coe.mpr List.isRotated_append
    rw [hrotated] at h ⊢
    have hloop := isCycle_cycleOf_iff.mp h
    refine ⟨a, after ++ before, rfl, fun l hl => lt_of_le_of_ne (hmin l ?_) fun heq => ?_⟩
    · rw [List.mem_toFinset, List.mem_append, List.mem_cons]
      exact (List.mem_append.mp hl).symm.imp_right .inr
    · obtain rfl := eq_of_idxOf_eq (isFirst_of_isLoop hloop List.mem_cons_self)
        (isFirst_of_isLoop hloop (List.mem_cons_of_mem _ hl)) heq
      exact (List.nodup_cons.mp hloop.nodup).1 hl

end ChainLink

namespace ChainGraph

open ChainLink

variable {links : List ChainLink} {a : ChainLink} {c : List ChainLink} {i : Nat} {is : List Nat}

/-! ## Loops of places and of links -/

theorem lt_of_isLoop (h : IsLoop (ofLinks (firsts links)).IsChild i is) {j : Nat}
    (hj : j ∈ i :: is) : j < (firsts links).length :=
  (singleParents_ofLinks links).lt_of_isLoop h hj

theorem isLoop_linkAt (h : IsLoop (ofLinks (firsts links)).IsChild i is) :
    IsLoop (Parent links) (linkAt links i) (is.map (linkAt links)) := by
  refine h.map (fun _ _ => parent_linkAt) fun j hj k hk hjk => ?_
  rw [← idxOf_linkAt (lt_of_isLoop h hj), hjk, idxOf_linkAt (lt_of_isLoop h hk)]

theorem isLoop_idxOf (h : IsLoop (Parent links) a c) :
    IsLoop (ofLinks (firsts links)).IsChild ((firsts links).idxOf a)
      (c.map (firsts links).idxOf) := by
  refine h.map (fun _ _ => isChild_idxOf) fun l hl l' hl' => ?_
  exact eq_of_idxOf_eq (isFirst_of_isLoop h hl) (isFirst_of_isLoop h hl')

theorem cycleIssue?_of_isLoop (h : IsLoop (ofLinks (firsts links)).IsChild i is) :
    (ofLinks (firsts links)).cycleIssue? (i :: (is ++ [i])) =
      some (cycleIssue (linksAt links (i, is)).1 (linksAt links (i, is)).2) := by
  have hnodes : (ofLinks (firsts links)).nodes = firsts links := rfl
  have hnames : (i :: (is ++ [i])).filterMap (fun j => (firsts links)[j]?.map (·.id)) =
      (i :: (is ++ [i])).map fun j => (linkAt links j).id := by
    rw [← List.filterMap_eq_map]
    refine List.filterMap_congr fun j hj => ?_
    have hmem : j ∈ i :: is := by simpa [or_comm] using hj
    rw [getElem?_linkAt (lt_of_isLoop h hmem)]
    rfl
  have hlast : (i :: (is ++ [i])).getLast? = some i := by
    rw [← List.cons_append, List.getLast?_concat]
  rw [cycleIssue?, hnodes, hnames, hlast]
  simp [getElem?_linkAt (lt_of_isLoop h List.mem_cons_self), linksAt, cycleIssue, ids,
    Function.comp_def]

theorem linksAt_idxOf (h : IsLoop (Parent links) a c) :
    linksAt links ((firsts links).idxOf a, c.map (firsts links).idxOf) = (a, c) := by
  refine Prod.ext (linkAt_idxOf (isFirst_of_isLoop h List.mem_cons_self)) ?_
  rw [linksAt, List.map_map]
  refine (List.map_congr_left fun l hl => ?_).trans (List.map_id c)
  exact linkAt_idxOf (isFirst_of_isLoop h (List.mem_cons_of_mem _ hl))

end ChainGraph

namespace Linkage

open ChainLink

variable {links : List ChainLink}

/-- Every cycle of places is reported once, from its least place on. -/
theorem exists_ofCode_cycleDetected (links : List ChainLink) :
    ∃ is : List (Nat × List Nat),
      (ofLinks links).ofCode .sanadCycleDetected =
        (is.map (linksAt links)).map (fun x => cycleIssue x.1 x.2) ∧
      (∀ x, x ∈ is ↔ (ChainGraph.ofLinks (firsts links)).IsCycleFrom x.1 x.2) ∧
      is.Pairwise (·.1 < ·.1) := by
  obtain ⟨is, hcycles, hmem, hpairwise⟩ :=
    ChainGraph.exists_cycles_eq (ChainGraph.singleParents_ofLinks links)
  refine ⟨is, ?_, hmem, hpairwise⟩
  rw [ofCode_ofLinks, filter_rootIssues (by decide) (by decide), hcycles, List.filterMap_map,
    List.map_map]
  simp only [reduceCtorEq, if_false, if_true, List.nil_append, List.append_nil]
  rw [← List.filterMap_eq_map]
  refine List.filterMap_congr fun x hx => ?_
  exact ChainGraph.cycleIssue?_of_isLoop ((hmem x).mp hx).isLoop

/-- A cycle is reported if a link leads to itself. -/
theorem has_cycleDetected_iff :
    (ofLinks links).has .sanadCycleDetected = true ↔
      ∃ l, Relation.TransGen (Parent links) l l := by
  obtain ⟨is, hissues, hmem, -⟩ := exists_ofCode_cycleDetected links
  rw [has_iff, hissues, ne_eq, List.map_eq_nil_iff, List.map_eq_nil_iff]
  constructor
  · intro hne
    obtain ⟨x, hx⟩ := List.exists_mem_of_ne_nil is hne
    have hloop := ChainGraph.isLoop_linkAt ((hmem x).mp hx).isLoop
    exact ⟨_, hloop.reaches List.mem_cons_self⟩
  · rintro ⟨l, hl⟩ rfl
    have hplaces : Relation.TransGen (ChainGraph.ofLinks (firsts links)).IsChild
        ((firsts links).idxOf l) ((firsts links).idxOf l) :=
      hl.lift (firsts links).idxOf fun _ _ => ChainGraph.isChild_idxOf
    obtain ⟨a, c, hac, -⟩ :=
      ChainGraph.exists_isCycleFrom (ChainGraph.singleParents_ofLinks links) hplaces
    exact List.not_mem_nil ((hmem (a, c)).mpr hac)

/-- Every cycle of parents among the first links is reported once, and nothing else is reported as a
cycle. A report stands at the first member of its cycle and names the members from there on, each
before those whose parent it is, until it is back. Reports come in the order of their members. -/
theorem cycles_reported (links : List ChainLink) :
    ∃ cs : List (ChainLink × List ChainLink),
      (ofLinks links).ofCode .sanadCycleDetected = cs.map (fun x => cycleIssue x.1 x.2) ∧
      (cs.map cycleOf).Nodup ∧ (∀ c, c ∈ cs.map cycleOf ↔ IsCycle links c) ∧
      (∀ x ∈ cs, ∀ l ∈ x.2, Before links x.1 l) ∧
      cs.Pairwise fun x y => Before links x.1 y.1 := by
  obtain ⟨is, hissues, hmem, hpairwise⟩ := exists_ofCode_cycleDetected links
  have hloop {x : Nat × List Nat} (hx : x ∈ is) :
      IsLoop (ChainGraph.ofLinks (firsts links)).IsChild x.1 x.2 := ((hmem x).mp hx).isLoop
  have hfirst : ∀ x ∈ is.map (linksAt links), ∀ l ∈ x.2, Before links x.1 l := by
    intro y hy l hl
    obtain ⟨x, hx, rfl⟩ := List.mem_map.mp hy
    obtain ⟨j, hj, rfl⟩ := List.mem_map.mp hl
    exact before_linkAt (((hmem x).mp hx).least j hj)
      (ChainGraph.lt_of_isLoop (hloop hx) (List.mem_cons_of_mem _ hj))
  have hordered : (is.map (linksAt links)).Pairwise fun x y => Before links x.1 y.1 := by
    refine List.pairwise_map.mpr (hpairwise.imp_of_mem fun {x y} _ hy hxy => ?_)
    exact before_linkAt hxy (ChainGraph.lt_of_isLoop (hloop hy) List.mem_cons_self)
  refine ⟨is.map (linksAt links), hissues, ?_, fun c => ⟨?_, fun hc => ?_⟩, hfirst, hordered⟩
  · -- One of two reported cycles has a member before all those of the other.
    refine List.pairwise_map.mpr (hordered.imp_of_mem fun {x y} hx hy hxy heq => ?_)
    have hxmem : x.1 ∈ y.1 :: y.2 :=
      mem_cycleOf.mp (heq ▸ mem_cycleOf.mpr List.mem_cons_self)
    rcases List.mem_cons.mp hxmem with heq | hlater
    · exact Nat.lt_irrefl _ (heq ▸ hxy)
    · exact Nat.lt_asymm hxy (hfirst y hy _ hlater)
  · intro hc
    obtain ⟨y, hy, rfl⟩ := List.mem_map.mp hc
    obtain ⟨x, hx, rfl⟩ := List.mem_map.mp hy
    exact isCycle_cycleOf_iff.mpr (ChainGraph.isLoop_linkAt (hloop hx))
  · obtain ⟨a, c, rfl, hleast⟩ := hc.exists_begun_first
    have hac := isCycle_cycleOf_iff.mp hc
    have hx : ((firsts links).idxOf a, c.map (firsts links).idxOf) ∈ is := by
      refine (hmem _).mpr ⟨ChainGraph.isLoop_idxOf hac, fun j hj => ?_⟩
      obtain ⟨l, hl, rfl⟩ := List.mem_map.mp hj
      exact hleast l hl
    exact List.mem_map_of_mem (ChainGraph.linksAt_idxOf hac ▸ List.mem_map_of_mem hx)

/-- A cycle of two with a link that hangs off it, and a link that is its own parent. -/
example : (ofLinks [⟨0, "t", some "b"⟩, ⟨1, "a", some "b"⟩, ⟨2, "b", some "a"⟩,
      ⟨3, "s", some "s"⟩]).ofCode .sanadCycleDetected =
    [⟨.sanadCycleDetected, "cycle: a -> b -> a", "transmission_chain[1]"⟩,
      ⟨.sanadCycleDetected, "cycle: s -> s", "transmission_chain[3]"⟩] := by decide +kernel

end Linkage
end Isnad
