import Isnad.Proofs.Chain.Events
import Isnad.Proofs.Chain.Loop

/-!
# Which cycles the search reports

Where every node has at most one parent, the search enters a cycle at the node at which it starts,
and at no other. What a step does is said once more, by the edges that were looked at
(`step_edges`). From it follows what a visit keeps (`Visiting.step`): what is met is closed but for
edges still to be looked at, and a cycle is reported when the edge back to the start is. So the
search reports every cycle once, from its least node on, in the order of these nodes
(`exists_cycles_eq`).
-/

namespace Isnad.ChainGraph

/-- Every node is listed once at most among the children of nodes. -/
structure SingleParents (g : ChainGraph) : Prop where
  unique : UniquePredecessor g.IsChild
  nodup : ∀ i, (g.childrenOf i).Nodup
  lt : ∀ i j, g.IsChild i j → i < g.size ∧ j < g.size

theorem SingleParents.lt_of_isLoop {g : ChainGraph} (hg : g.SingleParents) {a i : Nat}
    {c : List Nat} (h : IsLoop g.IsChild a c) (hi : i ∈ a :: c) : i < g.size := by
  obtain ⟨p, -, hp⟩ := h.exists_mem hi
  exact (hg.lt p i hp).2

/-- A cycle from its least node on. -/
structure IsCycleFrom (g : ChainGraph) (a : Nat) (c : List Nat) : Prop where
  isLoop : IsLoop g.IsChild a c
  least : ∀ i ∈ c, a < i

namespace Search

variable {g : ChainGraph} {s t : Search} {a : Nat}

/-! ## Steps by edges -/

/-- A step leaves the end of the trail, or looks at an edge from there. An edge to a node on the
trail makes a report. -/
inductive Moves (g : ChainGraph) (s t : Search) : Prop where
  | leave (node : Nat) (trail : s.trail = t.trail ++ [node]) (cycles : t.cycles = s.cycles)
    (fresh : ∀ i, t.mark i = .fresh ↔ s.mark i = .fresh)
    (pending : ∀ i j, g.IsChild i j → (t.Pending i j ↔ s.Pending i j))
  | look (node child : Nat) (last : s.trail.getLast? = some node) (edge : g.IsChild node child)
    (unseen : s.Pending node child) (trail : s.trail <+: t.trail)
    (fresh : ∀ i, t.mark i = .fresh ↔ s.mark i = .fresh ∧ i ≠ child)
    (pending : ∀ i j, g.IsChild i j → (t.Pending i j ↔ s.Pending i j ∧ ¬(i = node ∧ j = child)))
    (cycles : t.cycles =
      s.cycles ++ if s.mark child = .onStack then [closing s.trail child] else [])

theorem step_edges (hv : Valid g s) (hnodup : ∀ f ∈ s.stack, f.unread.Nodup)
    (h : s.step g = some t) : Moves g s t := by
  obtain ⟨node, rest, hst, rfl⟩ | ⟨node, child, unread, rest, hst, ht⟩ := step_cases h
  · have hc := changes_step hv hnodup (e := .leave node) (by simp [event?, hst]) h
    refine .leave node (trail_eq hst) rfl (fun i => ?_) (fun i j hij => ?_)
    · simpa [Event.entered?] using hc.fresh_iff i
    · simpa [Event.looked?] using hc.pending_iff i j hij
  · have hc := changes_step hv hnodup (e := .look node child (s.mark child))
      (by simp [event?, hst]) h
    have htrail : (s.withStack (⟨node, unread⟩ :: rest)).trail = s.trail := trail_withStack hst
    refine .look node child (by rw [trail_eq hst, List.getLast?_concat]) (hv.child hst)
      (hc.pending_of_looked _ _ rfl).2 ?_ (fun i => ?_) (fun i j hij => ?_) ?_
    · rcases ht with ⟨-, rfl⟩ | ⟨-, rfl⟩ | ⟨-, rfl⟩
      · rw [trail_eq (stack_push child), ← trail, htrail]
        exact List.prefix_append _ _
      · exact htrail ▸ List.prefix_rfl
      · exact htrail ▸ List.prefix_rfl
    · rw [hc.fresh_iff, Event.entered?_look]
      by_cases hi : i = child
      · subst hi
        simp
      · simp [hi, Ne.symm hi]
    · simpa [Event.looked?, eq_comm] using hc.pending_iff i j hij
    · rcases ht with ⟨hm, rfl⟩ | ⟨hm, rfl⟩ | ⟨hm, rfl⟩
      · rw [if_neg (by simp [hm]), List.append_nil]
        rfl
      · rw [if_pos hm, ← htrail]
        rfl
      · rw [if_neg (by simp [hm]), List.append_nil]
        rfl

/-! ## One visit -/

/-- On a path without repeats a predecessor of an element is its last only if the element is its
first. -/
theorem eq_head_of_last {R : Nat → Nat → Prop} (hR : UniquePredecessor R) {l : List Nat}
    (hchain : l.IsChain R) (hnodup : l.Nodup) {last x : Nat} (hlast : l.getLast? = some last)
    (hx : x ∈ l) (hedge : R last x) : l.head? = some x := by
  obtain ⟨before, after, rfl⟩ := List.append_of_mem hx
  rcases List.eq_nil_or_concat' before with rfl | ⟨before, q, rfl⟩
  · rfl
  · rw [List.append_assoc, List.isChain_append] at hchain
    have hqx : R q x := (List.isChain_cons_cons.mp hchain.2.1).1
    obtain rfl := hR _ _ _ hedge hqx
    -- The predecessor stands before the element and at the end.
    have hmem : last ∈ x :: after := by
      rw [List.getLast?_append_of_ne_nil _ (List.cons_ne_nil _ _)] at hlast
      exact List.mem_of_getLast? hlast
    have hdisjoint := List.disjoint_of_nodup_append hnodup
    exact absurd hmem (hdisjoint (by simp))

theorem closing_of_head {l : List Nat} (h : l.head? = some a) : closing l a = l ++ [a] := by
  cases l with
  | nil => cases h
  | cons b l =>
    cases h
    simp [closing, List.idxOf?_cons]

/-- A cycle is reported in the visit of `a` when the edge back to `a` was looked at. The cycles in
`old` were reported before. -/
def Reports (g : ChainGraph) (a : Nat) (old : List (List Nat)) (s : Search) : Prop :=
  (s.cycles = old ∧ ∀ p, g.IsChild p a → s.Pending p a) ∨
    ∃ c, s.cycles = old ++ [a :: (c ++ [a])] ∧ IsLoop g.IsChild a c ∧
      ∀ p, g.IsChild p a → ¬ s.Pending p a

/-- What a visit of `a` keeps. -/
structure Visiting (g : ChainGraph) (a : Nat) (old : List (List Nat)) (s : Search) : Prop where
  met : ∀ r ≤ a, s.mark r ≠ .fresh
  reached : ∀ i < g.size, s.mark i ≠ .fresh → ∃ r ≤ a, Relation.ReflTransGen g.IsChild r i
  closed : ∀ i j, g.IsChild i j → s.mark j = .fresh → s.Pending i j
  unread : ∀ f ∈ s.stack, f.unread.Nodup
  head : ∀ i ∈ s.trail.head?, i = a
  reports : Reports g a old s

variable {old : List (List Nat)}

/-- Reports stay as they are while neither cycles nor edges to `a` are added. -/
theorem Reports.congr (h : Reports g a old s) (hcycles : t.cycles = s.cycles)
    (hpending : ∀ p, g.IsChild p a → (t.Pending p a ↔ s.Pending p a)) : Reports g a old t := by
  rw [Reports, hcycles]
  refine h.imp (And.imp_right fun hall p hp => (hpending p hp).mpr (hall p hp)) ?_
  rintro ⟨c, hc, hloop, hall⟩
  exact ⟨c, hc, hloop, fun p hp => mt (hpending p hp).mp (hall p hp)⟩

/-- The edge back to the start of a trail closes a loop. -/
theorem isLoop_of_trail (hv : Valid g s) {c : List Nat} (htrail : s.trail = a :: c) {last : Nat}
    (hlast : s.trail.getLast? = some last) (hedge : g.IsChild last a) : IsLoop g.IsChild a c where
  nodup := htrail ▸ hv.nodup_trail
  closes := by
    rw [← List.cons_append, ← htrail, List.isChain_append]
    refine ⟨hv.isChain_trail, List.isChain_singleton _, ?_⟩
    simpa [hlast] using hedge

theorem Moves.mono (h : Moves g s t) {i : Nat} (hi : s.mark i ≠ .fresh) : t.mark i ≠ .fresh := by
  cases h with
  | leave _ _ _ hfresh _ => exact mt (hfresh i).mp hi
  | look _ _ _ _ _ _ hfresh _ _ => exact fun hti => hi ((hfresh i).mp hti).1

theorem Visiting.reports_step (hg : g.SingleParents) (hv : Valid g s) (h : Visiting g a old s)
    (hmoves : Moves g s t) : Reports g a old t := by
  cases hmoves with
  | leave node _ hcycles _ hpending =>
    exact h.reports.congr hcycles fun p hp => hpending p a hp
  | look node child hlast hedge hunseen _ _ hpending hcycles =>
    obtain ⟨c, htrail⟩ : ∃ c, s.trail = a :: c := by
      cases htrail : s.trail with
      | nil => simp [htrail] at hlast
      | cons b c => exact ⟨c, by rw [h.head b (by simp [htrail])]⟩
    have hhead : s.trail.head? = some a := by rw [htrail, List.head?_cons]
    by_cases hchild : child = a
    · subst hchild
      rw [if_pos (hv.mem_trail.mp (List.mem_of_head? hhead)), closing_of_head hhead, htrail]
        at hcycles
      obtain ⟨hold, -⟩ | ⟨_, -, -, hall⟩ := h.reports
      · refine .inr ⟨c, by rw [hcycles, hold, List.cons_append],
          isLoop_of_trail hv htrail hlast hedge, fun p hp hpend => ?_⟩
        exact ((hpending p child hp).mp hpend).2 ⟨hg.unique _ _ _ hp hedge, rfl⟩
      · exact absurd hunseen (hall node hedge)
    · have hoff : s.mark child ≠ .onStack := by
        intro hon
        have hfirst := eq_head_of_last hg.unique hv.isChain_trail hv.nodup_trail hlast
          (hv.mem_trail.mpr hon) hedge
        exact hchild (Option.some.inj (hfirst.symm.trans hhead))
      rw [if_neg hoff, List.append_nil] at hcycles
      refine h.reports.congr hcycles fun p hp => (hpending p a hp).trans (and_iff_left ?_)
      exact fun heq => hchild heq.2.symm

theorem nodup_unread_step (hg : g.SingleParents) (h : ∀ f ∈ s.stack, f.unread.Nodup)
    (hstep : s.step g = some t) : ∀ f ∈ t.stack, f.unread.Nodup := by
  obtain ⟨node, rest, hst, rfl⟩ | ⟨node, child, unread, rest, hst, ht⟩ := step_cases hstep
  · exact fun f hf => h f (hst ▸ List.mem_cons_of_mem _ hf)
  · rw [hst, List.forall_mem_cons] at h
    have hread : ∀ f ∈ (⟨node, unread⟩ :: rest : List Frame), f.unread.Nodup :=
      List.forall_mem_cons.mpr ⟨(List.nodup_cons.mp h.1).2, h.2⟩
    rcases ht with ⟨-, rfl⟩ | ⟨-, rfl⟩ | ⟨-, rfl⟩
    · exact List.forall_mem_cons.mpr ⟨hg.nodup child, hread⟩
    · exact hread
    · exact hread

theorem Visiting.step (hg : g.SingleParents) (hv : Valid g s) (h : Visiting g a old s)
    (hstep : s.step g = some t) : Visiting g a old t := by
  have hmoves := step_edges hv h.unread hstep
  refine ⟨fun r hr => hmoves.mono (h.met r hr), ?_, ?_, nodup_unread_step hg h.unread hstep, ?_,
    h.reports_step hg hv hmoves⟩
  · intro i hi hmet
    by_cases hbefore : s.mark i = .fresh
    · cases hmoves with
      | leave _ _ _ hfresh _ => exact absurd ((hfresh i).mpr hbefore) hmet
      | look node child hlast hedge _ _ hfresh _ _ =>
        have hchild : i = child := by
          by_contra hne
          exact hmet ((hfresh i).mpr ⟨hbefore, hne⟩)
        have hon : s.mark node = .onStack := hv.mem_trail.mp (List.mem_of_getLast? hlast)
        obtain ⟨r, hr, hreach⟩ := h.reached node (hg.lt _ _ hedge).1 (by simp [hon])
        exact ⟨r, hr, hchild ▸ hreach.tail hedge⟩
    · exact h.reached i hi hbefore
  · intro i j hij hj
    cases hmoves with
    | leave _ _ _ hfresh hpending =>
      exact (hpending i j hij).mpr (h.closed i j hij ((hfresh j).mp hj))
    | look _ _ _ _ _ _ hfresh hpending _ =>
      obtain ⟨hj, hne⟩ := (hfresh j).mp hj
      exact (hpending i j hij).mpr ⟨h.closed i j hij hj, fun heq => hne heq.2⟩
  · intro i hi
    cases hmoves with
    | leave _ htrail _ _ _ =>
      refine h.head i ?_
      rw [htrail]
      exact List.mem_head?_append_of_mem_head? hi
    | look node _ hlast _ _ htrail _ _ _ =>
      obtain ⟨l, hl⟩ := htrail
      refine h.head i ?_
      rwa [← hl, List.head?_append_of_ne_nil] at hi
      exact List.ne_nil_of_mem (List.mem_of_getLast? hlast)

/-- When the visit ends, what descends from the start or from lesser nodes is met. -/
theorem Visiting.met_iff (h : Visiting g a old s) (hstack : s.stack = []) :
    ∀ i < g.size, s.mark i ≠ .fresh ↔ ∃ r < a + 1, Relation.ReflTransGen g.IsChild r i := by
  have hclosed {i j : Nat} (hij : g.IsChild i j) (hi : s.mark i ≠ .fresh) : s.mark j ≠ .fresh :=
    fun hj => hi ((pending_iff_of_stack hstack).mp (h.closed i j hij hj))
  have hreached {i j : Nat} (hij : Relation.ReflTransGen g.IsChild i j) (hi : s.mark i ≠ .fresh) :
      s.mark j ≠ .fresh := by
    induction hij with
    | refl => exact hi
    | tail _ hbc ih => exact hclosed hbc ih
  refine fun i hi => ⟨fun hmet => ?_, ?_⟩
  · obtain ⟨r, hr, hreach⟩ := h.reached i hi hmet
    exact ⟨r, Nat.lt_succ_of_le hr, hreach⟩
  · rintro ⟨r, hr, hreach⟩
    exact hreached hreach (h.met r (Nat.le_of_lt_succ hr))

/-! ## All visits -/

/-- The cycles whose least nodes are below `n`, in the order of these nodes. -/
structure ListsCycles (g : ChainGraph) (n : Nat) (cs : List (Nat × List Nat)) : Prop where
  mem_iff : ∀ x, x ∈ cs ↔ x.1 < n ∧ g.IsCycleFrom x.1 x.2
  pairwise : cs.Pairwise (·.1 < ·.1)

theorem ListsCycles.skip {n : Nat} {cs : List (Nat × List Nat)} (h : ListsCycles g n cs)
    (hno : ∀ c, ¬ g.IsCycleFrom n c) : ListsCycles g (n + 1) cs where
  mem_iff x := by
    rw [h.mem_iff, Nat.lt_succ_iff_lt_or_eq, or_and_right]
    refine (or_iff_left ?_).symm
    rintro ⟨heq, hx⟩
    exact hno x.2 (heq ▸ hx)
  pairwise := h.pairwise

theorem ListsCycles.snoc (hg : g.SingleParents) {n : Nat} {cs : List (Nat × List Nat)}
    {c : List Nat} (h : ListsCycles g n cs) (hc : g.IsCycleFrom n c) :
    ListsCycles g (n + 1) (cs ++ [(n, c)]) where
  mem_iff x := by
    rw [List.mem_append, List.mem_singleton, h.mem_iff, Nat.lt_succ_iff_lt_or_eq, or_and_right]
    refine or_congr_right ⟨?_, ?_⟩
    · rintro rfl
      exact ⟨rfl, hc⟩
    · rintro ⟨rfl, hx⟩
      rw [hc.isLoop.eq hx.isLoop hg.unique]
  pairwise := by
    refine List.pairwise_append.mpr
      ⟨h.pairwise, List.pairwise_singleton _ _, fun x hx y hy => ?_⟩
    rw [List.mem_singleton.mp hy]
    exact ((h.mem_iff x).mp hx).1

/-- The state of the search when the nodes below `n` were visited: what descends from them is met,
and the cycles whose least nodes they are have been reported. -/
structure Swept (g : ChainGraph) (n : Nat) (s : Search) : Prop where
  valid : Valid g s
  stack : s.stack = []
  work : s.work g ≤ budget g
  met_iff : ∀ i < g.size, s.mark i ≠ .fresh ↔ ∃ r < n, Relation.ReflTransGen g.IsChild r i
  cycles : ∃ cs : List (Nat × List Nat), s.cycles = cs.map (fun x => x.1 :: (x.2 ++ [x.1])) ∧
    ListsCycles g n cs
  /-- Descending from oneself and from no lesser node makes the least node of a cycle. -/
  least : ∀ a < n, Relation.TransGen g.IsChild a a →
    (∀ r < a, ¬ Relation.ReflTransGen g.IsChild r a) → ∃ c, g.IsCycleFrom a c

theorem swept_start (g : ChainGraph) : Swept g 0 (start g) where
  valid := valid_start g
  stack := rfl
  work := work_start_le g
  met_iff i hi := by simp [mark_start hi]
  cycles := ⟨[], rfl, by simp, .nil⟩
  least _ ha := absurd ha (Nat.not_lt_zero _)

namespace Swept

variable {n : Nat}

theorem fresh_of_isChild (hg : g.SingleParents) (h : Swept g n s) {i j : Nat}
    (hij : g.IsChild i j) (hj : s.mark j = .fresh) : s.mark i = .fresh := by
  by_contra hi
  obtain ⟨hilt, hjlt⟩ := hg.lt i j hij
  obtain ⟨r, hr, hri⟩ := (h.met_iff i hilt).mp hi
  exact (h.met_iff j hjlt).mpr ⟨r, hr, hri.tail hij⟩ hj

/-- When its turn comes, a node is met already if it descends from a lesser one. -/
theorem fresh_iff (h : Swept g n s) (hn : n < g.size) :
    s.mark n = .fresh ↔ ∀ r < n, ¬ Relation.ReflTransGen g.IsChild r n := by
  rw [← not_iff_not, ← ne_eq, h.met_iff n hn]
  push Not
  rfl

theorem visiting_push (hg : g.SingleParents) (h : Swept g n s) (hn : n < g.size)
    (hfresh : s.mark n = .fresh) : Visiting g n s.cycles (s.push g n) where
  met r hr := by
    rw [mark_push hfresh]
    split
    · exact nofun
    · exact (h.met_iff r (by omega)).mpr ⟨r, by omega, .refl⟩
  reached i hi hmet := by
    rw [mark_push hfresh] at hmet
    split at hmet
    · rename_i heq
      exact ⟨n, Nat.le_refl n, heq ▸ .refl⟩
    · obtain ⟨r, hr, hreach⟩ := (h.met_iff i hi).mp hmet
      exact ⟨r, Nat.le_of_lt hr, hreach⟩
  closed i j hij hj := by
    rw [mark_push hfresh] at hj
    split at hj
    · cases hj
    · rw [pending_push hfresh hij, pending_iff_of_stack h.stack]
      exact h.fresh_of_isChild hg hij hj
  unread f hf := by
    rw [stack_push, h.stack, List.mem_singleton] at hf
    exact hf ▸ hg.nodup n
  head i hi := by
    rw [trail_eq (stack_push n), h.stack] at hi
    exact (Option.mem_some_iff.mp hi).symm
  reports := by
    refine .inl ⟨rfl, fun p hp => ?_⟩
    rw [pending_push hfresh hp, pending_iff_of_stack h.stack]
    exact h.fresh_of_isChild hg hp hfresh

/-- A node that has been met is not the least of a cycle. -/
theorem not_isCycleFrom (hg : g.SingleParents) (h : Swept g n s) (hn : n < g.size)
    (hmet : s.mark n ≠ .fresh) (c : List Nat) : ¬ g.IsCycleFrom n c := by
  intro hc
  obtain ⟨r, hr, hreach⟩ := (h.met_iff n hn).mp hmet
  rcases List.mem_cons.mp (hc.isLoop.mem_of_reaches hg.unique hreach List.mem_cons_self) with
    rfl | hmem
  · exact Nat.lt_irrefl _ hr
  · exact Nat.lt_asymm hr (hc.least r hmem)

/-- Nothing changes when the next node has been met. -/
theorem succ_of_met (hg : g.SingleParents) (h : Swept g n s) (hn : n < g.size)
    (hmet : s.mark n ≠ .fresh) : Swept g (n + 1) s where
  valid := h.valid
  stack := h.stack
  work := h.work
  met_iff i hi := by
    rw [h.met_iff i hi]
    constructor
    · rintro ⟨r, hr, hreach⟩
      exact ⟨r, Nat.lt_succ_of_lt hr, hreach⟩
    · rintro ⟨r, hr, hreach⟩
      rcases Nat.lt_succ_iff_lt_or_eq.mp hr with hr | rfl
      · exact ⟨r, hr, hreach⟩
      · obtain ⟨q, hq, hqr⟩ := (h.met_iff r hn).mp hmet
        exact ⟨q, hq, hqr.trans hreach⟩
  cycles := by
    obtain ⟨cs, hcs, hlists⟩ := h.cycles
    exact ⟨cs, hcs, hlists.skip (h.not_isCycleFrom hg hn hmet)⟩
  least := Nat.forall_lt_succ_right.mpr
    ⟨h.least, fun _ hleast => absurd ((h.fresh_iff hn).mpr hleast) hmet⟩

/-- A loop through the start of a visit has its least node there. -/
theorem isCycleFrom_of_isLoop (h : Swept g n s) (hn : n < g.size) (hfresh : s.mark n = .fresh)
    {c : List Nat} (hc : IsLoop g.IsChild n c) : g.IsCycleFrom n c := by
  refine ⟨hc, fun i hi => ?_⟩
  rcases Nat.lt_trichotomy n i with hlt | rfl | hlt
  · exact hlt
  · exact absurd hi (List.nodup_cons.mp hc.nodup).1
  · have hto := (hc.reaches_first (List.mem_cons_of_mem _ hi)).to_reflTransGen
    exact absurd hto ((h.fresh_iff hn).mp hfresh i hlt)

/-- A visit that ends adds the cycle of its start, if there is one. -/
theorem succ_of_visiting (hg : g.SingleParents) (h : Swept g n s) (hn : n < g.size)
    (hfresh : s.mark n = .fresh) (hv : Valid g t) (hvisit : Visiting g n s.cycles t)
    (hstack : t.stack = []) (hwork : t.work g ≤ budget g) : Swept g (n + 1) t := by
  have hmet := hvisit.met_iff hstack
  obtain ⟨cs, hcs, hlists⟩ := h.cycles
  obtain ⟨hold, hpending⟩ | ⟨c, hnew, hloop, -⟩ := hvisit.reports
  · -- No parent of the start was met, so the start does not descend from itself.
    have hacyclic : ¬ Relation.TransGen g.IsChild n n := by
      intro hcyclic
      obtain ⟨p, hnp, hp⟩ := Relation.TransGen.tail'_iff.mp hcyclic
      exact (hmet p (hg.lt p n hp).1).mpr ⟨n, Nat.lt_succ_self n, hnp⟩
        ((pending_iff_of_stack hstack).mp (hpending p hp))
    have hno (c : List Nat) : ¬ g.IsCycleFrom n c :=
      fun hc => hacyclic (hc.isLoop.reaches List.mem_cons_self)
    exact ⟨hv, hstack, hwork, hmet, ⟨cs, hold.trans hcs, hlists.skip hno⟩,
      Nat.forall_lt_succ_right.mpr ⟨h.least, fun hcyclic _ => absurd hcyclic hacyclic⟩⟩
  · have hcycle := h.isCycleFrom_of_isLoop hn hfresh hloop
    have hcycles : t.cycles = (cs ++ [(n, c)]).map fun x => x.1 :: (x.2 ++ [x.1]) := by
      rw [hnew, hcs, List.map_append]
      rfl
    exact ⟨hv, hstack, hwork, hmet, ⟨_, hcycles, hlists.snoc hg hcycle⟩,
      Nat.forall_lt_succ_right.mpr ⟨h.least, fun _ _ => ⟨c, hcycle⟩⟩⟩

theorem visit (hg : g.SingleParents) (h : Swept g n s) (hn : n < g.size) :
    Swept g (n + 1) (s.visit g n) := by
  unfold Search.visit
  split
  · rename_i hfresh
    have hwork := work_push h.valid.size_eq hfresh
    obtain ⟨hv, hvisit, hstack, hle⟩ := run_induction (P := Visiting g n s.cycles)
      (fun _ _ hv hp hstep => hp.step hg hv hstep) (budget g)
      (h.valid.push hfresh (by simp [h.stack])) (h.visiting_push hg hn hfresh)
      (hwork ▸ h.work)
    exact h.succ_of_visiting hg hn hfresh hv hvisit hstack (hle.trans (hwork ▸ h.work))
  · exact h.succ_of_met hg hn ‹_›

theorem foldl_visit (hg : g.SingleParents) (hn : n ≤ g.size) :
    Swept g n ((List.range n).foldl (Search.visit g) (start g)) := by
  induction n with
  | zero => exact swept_start g
  | succ n ih =>
    rw [List.range_succ, List.foldl_append]
    exact (ih (Nat.le_of_succ_le hn)).visit hg hn

end Swept
end Search

variable {g : ChainGraph}

/-- Every cycle is reported once, from its least node on, and the reports come in the order of these
nodes. -/
theorem exists_cycles_eq (hg : g.SingleParents) :
    ∃ cs : List (Nat × List Nat), g.cycles = cs.map (fun x => x.1 :: (x.2 ++ [x.1])) ∧
      (∀ x, x ∈ cs ↔ g.IsCycleFrom x.1 x.2) ∧ cs.Pairwise (·.1 < ·.1) := by
  obtain ⟨cs, hcs, hlists⟩ := (Search.Swept.foldl_visit hg (Nat.le_refl g.size)).cycles
  refine ⟨cs, hcs, fun x => ?_, hlists.pairwise⟩
  rw [hlists.mem_iff, and_iff_right_of_imp]
  exact fun hx => hg.lt_of_isLoop hx.isLoop List.mem_cons_self

/-- A node that descends from itself is on a cycle. The cycle starts at the least node that descends
from itself and leads to the given one. -/
theorem exists_isCycleFrom (hg : g.SingleParents) {i : Nat}
    (h : Relation.TransGen g.IsChild i i) : ∃ a c, g.IsCycleFrom a c ∧ i ∈ a :: c := by
  classical
  have hex : ∃ a, Relation.TransGen g.IsChild a a ∧ Relation.ReflTransGen g.IsChild a i :=
    ⟨i, h, .refl⟩
  obtain ⟨hcyclic, hreach⟩ := Nat.find_spec hex
  obtain ⟨p, -, hp⟩ := Relation.TransGen.tail'_iff.mp hcyclic
  obtain ⟨c, hc⟩ := (Search.Swept.foldl_visit hg (Nat.le_refl g.size)).least _
    (hg.lt p _ hp).2 hcyclic fun r hr hra =>
      Nat.find_min hex hr ⟨cyclic_of_reaches hg.unique hra hcyclic, hra.trans hreach⟩
  exact ⟨_, c, hc, hc.isLoop.mem_of_reaches hg.unique (hg.unique.reaches_back hreach h)
    List.mem_cons_self⟩

end Isnad.ChainGraph
