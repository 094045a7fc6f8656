import Isnad.Proofs.Chain.Reach
import Mathlib.Algebra.Order.BigOperators.Group.Finset
import Mathlib.Data.List.Chain

/-!
# The search for cycles

What a step of the search can do is said once, in `step_cases`. From it follow the two facts on
which everything else rests: a step uses up work (`work_step`), and it keeps the stack a path of
the graph whose nodes are the marked ones (`Valid.step`). So the budget of a visit empties the
stack, and a cycle is reported only where there is one (`cycles_eq_nil`).
-/

namespace Isnad.ChainGraph.Search

open Finset

variable {g : ChainGraph} {s t : Search}

/-! ## Marks -/

theorem lt_of_mark {i : Nat} {m : Mark} (h : s.mark i = m) (hm : m ≠ .done) :
    i < s.marks.length := by
  by_contra hi
  apply hm
  simpa [mark, List.getD, List.getElem?_eq_none (Nat.le_of_not_lt hi)] using h.symm

/-- A mark that is set shows at its own index only. -/
theorem getD_set {marks : List Mark} {i j : Nat} {m : Mark} (hi : i < marks.length) :
    (marks.set i m).getD j .done = if j = i then m else marks.getD j .done := by
  rw [List.getD_eq_getElem?_getD, List.getElem?_set, List.getD_eq_getElem?_getD]
  split
  · rename_i h
    simp [← h]
  · rename_i h
    rw [if_neg (Ne.symm h)]

theorem mark_start {i : Nat} (hi : i < g.size) : (start g).mark i = .fresh := by
  simp [start, mark, List.getD_eq_getElem?_getD, hi]

theorem mark_push {i j : Nat} (hi : s.mark i = .fresh) :
    (s.push g i).mark j = if j = i then .onStack else s.mark j :=
  getD_set (lt_of_mark hi nofun)

@[simp] theorem stack_push (i : Nat) : (s.push g i).stack = ⟨i, g.childrenOf i⟩ :: s.stack := rfl

/-! ## Steps -/

/-- The search with `stack` for its stack. -/
def withStack (s : Search) (stack : List Frame) : Search := { s with stack }

@[simp] theorem stack_withStack (stack : List Frame) : (s.withStack stack).stack = stack := rfl

@[simp] theorem mark_withStack (stack : List Frame) (i : Nat) :
    (s.withStack stack).mark i = s.mark i := rfl

/-- The search with `node` done and `rest` for its stack. -/
def pop (s : Search) (node : Nat) (rest : List Frame) : Search :=
  { s with marks := s.marks.set node .done, stack := rest }

@[simp] theorem stack_pop (node : Nat) (rest : List Frame) : (s.pop node rest).stack = rest := rfl

theorem mark_pop {node i : Nat} {rest : List Frame} (hnode : s.mark node = .onStack) :
    (s.pop node rest).mark i = if i = node then .done else s.mark i :=
  getD_set (lt_of_mark hnode nofun)

/-- What a step does: it takes the innermost node off the stack, or it looks at one of its children,
which it puts on the stack, or reports a cycle through, or passes by. -/
theorem step_cases (h : s.step g = some t) :
    (∃ node rest, s.stack = ⟨node, []⟩ :: rest ∧ t = s.pop node rest) ∨
    ∃ node child unread rest, s.stack = ⟨node, child :: unread⟩ :: rest ∧
      let r := s.withStack (⟨node, unread⟩ :: rest)
      (s.mark child = .fresh ∧ t = r.push g child) ∨
      (s.mark child = .onStack ∧ t = { r with cycles := r.cycles ++ [closing r.trail child] }) ∨
      (s.mark child = .done ∧ t = r) := by
  unfold step at h
  split at h
  · cases h
  · rename_i node rest hs
    exact .inl ⟨node, rest, hs, (Option.some.inj h).symm⟩
  · rename_i node child unread rest hs
    refine .inr ⟨node, child, unread, rest, hs, ?_⟩
    dsimp only at h
    split at h
    · exact .inl ⟨‹_›, (Option.some.inj h).symm⟩
    · exact .inr (.inl ⟨‹_›, (Option.some.inj h).symm⟩)
    · exact .inr (.inr ⟨‹_›, (Option.some.inj h).symm⟩)

theorem step_eq_none_iff : s.step g = none ↔ s.stack = [] := by
  unfold step
  split
  · simp_all
  · simp_all
  · simp only [*]
    split <;> simp

/-! ## Work -/

/-- A step for each node that is still fresh, and for each of its children. -/
def freshWork (g : ChainGraph) (s : Search) : Nat :=
  ∑ i ∈ (range g.size).filter (s.mark · = .fresh), ((g.childrenOf i).length + 1)

/-- The steps that are left: those of fresh nodes, and one for each node on the stack and each child
of it not looked at yet. -/
def work (g : ChainGraph) (s : Search) : Nat :=
  (s.stack.map fun f => f.unread.length + 1).sum + s.freshWork g

@[simp] theorem freshWork_withStack (stack : List Frame) :
    (s.withStack stack).freshWork g = s.freshWork g := rfl

theorem work_start_le (g : ChainGraph) : (start g).work g ≤ budget g := by
  have hedges : ∑ i ∈ range g.size, (g.childrenOf i).length ≤ g.edgeCount := by
    rw [← unseenEdges_nil, unseenEdges]
    refine sum_le_sum_of_ne_zero fun i _ hi => ?_
    have hlt : i < g.children.length := by
      by_contra h
      exact hi (by simp [childrenOf_eq_nil (not_lt.mp h)])
    simpa using hlt
  calc (start g).work g ≤ ∑ i ∈ range g.size, ((g.childrenOf i).length + 1) := by
        simpa [work, freshWork, start] using sum_le_sum_of_subset (filter_subset _ _)
    _ = ∑ i ∈ range g.size, (g.childrenOf i).length + g.size := by
        rw [sum_add_distrib, ← card_eq_sum_ones, card_range]
    _ ≤ budget g := Nat.add_le_add_right hedges _

/-- Putting a fresh node on the stack moves its work there. -/
theorem work_push {i : Nat} (hs : s.marks.length = g.size) (hi : s.mark i = .fresh) :
    (s.push g i).work g = s.work g := by
  have herase : (range g.size).filter ((s.push g i).mark · = .fresh) =
      ((range g.size).filter (s.mark · = .fresh)).erase i := by
    ext j
    simp only [mem_filter, mem_erase, mark_push hi]
    split <;> simp_all
  have hmem : i ∈ (range g.size).filter (s.mark · = .fresh) :=
    mem_filter.mpr ⟨mem_range.mpr (hs ▸ lt_of_mark hi nofun), hi⟩
  have hsum : (s.push g i).freshWork g + ((g.childrenOf i).length + 1) = s.freshWork g := by
    rw [freshWork, herase]
    exact sum_erase_add _ (fun j => (g.childrenOf j).length + 1) hmem
  simp only [work, stack_push, List.map_cons, List.sum_cons]
  omega

/-- Every step uses up work. -/
theorem work_step (hs : s.marks.length = g.size) (h : s.step g = some t) :
    t.work g < s.work g := by
  obtain ⟨node, rest, hst, rfl⟩ | ⟨node, child, unread, rest, hst, ht⟩ := step_cases h
  · have hfresh : (range g.size).filter ((s.pop node rest).mark · = .fresh) ⊆
        (range g.size).filter (s.mark · = .fresh) := by
      intro i hi
      simp only [mem_filter, pop, mark, List.getD_eq_getElem?_getD, List.getElem?_set] at hi ⊢
      grind
    have hle : (s.pop node rest).freshWork g ≤ s.freshWork g := sum_le_sum_of_subset hfresh
    simp only [work, stack_pop, hst, List.map_cons, List.sum_cons, List.length_nil]
    omega
  · have hread : (s.withStack (⟨node, unread⟩ :: rest)).work g < s.work g := by
      simp only [work, freshWork_withStack, stack_withStack, hst, List.map_cons, List.sum_cons,
        List.length_cons]
      omega
    rcases ht with ⟨hf, rfl⟩ | ⟨-, rfl⟩ | ⟨-, rfl⟩
    · rwa [work_push (by exact hs) (by exact hf)]
    · exact hread
    · exact hread

/-! ## The stack is a path -/

/-- The stack holds a path of the graph, from its end to its start, and the nodes on it are those
marked so. -/
structure Valid (g : ChainGraph) (s : Search) : Prop where
  size_eq : s.marks.length = g.size
  unread : ∀ f ∈ s.stack, ∀ i ∈ f.unread, g.IsChild f.node i
  linked : s.stack.IsChain fun f f' => g.IsChild f'.node f.node
  onStack_iff : ∀ i, s.mark i = .onStack ↔ i ∈ s.stack.map Frame.node
  distinct : (s.stack.map Frame.node).Nodup

theorem Valid.child (h : Valid g s) {node child : Nat} {unread : List Nat} {rest : List Frame}
    (hst : s.stack = ⟨node, child :: unread⟩ :: rest) : g.IsChild node child := by
  have hmem : ⟨node, child :: unread⟩ ∈ s.stack := by simp [hst]
  exact h.unread _ hmem child List.mem_cons_self

theorem Valid.onStack_top (h : Valid g s) {f : Frame} {rest : List Frame}
    (hst : s.stack = f :: rest) : s.mark f.node = .onStack :=
  (h.onStack_iff f.node).mpr (by simp [hst])

theorem valid_start (g : ChainGraph) : Valid g (start g) where
  size_eq := List.length_replicate
  unread := by simp [start]
  linked := .nil
  onStack_iff i := by
    simp only [mark, start, List.getD_eq_getElem?_getD, List.getElem?_replicate, List.map_nil,
      List.not_mem_nil, iff_false]
    split <;> simp
  distinct := List.nodup_nil

theorem Valid.push (h : Valid g s) {i : Nat} (hi : s.mark i = .fresh)
    (hlink : ∀ f ∈ s.stack.head?, g.IsChild f.node i) : Valid g (s.push g i) where
  size_eq := by simpa [Search.push] using h.size_eq
  unread f hf j hj := by
    rcases List.mem_cons.mp hf with rfl | hf
    · exact hj
    · exact h.unread f hf j hj
  linked := List.isChain_cons.mpr ⟨hlink, h.linked⟩
  onStack_iff j := by
    rw [mark_push hi, stack_push, List.map_cons, List.mem_cons]
    split
    · simp_all
    · rw [h.onStack_iff j, or_iff_right ‹_›]
  distinct := by
    rw [stack_push, List.map_cons, List.nodup_cons]
    refine ⟨fun hmem => ?_, h.distinct⟩
    rw [(h.onStack_iff i).mpr hmem] at hi
    cases hi

/-- Reading a child leaves the path as it is. -/
theorem Valid.read (h : Valid g s) {node child : Nat} {unread : List Nat} {rest : List Frame}
    (hst : s.stack = ⟨node, child :: unread⟩ :: rest) :
    Valid g (s.withStack (⟨node, unread⟩ :: rest)) := by
  have hl := h.linked
  have hu := h.unread
  have hm := h.onStack_iff
  have hd := h.distinct
  rw [hst] at hl hu hm hd
  rw [List.isChain_cons] at hl
  refine ⟨h.size_eq, ?_, List.isChain_cons.mpr hl, hm, hd⟩
  intro f hf i hi
  rcases List.mem_cons.mp hf with rfl | hf
  · exact hu _ List.mem_cons_self i (List.mem_cons_of_mem _ hi)
  · exact hu f (List.mem_cons_of_mem _ hf) i hi

theorem Valid.step (h : Valid g s) (hstep : s.step g = some t) : Valid g t := by
  obtain ⟨node, rest, hst, rfl⟩ | ⟨node, child, unread, rest, hst, ht⟩ := step_cases hstep
  · have hd := h.distinct
    rw [hst, List.map_cons, List.nodup_cons] at hd
    have hl := h.linked
    rw [hst] at hl
    refine ⟨by simpa [pop] using h.size_eq, ?_, hl.tail, ?_, hd.2⟩
    · exact fun f hf => h.unread f (hst ▸ List.mem_cons_of_mem _ hf)
    · intro i
      have hi := h.onStack_iff i
      rw [hst, List.map_cons, List.mem_cons] at hi
      rw [mark_pop (h.onStack_top hst), stack_pop]
      split
      · rename_i heq
        simpa [heq] using hd.1
      · rename_i hne
        exact hi.trans (or_iff_right hne)
  · have hr := h.read hst
    rcases ht with ⟨hf, rfl⟩ | ⟨-, rfl⟩ | ⟨-, rfl⟩
    · refine hr.push hf fun f hf' => ?_
      cases Option.mem_some_iff.mp hf'
      exact h.child hst
    · exact ⟨hr.size_eq, hr.unread, hr.linked, hr.onStack_iff, hr.distinct⟩
    · exact hr

/-- The nodes of a path lead to its end. -/
theorem reaches_head {f : Frame} {rest : List Frame}
    (h : (f :: rest).IsChain fun f f' => g.IsChild f'.node f.node) {i : Nat}
    (hi : i ∈ (f :: rest).map Frame.node) : Relation.ReflTransGen g.IsChild i f.node := by
  induction rest generalizing f with
  | nil =>
    rw [List.map_singleton, List.mem_singleton] at hi
    exact hi ▸ .refl
  | cons f' rest ih =>
    rcases List.mem_cons.mp hi with rfl | hi
    · exact .refl
    · rw [List.isChain_cons_cons] at h
      exact .tail (ih h.2 hi) h.1

/-! ## The trail -/

theorem Valid.isChain_trail (h : Valid g s) : s.trail.IsChain g.IsChild := by
  rw [trail, List.isChain_reverse, List.isChain_map]
  exact h.linked

theorem Valid.nodup_trail (h : Valid g s) : s.trail.Nodup := List.nodup_reverse.mpr h.distinct

theorem Valid.mem_trail (h : Valid g s) {i : Nat} : i ∈ s.trail ↔ s.mark i = .onStack := by
  rw [trail, List.mem_reverse, h.onStack_iff]

theorem trail_eq {node : Nat} {unread : List Nat} {rest : List Frame}
    (h : s.stack = ⟨node, unread⟩ :: rest) :
    s.trail = (rest.map Frame.node).reverse ++ [node] := by
  rw [trail, h, List.map_cons, List.reverse_cons]

/-- Reading a child leaves the trail as it is. -/
theorem trail_withStack {node : Nat} {unread unread' : List Nat} {rest : List Frame}
    (h : s.stack = ⟨node, unread⟩ :: rest) :
    (s.withStack (⟨node, unread'⟩ :: rest)).trail = s.trail := by
  rw [trail_eq h, trail_eq (stack_withStack _)]

/-! ## Cycles are cycles -/

/-- On a graph without cycles a step reports none. -/
theorem cycles_step (hacyc : ∀ i, ¬ Relation.TransGen g.IsChild i i) (h : Valid g s)
    (hstep : s.step g = some t) : t.cycles = s.cycles := by
  obtain ⟨node, rest, -, rfl⟩ | ⟨node, child, unread, rest, hst, ht⟩ := step_cases hstep
  · rfl
  · rcases ht with ⟨-, rfl⟩ | ⟨hon, -⟩ | ⟨-, rfl⟩
    · rfl
    · have hmem := (h.onStack_iff child).mp hon
      have hl := h.linked
      rw [hst] at hmem hl
      exact absurd (.tail' (reaches_head hl hmem) (h.child hst)) (hacyc child)
    · rfl

/-- A run within its budget keeps what each step keeps and ends with an empty stack. -/
theorem run_induction {P : Search → Prop}
    (hP : ∀ s t, Valid g s → P s → s.step g = some t → P t) (n : Nat) (h : Valid g s) (hs : P s)
    (hn : s.work g ≤ n) :
    Valid g (s.run g n) ∧ P (s.run g n) ∧ (s.run g n).stack = [] ∧
      (s.run g n).work g ≤ s.work g := by
  induction n generalizing s with
  | zero =>
    refine ⟨h, hs, ?_, le_rfl⟩
    cases hst : s.stack with
    | nil => exact hst
    | cons f rest => simp [work, hst] at hn
  | succ n ih =>
    cases hstep : s.step g with
    | none =>
      rw [run, hstep]
      exact ⟨h, hs, step_eq_none_iff.mp hstep, le_rfl⟩
    | some t =>
      have hrun : s.run g (n + 1) = t.run g n := by rw [run, hstep]
      rw [hrun]
      have hlt := work_step h.size_eq hstep
      obtain ⟨hv, hp, he, hw⟩ := ih (h.step hstep) (hP s t h hs hstep) (by omega)
      exact ⟨hv, hp, he, by omega⟩

/-- The visit of a node keeps what pushing the node and each step keep. -/
theorem visit_induction {P : Search → Prop}
    (hpush : ∀ s i, Valid g s → P s → s.stack = [] → s.mark i = .fresh → P (s.push g i))
    (hP : ∀ s t, Valid g s → P s → s.step g = some t → P t) (i : Nat) (h : Valid g s) (hs : P s)
    (he : s.stack = []) (hw : s.work g ≤ budget g) :
    Valid g (s.visit g i) ∧ P (s.visit g i) ∧ (s.visit g i).stack = [] ∧
      (s.visit g i).work g ≤ budget g := by
  unfold visit
  split
  · rename_i hi
    have hpw := work_push h.size_eq hi
    obtain ⟨hv, hp, hst, hw'⟩ := run_induction hP (budget g) (h.push hi (by simp [he]))
      (hpush s i h hs he hi) (by omega)
    exact ⟨hv, hp, hst, by omega⟩
  · exact ⟨h, hs, he, hw⟩

/-- What the whole search keeps. -/
theorem search_induction {P : Search → Prop} (hstart : P (start g))
    (hpush : ∀ s i, Valid g s → P s → s.stack = [] → s.mark i = .fresh → P (s.push g i))
    (hP : ∀ s t, Valid g s → P s → s.step g = some t → P t) (is : List Nat) :
    P (is.foldl (visit g) (start g)) := by
  suffices h : ∀ s, Valid g s → P s → s.stack = [] → s.work g ≤ budget g →
      P (is.foldl (visit g) s) from h _ (valid_start g) hstart rfl (work_start_le g)
  induction is with
  | nil => exact fun s _ hs _ _ => hs
  | cons i is ih =>
    intro s hv hs he hw
    obtain ⟨hv', hs', he', hw'⟩ := visit_induction hpush hP i hv hs he hw
    exact ih _ hv' hs' he' hw'

end Search

/-- A graph without cycles has none reported. -/
theorem cycles_eq_nil {g : ChainGraph} (hacyc : ∀ i, ¬ Relation.TransGen g.IsChild i i) :
    g.cycles = [] := by
  refine Search.search_induction (P := fun s => s.cycles = []) rfl ?_ ?_ (List.range g.size)
  · exact fun s i _ hs _ _ => hs
  · exact fun s t hv hs hstep => (Search.cycles_step hacyc hv hstep).trans hs

end Isnad.ChainGraph
