import Isnad.Proofs.Chain.Search

/-!
# The events of the search for cycles

A step takes a node off the stack, or looks at an edge and perhaps puts its end on the stack. What
such an event changes is said by the nodes that are fresh, the nodes that are done and the edges
still to be looked at (`changes_step`). The first and the last of these only ever become fewer, and
the second more.
-/

namespace Isnad.ChainGraph

open Search

variable {g : ChainGraph} {s t : Search}

namespace Search

/-! ## Edges -/

/-- The edge from `i` to `j` was not looked at yet. -/
def Pending (s : Search) (i j : Nat) : Prop :=
  s.mark i = .fresh ∨ ∃ f ∈ s.stack, f.node = i ∧ j ∈ f.unread

theorem pending_iff_of_stack (h : s.stack = []) {i j : Nat} :
    s.Pending i j ↔ s.mark i = .fresh := by
  simp [Pending, h]

theorem pending_iff_of_cons {f : Frame} {rest : List Frame} (h : s.stack = f :: rest) {i j : Nat} :
    s.Pending i j ↔ s.mark i = .fresh ∨ (f.node = i ∧ j ∈ f.unread) ∨
      ∃ f' ∈ rest, f'.node = i ∧ j ∈ f'.unread := by
  simp only [Pending, h, List.mem_cons, or_and_right, exists_or, exists_eq_left]

/-- The edges of a node that is put on the stack are still to be looked at. -/
theorem pending_push {c i j : Nat} (hc : s.mark c = .fresh) (hij : g.IsChild i j) :
    (s.push g c).Pending i j ↔ s.Pending i j := by
  rw [pending_iff_of_cons (stack_push c), mark_push hc]
  by_cases hi : i = c
  · subst hi
    rw [if_pos rfl]
    exact ⟨fun _ => .inl hc, fun _ => .inr (.inl ⟨rfl, hij⟩)⟩
  · rw [if_neg hi]
    exact or_congr_right (or_iff_right fun h => hi h.1.symm)

/-- A node that is taken off the stack has no edges to be looked at. -/
theorem pending_pop {node : Nat} {rest : List Frame} (hst : s.stack = ⟨node, []⟩ :: rest)
    (hnode : s.mark node = .onStack) {i j : Nat} :
    (s.pop node rest).Pending i j ↔ s.Pending i j := by
  rw [pending_iff_of_cons hst, Pending, mark_pop hnode, stack_pop]
  by_cases hi : i = node
  · simp [hi, hnode]
  · simp [hi]

/-- Reading a child looks at its edge, and at no other. -/
theorem pending_read (hv : Valid g s) {node child : Nat} {unread : List Nat} {rest : List Frame}
    (hst : s.stack = ⟨node, child :: unread⟩ :: rest) (hnodup : (child :: unread).Nodup)
    {i j : Nat} :
    (s.withStack (⟨node, unread⟩ :: rest)).Pending i j ↔
      s.Pending i j ∧ ¬(i = node ∧ j = child) := by
  have hon : s.mark node = .onStack := hv.onStack_top hst
  have hdistinct := hv.distinct
  rw [hst, List.map_cons, List.nodup_cons] at hdistinct
  have hrest : ∀ f ∈ rest, f.node ≠ node := fun f hf heq =>
    hdistinct.1 (List.mem_map.mpr ⟨f, hf, heq⟩)
  rw [pending_iff_of_cons hst, pending_iff_of_cons (stack_withStack _), mark_withStack]
  rw [List.nodup_cons] at hnodup
  constructor
  · rintro (hfresh | ⟨rfl, hj⟩ | ⟨f, hf, rfl, hj⟩)
    · refine ⟨.inl hfresh, ?_⟩
      rintro ⟨rfl, -⟩
      cases hon.symm.trans hfresh
    · refine ⟨.inr (.inl ⟨rfl, List.mem_cons_of_mem _ hj⟩), ?_⟩
      rintro ⟨-, rfl⟩
      exact hnodup.1 hj
    · exact ⟨.inr (.inr ⟨f, hf, rfl, hj⟩), fun h => hrest f hf h.1⟩
  · rintro ⟨hfresh | ⟨rfl, hj⟩ | hlater, hne⟩
    · exact .inl hfresh
    · refine .inr (.inl ⟨rfl, (List.mem_cons.mp hj).resolve_left fun heq => hne ⟨rfl, heq⟩⟩)
    · exact .inr (.inr hlater)

end Search

/-! ## Events -/

/-- What the search does from one state to the next. -/
inductive Event where
  /-- Passes over a start that was met before. -/
  | skip (i : Nat)
  /-- Puts a start on the stack. -/
  | enter (i : Nat)
  /-- Looks at the edge from `i` to `j`, and puts `j` on the stack if its mark is fresh. -/
  | look (i j : Nat) (mark : Mark)
  /-- Takes a node off the stack. -/
  | leave (i : Nat)

namespace Event

/-- The node that is put on the stack. -/
def entered? : Event → Option Nat
  | .enter i => some i
  | .look _ j .fresh => some j
  | _ => none

/-- The edge that is looked at. -/
def looked? : Event → Option (Nat × Nat)
  | .look i j _ => some (i, j)
  | _ => none

/-- The node that is taken off the stack. -/
def left? : Event → Option Nat
  | .leave i => some i
  | _ => none

theorem entered?_look (i j : Nat) (m : Mark) :
    (look i j m).entered? = if m = .fresh then some j else none := by
  cases m <;> rfl

end Event

/-- What the next step does. -/
def Search.event? (s : Search) : Option Event :=
  match s.stack with
  | [] => none
  | ⟨i, []⟩ :: _ => some (.leave i)
  | ⟨i, j :: _⟩ :: _ => some (.look i j (s.mark j))

/-- What an event asks of the state before it, and in what the state after it differs. -/
structure Changes (g : ChainGraph) (s : Search) (e : Event) (t : Search) : Prop where
  fresh_of_entered : ∀ i, e.entered? = some i → s.mark i = .fresh
  onStack_of_left : ∀ i, e.left? = some i → s.mark i = .onStack
  pending_of_looked : ∀ i j, e.looked? = some (i, j) → g.IsChild i j ∧ s.Pending i j
  entered_of_looked : ∀ i j, e.looked? = some (i, j) → s.mark j = .fresh → e.entered? = some j
  fresh_iff : ∀ i, t.mark i = .fresh ↔ s.mark i = .fresh ∧ e.entered? ≠ some i
  done_iff : ∀ i, t.mark i = .done ↔ s.mark i = .done ∨ e.left? = some i
  pending_iff : ∀ i j, g.IsChild i j →
    (t.Pending i j ↔ s.Pending i j ∧ e.looked? ≠ some (i, j))

theorem changes_skip (s : Search) (i : Nat) : Changes g s (.skip i) s where
  fresh_of_entered j hj := by cases hj
  onStack_of_left j hj := by cases hj
  pending_of_looked j k hjk := by cases hjk
  entered_of_looked j k hjk := by cases hjk
  fresh_iff j := by simp [Event.entered?]
  done_iff j := by simp [Event.left?]
  pending_iff j k _ := by simp [Event.looked?]

theorem changes_enter {i : Nat} (hi : s.mark i = .fresh) :
    Changes g s (.enter i) (s.push g i) where
  fresh_of_entered j hj := by
    cases hj
    exact hi
  onStack_of_left j hj := by cases hj
  pending_of_looked j k hjk := by cases hjk
  entered_of_looked j k hjk := by cases hjk
  fresh_iff j := by
    rw [mark_push hi]
    by_cases hji : j = i
    · simp [hji, Event.entered?]
    · simp [hji, Event.entered?, Ne.symm hji]
  done_iff j := by
    rw [mark_push hi]
    by_cases hji : j = i
    · simp [hji, hi, Event.left?]
    · simp [hji, Event.left?]
  pending_iff j k hjk := by simp [pending_push hi hjk, Event.looked?]

theorem changes_leave {node : Nat} {rest : List Frame} (hst : s.stack = ⟨node, []⟩ :: rest)
    (hnode : s.mark node = .onStack) : Changes g s (.leave node) (s.pop node rest) where
  fresh_of_entered j hj := by cases hj
  onStack_of_left j hj := by
    cases hj
    exact hnode
  pending_of_looked j k hjk := by cases hjk
  entered_of_looked j k hjk := by cases hjk
  fresh_iff j := by
    rw [mark_pop hnode]
    by_cases hj : j = node
    · simp [hj, hnode]
    · simp [hj, Event.entered?]
  done_iff j := by
    rw [mark_pop hnode]
    by_cases hj : j = node
    · simp [hj, Event.left?]
    · simp [hj, Ne.symm hj, Event.left?]
  pending_iff j k _ := by simp [pending_pop hst hnode, Event.looked?]

/-- Looking at an edge puts its end on the stack if it was fresh, and changes nothing else but the
edge itself. -/
theorem changes_look (hv : Valid g s) {node child : Nat} {unread : List Nat} {rest : List Frame}
    (hst : s.stack = ⟨node, child :: unread⟩ :: rest) (hnodup : (child :: unread).Nodup)
    (hmark : ∀ i, t.mark i = if s.mark child = .fresh ∧ i = child then .onStack else s.mark i)
    (hpending : ∀ i j, g.IsChild i j →
      (t.Pending i j ↔ (s.withStack (⟨node, unread⟩ :: rest)).Pending i j)) :
    Changes g s (.look node child (s.mark child)) t where
  fresh_of_entered j hj := by
    rw [Event.entered?_look] at hj
    split at hj
    · cases hj
      assumption
    · cases hj
  onStack_of_left j hj := by cases hj
  pending_of_looked i j hij := by
    cases hij
    refine ⟨hv.child hst, .inr ⟨⟨node, child :: unread⟩, ?_, rfl, List.mem_cons_self⟩⟩
    exact hst ▸ List.mem_cons_self
  entered_of_looked i j hij hj := by
    cases hij
    rw [Event.entered?_look, if_pos hj]
  fresh_iff j := by
    rw [hmark, Event.entered?_look]
    by_cases hc : s.mark child = .fresh
    · by_cases hj : j = child
      · simp [hc, hj]
      · simp [hc, hj, Ne.symm hj]
    · simp [hc]
  done_iff j := by
    rw [hmark]
    split
    · rename_i hj
      simp [hj.1, hj.2, Event.left?]
    · simp [Event.left?]
  pending_iff i j hij := by
    rw [hpending i j hij, pending_read hv hst hnodup]
    simp [Event.looked?, eq_comm]

theorem changes_step (hv : Valid g s) (hnodup : ∀ f ∈ s.stack, f.unread.Nodup) {e : Event}
    (he : s.event? = some e) (h : s.step g = some t) : Changes g s e t := by
  rcases step_cases h with ⟨node, rest, hst, rfl⟩ | ⟨node, child, unread, rest, hst, ht⟩
  · obtain rfl : .leave node = e := by simpa [event?, hst] using he
    exact changes_leave hst (hv.onStack_top hst)
  · obtain rfl : .look node child (s.mark child) = e := by simpa [event?, hst] using he
    have htop : (child :: unread).Nodup := hnodup ⟨node, child :: unread⟩ (hst ▸ List.mem_cons_self)
    rcases ht with ⟨hc, rfl⟩ | hmet
    · have hc' : (s.withStack (⟨node, unread⟩ :: rest)).mark child = .fresh := hc
      apply changes_look hv hst htop
      · intro i
        rw [mark_push hc']
        simp [hc]
      · intro i j hij
        exact pending_push hc' hij
    · -- A report of a cycle changes neither the marks nor the stack.
      obtain ⟨hc, hmarks, hstack⟩ : s.mark child ≠ .fresh ∧ t.marks = s.marks ∧
          t.stack = ⟨node, unread⟩ :: rest := by
        rcases hmet with ⟨hc, rfl⟩ | ⟨hc, rfl⟩
        · exact ⟨by simp [hc], rfl, rfl⟩
        · exact ⟨by simp [hc], rfl, rfl⟩
      apply changes_look hv hst htop
      · intro i
        rw [if_neg (by simp [hc]), mark, hmarks, mark]
      · intro i j _
        rw [Pending, Pending, mark, hmarks, hstack]
        rfl

/-- A cycle is reported from the place on that the look-up of its last node finds. -/
theorem exists_place_of_look (hv : Valid g s) {i j : Nat}
    (he : s.event? = some (.look i j .onStack)) (h : s.step g = some t) :
    ∃ k, s.trail.idxOf? j = some k ∧ t.cycles = s.cycles ++ [s.trail.drop k ++ [j]] := by
  rcases step_cases h with ⟨node, rest, hst, rfl⟩ | ⟨node, child, unread, rest, hst, ht⟩
  · simp [event?, hst] at he
  · obtain ⟨-, rfl, hon⟩ : node = i ∧ child = j ∧ s.mark child = .onStack := by
      simpa [event?, hst] using he
    obtain ⟨k, hk⟩ := Option.isSome_iff_exists.mp
      (List.isSome_idxOf?.mpr (hv.mem_trail.mpr hon))
    refine ⟨k, hk, ?_⟩
    rcases ht with ⟨hm, -⟩ | ⟨-, rfl⟩ | ⟨hm, -⟩
    · cases hon.symm.trans hm
    · dsimp only
      rw [trail_withStack hst, closing, hk]
      rfl
    · cases hon.symm.trans hm

end Isnad.ChainGraph
