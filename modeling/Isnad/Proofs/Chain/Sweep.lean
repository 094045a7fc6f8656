import Isnad.Proofs.Chain.Parents

/-!
# The course of the search for cycles

The search is followed without a bound on its steps, from start to start, with a record of its
events (`Sweep.Trace`). No record is longer than what there is to do, so the search ends, and between
two starts it is where the search within its budget is (`Sweep.Recorded`). The record shows that no
node is put on the stack twice and no edge looked at twice, and at the end none was left out
(`sweepsOnce_ofLinks`).
-/

namespace Isnad

/-- A list of all that has a property, each once. -/
structure ListsOnce {α : Type} (l : List α) (P : α → Prop) : Prop where
  nodup : l.Nodup
  mem_iff : ∀ a, a ∈ l ↔ P a

namespace ListsOnce

variable {α β : Type} {l : List α} {P Q : α → Prop}

theorem congr (h : ListsOnce l P) (hPQ : ∀ a, P a ↔ Q a) : ListsOnce l Q :=
  ⟨h.nodup, fun a => (h.mem_iff a).trans (hPQ a)⟩

/-- What a record shows after one more entry. -/
theorem filterMap_concat {f : β → Option α} {bs : List β} {b : β}
    (h : ListsOnce (bs.filterMap f) P) (hnew : ∀ a, f b = some a → ¬ P a)
    (hQ : ∀ a, Q a ↔ P a ∨ f b = some a) : ListsOnce ((bs ++ [b]).filterMap f) Q := by
  rw [List.filterMap_append]
  cases hb : f b with
  | none =>
    rw [List.filterMap_cons_none hb, List.filterMap_nil, List.append_nil]
    exact h.congr fun a => by simp [hQ, hb]
  | some a =>
    rw [List.filterMap_cons_some hb, List.filterMap_nil]
    refine ⟨?_, fun c => ?_⟩
    · rw [← List.concat_eq_append]
      exact h.nodup.concat fun ha => hnew a hb ((h.mem_iff a).mp ha)
    · rw [List.mem_append, List.mem_singleton, h.mem_iff, hQ, hb, Option.some.injEq]
      exact or_congr_right eq_comm

end ListsOnce

namespace ChainGraph

open Relation Search

/-- The search on its way: its state, and the nodes from which it has still to start. -/
structure Sweep where
  search : Search
  starts : List Nat

namespace Sweep

/-- The search takes a step, or goes to the next start when the stack is empty. -/
inductive Next (g : ChainGraph) : Sweep → Event → Sweep → Prop where
  | skip {s : Search} {i : Nat} {is : List Nat} (hs : s.stack = []) (hi : s.mark i ≠ .fresh) :
    Next g ⟨s, i :: is⟩ (.skip i) ⟨s, is⟩
  | enter {s : Search} {i : Nat} {is : List Nat} (hs : s.stack = []) (hi : s.mark i = .fresh) :
    Next g ⟨s, i :: is⟩ (.enter i) ⟨s.push g i, is⟩
  | step {s t : Search} {e : Event} {is : List Nat} (he : s.event? = some e)
    (hstep : s.step g = some t) : Next g ⟨s, is⟩ e ⟨t, is⟩

/-- The events that lead from the beginning of the search to a point on its way. -/
inductive Trace (g : ChainGraph) : List Event → Sweep → Prop where
  | nil : Trace g [] ⟨start g, List.range g.size⟩
  | concat {es : List Event} {p q : Sweep} {e : Event} (h : Trace g es p) (hnext : p.Next g e q) :
    Trace g (es ++ [e]) q

end Sweep

variable {g : ChainGraph} {s t : Search} {e : Event} {es : List Event} {p q : Sweep}

/-! ## The budget -/

namespace Search

theorem run_of_stack (h : s.stack = []) (n : Nat) : s.run g n = s := by
  cases n with
  | zero => rfl
  | succ n => rw [run, step_eq_none_iff.mpr h]

/-- A budget that suffices may be any. -/
theorem run_congr {m n : Nat} (hv : Valid g s) (hm : s.work g ≤ m) (hn : s.work g ≤ n) :
    s.run g m = s.run g n := by
  induction m generalizing s n with
  | zero =>
    cases hs : s.stack with
    | nil => rw [run_of_stack hs, run_of_stack hs]
    | cons f rest => simp [work, hs] at hm
  | succ m ih =>
    cases hstep : s.step g with
    | none =>
      have hs := step_eq_none_iff.mp hstep
      rw [run_of_stack hs, run_of_stack hs]
    | some t =>
      have hlt := work_step hv.size_eq hstep
      cases n with
      | zero => omega
      | succ n =>
        rw [run, run, hstep]
        exact ih (hv.step hstep) (by omega) (by omega)

theorem run_step (hv : Valid g s) (hw : s.work g ≤ budget g) (hstep : s.step g = some t) :
    s.run g (budget g) = t.run g (budget g) := by
  have hlt := work_step hv.size_eq hstep
  rw [run_congr hv hw (Nat.le_succ_of_le hw), run, hstep]

theorem exists_event? (h : s.step g = some t) : ∃ e, s.event? = some e := by
  rcases step_cases h with ⟨node, rest, hst, -⟩ | ⟨node, child, unread, rest, hst, -⟩
  · exact ⟨.leave node, by simp [event?, hst]⟩
  · exact ⟨.look node child (s.mark child), by simp [event?, hst]⟩

end Search

namespace Sweep

/-! ## Every point on the way -/

/-- What holds of the search at every point on its way. -/
structure Sound (g : ChainGraph) (p : Sweep) : Prop where
  valid : Valid g p.search
  unread : ∀ f ∈ p.search.stack, f.unread.Nodup
  work : p.search.work g ≤ budget g
  closed : ∀ i j, g.IsChild i j → p.search.mark j = .fresh → p.search.Pending i j
  met : ∀ i < g.size, i ∉ p.starts → p.search.mark i ≠ .fresh

theorem sound_start (hg : g.SingleParents) : Sound g ⟨start g, List.range g.size⟩ where
  valid := valid_start g
  unread f hf := by cases hf
  work := work_start_le g
  closed i j hij _ := .inl (mark_start (hg.lt i j hij).1)
  met i hi hmem := absurd (List.mem_range.mpr hi) hmem

theorem Next.changes (h : Sound g p) (hnext : p.Next g e q) : Changes g p.search e q.search := by
  cases hnext with
  | skip hs hi => exact changes_skip _ _
  | enter hs hi => exact changes_enter hi
  | step he hstep => exact changes_step h.valid h.unread he hstep

/-- Only starts that are met are passed over. -/
theorem Next.mem_starts (hnext : p.Next g e q) {i : Nat} (hp : i ∈ p.starts) (hq : i ∉ q.starts) :
    q.search.mark i ≠ .fresh := by
  cases hnext with
  | skip hs hi =>
    obtain rfl := (List.mem_cons.mp hp).resolve_right hq
    exact hi
  | enter hs hi =>
    obtain rfl := (List.mem_cons.mp hp).resolve_right hq
    rw [mark_push hi, if_pos rfl]
    exact nofun
  | step he hstep => exact absurd hp hq

/-- What is kept by putting a start on the stack and by every step is kept on the way. -/
theorem Next.keeps {P : Search → Prop} (hnext : p.Next g e q) (h : P p.search)
    (hpush : ∀ i, p.search.stack = [] → p.search.mark i = .fresh → P (p.search.push g i))
    (hstep : ∀ t, p.search.step g = some t → P t) : P q.search := by
  cases hnext with
  | skip hs hi => exact h
  | enter hs hi => exact hpush _ hs hi
  | step he ht => exact hstep _ ht

theorem Sound.next (hg : g.SingleParents) (h : Sound g p) (hnext : p.Next g e q) : Sound g q where
  valid := hnext.keeps h.valid (fun _ hs hi => h.valid.push hi (by simp [hs]))
    fun _ hstep => h.valid.step hstep
  unread := by
    refine hnext.keeps (P := fun s => ∀ f ∈ s.stack, f.unread.Nodup) h.unread (fun i _ _ => ?_)
      fun _ hstep => nodup_unread_step hg h.unread hstep
    exact List.forall_mem_cons.mpr ⟨hg.nodup i, h.unread⟩
  work := by
    refine hnext.keeps (P := fun s => s.work g ≤ budget g) h.work (fun _ _ hi => ?_)
      fun _ hstep => (work_step h.valid.size_eq hstep).le.trans h.work
    exact (work_push h.valid.size_eq hi).trans_le h.work
  closed i j hij hj := by
    have hc := hnext.changes h
    obtain ⟨hbefore, hentered⟩ := (hc.fresh_iff j).mp hj
    refine (hc.pending_iff i j hij).mpr ⟨h.closed i j hij hbefore, fun hlooked => ?_⟩
    exact hentered (hc.entered_of_looked i j hlooked hbefore)
  met i hi hq := by
    by_cases hp : i ∈ p.starts
    · exact hnext.mem_starts hp hq
    · intro hfresh
      exact h.met i hi hp (((hnext.changes h).fresh_iff i).mp hfresh).1

/-- Between two starts, what a former start leads to is done. -/
theorem Sound.done_of_reaches (h : Sound g p) (hs : p.search.stack = []) {i j : Nat}
    (hi : i < g.size) (hstart : i ∉ p.starts) (hij : ReflTransGen g.IsChild i j) :
    p.search.mark j = .done := by
  have hmet : p.search.mark j ≠ .fresh := by
    induction hij with
    | refl => exact h.met i hi hstart
    | tail _ hbc ih =>
      intro hfresh
      exact ih ((pending_iff_of_stack hs).mp (h.closed _ _ hbc hfresh))
  have hoff : p.search.mark j ≠ .onStack := by
    rw [ne_eq, h.valid.onStack_iff, hs]
    exact List.not_mem_nil
  cases hm : p.search.mark j with
  | fresh => exact absurd hm hmet
  | onStack => exact absurd hm hoff
  | done => rfl

theorem exists_next (h : p.search.stack ≠ [] ∨ p.starts ≠ []) : ∃ e q, p.Next g e q := by
  obtain ⟨s, is⟩ := p
  cases hstep : s.step g with
  | some t =>
    obtain ⟨e, he⟩ := exists_event? hstep
    exact ⟨e, ⟨t, is⟩, .step he hstep⟩
  | none =>
    have hs := step_eq_none_iff.mp hstep
    cases is with
    | nil => exact absurd h (by simp [hs])
    | cons i is =>
      by_cases hi : s.mark i = .fresh
      · exact ⟨_, _, .enter hs hi⟩
      · exact ⟨_, _, .skip hs hi⟩

/-! ## Records -/

/-- What the record of the search shows at a point on its way. -/
structure Recorded (g : ChainGraph) (es : List Event) (p : Sweep) : Prop where
  sound : Sound g p
  entered : ListsOnce (es.filterMap Event.entered?) fun i =>
    i < g.size ∧ p.search.mark i ≠ .fresh
  left : ListsOnce (es.filterMap Event.left?) fun i => i < g.size ∧ p.search.mark i = .done
  looked : ListsOnce (es.filterMap Event.looked?) fun x =>
    g.IsChild x.1 x.2 ∧ ¬ p.search.Pending x.1 x.2
  /-- What was done and what is to be done yet. -/
  length_le : es.length + p.starts.length + p.search.work g ≤ budget g + g.size
  /-- The visit under way ends where the visits so far lead to. -/
  visited : ∃ is, is ++ p.starts = List.range g.size ∧
    p.search.run g (budget g) = is.foldl (visit g) (start g)

theorem recorded_start (hg : g.SingleParents) : Recorded g [] ⟨start g, List.range g.size⟩ where
  sound := sound_start hg
  entered := by
    refine ⟨List.nodup_nil, fun i => ?_⟩
    simpa using mark_start
  left := by
    refine ⟨List.nodup_nil, fun i => ?_⟩
    simpa using fun hi => by simp [mark_start hi]
  looked := by
    refine ⟨List.nodup_nil, fun x => ?_⟩
    have hpending (hx : g.IsChild x.1 x.2) : (start g).Pending x.1 x.2 :=
      .inl (mark_start (hg.lt _ _ hx).1)
    simpa using hpending
  length_le := by
    have hwork := work_start_le g
    simp only [List.length_nil, List.length_range]
    omega
  visited := ⟨[], rfl, run_of_stack rfl _⟩

theorem Next.length_add_lt (h : Sound g p) (hnext : p.Next g e q) :
    q.starts.length + q.search.work g < p.starts.length + p.search.work g := by
  cases hnext with
  | skip hs hi => simp
  | @enter s i is hs hi =>
    have hpush : (s.push g i).work g = s.work g := work_push h.valid.size_eq hi
    simp only [List.length_cons]
    omega
  | @step s t _ is he hstep =>
    have hlt : t.work g < s.work g := work_step h.valid.size_eq hstep
    exact Nat.add_lt_add_left hlt is.length

/-- A visit is over when the next one begins, and a step is part of the visit. -/
theorem Next.visited (h : Sound g p) (hnext : p.Next g e q) {is : List Nat}
    (his : is ++ p.starts = List.range g.size)
    (hrun : p.search.run g (budget g) = is.foldl (visit g) (start g)) :
    ∃ is, is ++ q.starts = List.range g.size ∧
      q.search.run g (budget g) = is.foldl (visit g) (start g) := by
  cases hnext with
  | @skip s i _ hs hi =>
    rw [run_of_stack hs] at hrun
    refine ⟨is ++ [i], by simpa using his, ?_⟩
    rw [List.foldl_append, ← hrun, run_of_stack hs]
    simp [visit, hi]
  | @enter s i _ hs hi =>
    rw [run_of_stack hs] at hrun
    refine ⟨is ++ [i], by simpa using his, ?_⟩
    rw [List.foldl_append, ← hrun]
    simp [visit, hi]
  | step he hstep => exact ⟨is, his, run_step h.valid h.work hstep ▸ hrun⟩

theorem Recorded.next (hg : g.SingleParents) (h : Recorded g es p) (hnext : p.Next g e q) :
    Recorded g (es ++ [e]) q where
  sound := h.sound.next hg hnext
  entered := by
    have hc := hnext.changes h.sound
    have hlt (i : Nat) (hi : e.entered? = some i) : i < g.size :=
      h.sound.valid.size_eq ▸ lt_of_mark (hc.fresh_of_entered i hi) nofun
    refine h.entered.filterMap_concat (fun i hi hmet => ?_) fun i => ?_
    · exact hmet.2 (hc.fresh_of_entered i hi)
    · have hi := hlt i
      rw [ne_eq, hc.fresh_iff]
      tauto
  left := by
    have hc := hnext.changes h.sound
    have hlt (i : Nat) (hi : e.left? = some i) : i < g.size :=
      h.sound.valid.size_eq ▸ lt_of_mark (hc.onStack_of_left i hi) nofun
    refine h.left.filterMap_concat (fun i hi hdone => ?_) fun i => ?_
    · cases (hc.onStack_of_left i hi).symm.trans hdone.2
    · have hi := hlt i
      rw [hc.done_iff]
      tauto
  looked := by
    have hc := hnext.changes h.sound
    refine h.looked.filterMap_concat (fun x hx hseen => ?_) fun x => ?_
    · exact hseen.2 (hc.pending_of_looked x.1 x.2 hx).2
    · have hx := hc.pending_of_looked x.1 x.2
      constructor
      · rintro ⟨hedge, hpending⟩
        rw [hc.pending_iff _ _ hedge] at hpending
        tauto
      · rintro (⟨hedge, hpending⟩ | hlooked)
        · exact ⟨hedge, fun hq => hpending ((hc.pending_iff _ _ hedge).mp hq).1⟩
        · exact ⟨(hx hlooked).1, fun hq => ((hc.pending_iff _ _ (hx hlooked).1).mp hq).2 hlooked⟩
  length_le := by
    have hlt := hnext.length_add_lt h.sound
    have hle := h.length_le
    rw [List.length_append, List.length_singleton]
    omega
  visited := by
    obtain ⟨is, his, hrun⟩ := h.visited
    exact hnext.visited h.sound his hrun

theorem Trace.recorded (hg : g.SingleParents) (h : Trace g es p) : Recorded g es p := by
  induction h with
  | nil => exact recorded_start hg
  | concat _ hnext ih => exact ih.next hg hnext

/-- From every point on its way the search gets to its end. -/
theorem Trace.exists_end (hg : g.SingleParents) (h : Trace g es p) :
    ∃ es' q, Trace g (es ++ es') q ∧ q.search.stack = [] ∧ q.starts = [] := by
  -- The induction is on what is left: starts, fresh nodes, the stack and its unread edges.
  induction hn : p.starts.length + p.search.work g using Nat.strong_induction_on
    generalizing es p with
  | _ n ih =>
    by_cases hleft : p.search.stack ≠ [] ∨ p.starts ≠ []
    · obtain ⟨e, q, hnext⟩ := exists_next (g := g) hleft
      have hlt := hnext.length_add_lt (h.recorded hg).sound
      obtain ⟨es', r, hr, hend⟩ := ih _ (hn ▸ hlt) (h.concat hnext) rfl
      rw [List.append_assoc] at hr
      exact ⟨_, r, hr, hend⟩
    · rw [not_or, not_not, not_not] at hleft
      exact ⟨[], p, (List.append_nil es).symm ▸ h, hleft⟩

end Sweep

open Sweep

/-- The search comes to its end, and on its way it deals with every node and every edge once. -/
structure SweepsOnce (g : ChainGraph) : Prop where
  /-- There is a bound on what the search does, and from everywhere it gets to its end. -/
  length_le : ∀ {es p}, Trace g es p → es.length ≤ g.edgeCount + 2 * g.size
  exists_end : ∀ {es p}, Trace g es p →
    ∃ es' q, Trace g (es ++ es') q ∧ q.search.stack = [] ∧ q.starts = []
  /-- A step looks at an edge for the first time, or takes a node off the stack for the first. -/
  uses : ∀ {es s t is}, Trace g es ⟨s, is⟩ → s.step g = some t →
    (∃ i j m, Next g ⟨s, is⟩ (.look i j m) ⟨t, is⟩ ∧ (i, j) ∉ es.filterMap Event.looked?) ∨
      ∃ i, Next g ⟨s, is⟩ (.leave i) ⟨t, is⟩ ∧ i ∉ es.filterMap Event.left?
  /-- The nodes put on the stack so far are those met, none of them twice. -/
  entered : ∀ {es p}, Trace g es p →
    ListsOnce (es.filterMap Event.entered?) fun i => i < g.size ∧ p.search.mark i ≠ .fresh
  /-- The nodes taken off the stack so far are those done, none of them twice. -/
  left : ∀ {es p}, Trace g es p →
    ListsOnce (es.filterMap Event.left?) fun i => i < g.size ∧ p.search.mark i = .done
  /-- The edges looked at so far are those neither of fresh nodes nor unread on the stack, none of
  them twice. -/
  looked : ∀ {es p}, Trace g es p → ListsOnce (es.filterMap Event.looked?) fun x =>
    g.IsChild x.1 x.2 ∧ ¬ p.search.Pending x.1 x.2
  onStack_iff : ∀ {es p}, Trace g es p → ∀ i, p.search.mark i = .onStack ↔ i ∈ p.search.trail
  linked : ∀ {es p}, Trace g es p → p.search.trail.IsChain g.IsChild
  /-- An edge to a node on the stack closes the cycle that starts at the place of that node. -/
  exists_place : ∀ {es p q i j}, Trace g es p → p.Next g (.look i j .onStack) q →
    ∃ k, p.search.trail.idxOf? j = some k ∧
      q.search.cycles = p.search.cycles ++ [p.search.trail.drop k ++ [j]]
  /-- When the search from a start is over, all that the start leads to is done. -/
  done_of_reaches : ∀ {es p}, Trace g es p → p.search.stack = [] → ∀ i < g.size, i ∉ p.starts →
    ∀ j, ReflTransGen g.IsChild i j → p.search.mark j = .done
  /-- Then the search is where visits within the budget lead to. -/
  visited : ∀ {es p}, Trace g es p → p.search.stack = [] →
    ∃ is, is ++ p.starts = List.range g.size ∧ p.search = is.foldl (visit g) (start g)
  /-- At the end every node was put on the stack and taken off it once, and every edge was looked at
  once. -/
  once : ∀ {es p}, Trace g es p → p.search.stack = [] → p.starts = [] →
    p.search.cycles = g.cycles ∧ ListsOnce (es.filterMap Event.entered?) (· < g.size) ∧
      ListsOnce (es.filterMap Event.left?) (· < g.size) ∧
      ListsOnce (es.filterMap Event.looked?) fun x => g.IsChild x.1 x.2

namespace Sweep

theorem Trace.uses (hg : g.SingleParents) {is : List Nat} (h : Trace g es ⟨s, is⟩)
    (hstep : s.step g = some t) :
    (∃ i j m, Next g ⟨s, is⟩ (.look i j m) ⟨t, is⟩ ∧ (i, j) ∉ es.filterMap Event.looked?) ∨
      ∃ i, Next g ⟨s, is⟩ (.leave i) ⟨t, is⟩ ∧ i ∉ es.filterMap Event.left? := by
  have hr := h.recorded hg
  rcases step_cases hstep with ⟨i, rest, hst, -⟩ | ⟨i, j, unread, rest, hst, -⟩
  · have hnext : Next g ⟨s, is⟩ (.leave i) ⟨t, is⟩ := .step (by simp [event?, hst]) hstep
    refine .inr ⟨i, hnext, fun hi => ?_⟩
    have hon := (hnext.changes hr.sound).onStack_of_left i rfl
    cases hon.symm.trans ((hr.left.mem_iff i).mp hi).2
  · have hnext : Next g ⟨s, is⟩ (.look i j (s.mark j)) ⟨t, is⟩ :=
      .step (by simp [event?, hst]) hstep
    refine .inl ⟨i, j, s.mark j, hnext, fun hij => ?_⟩
    have hpending := ((hnext.changes hr.sound).pending_of_looked i j rfl).2
    exact ((hr.looked.mem_iff (i, j)).mp hij).2 hpending

theorem Recorded.once (hg : g.SingleParents) (h : Recorded g es p) (hs : p.search.stack = [])
    (hstarts : p.starts = []) :
    p.search.cycles = g.cycles ∧ ListsOnce (es.filterMap Event.entered?) (· < g.size) ∧
      ListsOnce (es.filterMap Event.left?) (· < g.size) ∧
      ListsOnce (es.filterMap Event.looked?) fun x => g.IsChild x.1 x.2 := by
  have hdone {i : Nat} (hi : i < g.size) : p.search.mark i = .done :=
    h.sound.done_of_reaches hs hi (by simp [hstarts]) .refl
  refine ⟨?_, h.entered.congr fun i => ?_, h.left.congr fun i => ?_, h.looked.congr fun x => ?_⟩
  · obtain ⟨is, his, hrun⟩ := h.visited
    rw [hstarts, List.append_nil] at his
    rw [run_of_stack hs, his] at hrun
    rw [hrun, cycles]
  · exact and_iff_left_of_imp fun hi => by simp [hdone hi]
  · exact and_iff_left_of_imp hdone
  · refine and_iff_left_of_imp fun hx => ?_
    rw [pending_iff_of_stack hs, hdone (hg.lt _ _ hx).1]
    exact nofun

end Sweep

theorem SingleParents.sweepsOnce (hg : g.SingleParents) : SweepsOnce g where
  length_le h := by
    have hle := (h.recorded hg).length_le
    rw [budget] at hle
    omega
  exists_end h := h.exists_end hg
  uses h hstep := h.uses hg hstep
  entered h := (h.recorded hg).entered
  left h := (h.recorded hg).left
  looked h := (h.recorded hg).looked
  onStack_iff h i := (h.recorded hg).sound.valid.mem_trail.symm
  linked h := (h.recorded hg).sound.valid.isChain_trail
  exists_place h hnext := by
    cases hnext with
    | step he hstep => exact exists_place_of_look (h.recorded hg).sound.valid he hstep
  done_of_reaches h hs i hi hstart j hij := (h.recorded hg).sound.done_of_reaches hs hi hstart hij
  visited h hs := by
    obtain ⟨is, his, hrun⟩ := (h.recorded hg).visited
    exact ⟨is, his, run_of_stack hs _ ▸ hrun⟩
  once h hs hstarts := (h.recorded hg).once hg hs hstarts

/-- In the graph of a chain no node has two parents, and the search for cycles goes through it once:
it comes to its end, on its way the nodes marked so are a path on the stack, and it puts every node
on the stack once. -/
theorem sweepsOnce_ofLinks (links : List ChainLink) :
    (ofLinks (ChainLink.firsts links)).SingleParents ∧
      SweepsOnce (ofLinks (ChainLink.firsts links)) :=
  ⟨singleParents_ofLinks links, (singleParents_ofLinks links).sweepsOnce⟩

/-- A link that is its own parent is put on the stack once and closes a cycle there. -/
example : ∃ p, Trace (ofLinks [⟨0, "s", some "s"⟩])
    [.enter 0, .look 0 0 .onStack, .leave 0] p ∧ p.search.cycles = [[0, 0]] :=
  ⟨_, ((Trace.nil.concat (.enter rfl rfl)).concat (.step rfl rfl)).concat (.step rfl rfl), rfl⟩

end ChainGraph
end Isnad
