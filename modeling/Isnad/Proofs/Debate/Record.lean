import Isnad.Debate.Stop

/-!
# What a state records

The log, the flags of its entries and the list of failures are kept in step by every output that is
recorded (`State.IsFaithful.record`), whatever came before it. The rounds and roles of a log whose
rounds are complete are those of a fixed schedule.
-/

namespace Isnad.Debate

variable {p : Policy} {s : State} {l : LoggedOutput} {f : Failure}

namespace LoggedOutput

/-- The entry that an output gets in the log. -/
def ofOutput (p : Policy) (round : Nat) (o : Output) : LoggedOutput :=
  ⟨round, o, p.passes o.account⟩

/-- The failure of an entry whose account broke rules. -/
def failure (p : Policy) (l : LoggedOutput) : Failure :=
  ⟨l.round, l.output.role, l.output.account.confidence, p.violations l.output.account⟩

/-- The round and the role of an entry. -/
def turn (l : LoggedOutput) : Nat × Role := (l.round, l.output.role)

end LoggedOutput

namespace State

/-- The failures on record are those of the entries that did not pass, in the order of the log, and
an entry passes if its account breaks no rule. -/
structure IsFaithful (p : Policy) (s : State) : Prop where
  hasPassed : ∀ l ∈ s.log, l.hasPassed = (p.violations l.output.account).isEmpty
  failures : s.failures = (s.log.filter fun l => !l.hasPassed).map (·.failure p)

theorem isFaithful_fresh (p : Policy) (id : String) (now : Timestamp) :
    (fresh id now).IsFaithful p :=
  ⟨fun _ h => absurd h List.not_mem_nil, rfl⟩

theorem IsFaithful.record (h : s.IsFaithful p) (round : Nat) (o : Output) :
    (s.record p round o).IsFaithful p where
  hasPassed := by
    intro l hl
    rcases List.mem_append.mp hl with hl | hl
    · exact h.hasPassed l hl
    · rw [List.mem_singleton.mp hl]
  failures := by
    rw [State.record]
    dsimp only
    rw [List.filter_append, List.map_append, h.failures]
    by_cases hv : (p.violations o.account).isEmpty = true
    · simp [hv]
    · simp [hv, LoggedOutput.failure]

theorem IsFaithful.closeRound (h : s.IsFaithful p) (stop : Option StopReason) (now : Timestamp) :
    (s.closeRound stop now).IsFaithful p := ⟨h.hasPassed, h.failures⟩

theorem IsFaithful.violations_ne_nil (h : s.IsFaithful p) (hf : f ∈ s.failures) :
    f.violations ≠ [] := by
  rw [h.failures] at hf
  obtain ⟨l, hl, rfl⟩ := List.mem_map.mp hf
  obtain ⟨hmem, hfailed⟩ := List.mem_filter.mp hl
  intro hnil
  have hpassed : l.hasPassed = true := by
    rw [h.hasPassed l hmem, List.isEmpty_iff]
    exact hnil
  simp [hpassed] at hfailed

end State

/-! ## The schedule -/

/-- The place of a role in a round. -/
def Role.place (r : Role) : Nat := Role.order.idxOf r

/-- One turn comes before another, by rounds and then by roles. -/
def TurnBefore (x y : Nat × Role) : Prop := x.1 < y.1 ∨ x.1 = y.1 ∧ x.2.place < y.2.place

/-- The turns of the first `n` rounds. -/
def schedule (n : Nat) : List (Nat × Role) :=
  (List.range n).flatMap fun i => Role.order.map (i + 1, ·)

theorem schedule_succ (n : Nat) : schedule (n + 1) = schedule n ++ Role.order.map (n + 1, ·) := by
  rw [schedule, List.range_succ, List.flatMap_append, List.flatMap_singleton, schedule]

@[simp] theorem length_schedule (n : Nat) : (schedule n).length = 5 * n := by
  induction n with
  | zero => rfl
  | succ n ih =>
    rw [schedule_succ, List.length_append, ih, List.length_map]
    rfl

theorem Role.mem_order (r : Role) : r ∈ Role.order := mem_all r

theorem mem_schedule {n : Nat} {x : Nat × Role} : x ∈ schedule n ↔ 1 ≤ x.1 ∧ x.1 ≤ n := by
  obtain ⟨round, role⟩ := x
  simp only [schedule, List.mem_flatMap, List.mem_range, List.mem_map, Prod.mk.injEq]
  constructor
  · rintro ⟨i, hi, r, -, rfl, -⟩
    omega
  · rintro ⟨hpos, hle⟩
    exact ⟨round - 1, by omega, role, role.mem_order, by omega, rfl⟩

/-- The turn at an index is found by division. -/
theorem getElem?_schedule {n k : Nat} {x : Nat × Role} (h : (schedule n)[k]? = some x) :
    x.1 = k / 5 + 1 ∧ Role.order[k % 5]? = some x.2 := by
  induction n with
  | zero => cases h
  | succ n ih =>
    rw [schedule_succ, List.getElem?_append, length_schedule] at h
    split at h
    · exact ih h
    · rename_i hk
      rw [List.getElem?_map] at h
      obtain ⟨r, hr, rfl⟩ := Option.map_eq_some_iff.mp h
      have hlt : k - 5 * n < 5 := (List.getElem?_eq_some_iff.mp hr).1
      have hdiv : k / 5 = n := by omega
      have hmod : k % 5 = k - 5 * n := by omega
      exact ⟨by rw [hdiv], by rw [hmod, hr]⟩

theorem schedule_pairwise (n : Nat) : (schedule n).Pairwise TurnBefore := by
  induction n with
  | zero => exact .nil
  | succ n ih =>
    rw [schedule_succ, List.pairwise_append]
    refine ⟨ih, ?_, ?_⟩
    · rw [List.pairwise_map]
      have horder : Role.order.Pairwise fun r r' => r.place < r'.place := by decide
      exact horder.imp fun h => .inr ⟨rfl, h⟩
    · intro x hx y hy
      obtain ⟨r, -, rfl⟩ := List.mem_map.mp hy
      exact .inl (Nat.lt_succ_of_le (mem_schedule.mp hx).2)

theorem TurnBefore.ne {x y : Nat × Role} (h : TurnBefore x y) : x ≠ y := by
  rintro rfl
  rcases h with h | ⟨-, h⟩ <;> exact Nat.lt_irrefl _ h

theorem schedule_nodup (n : Nat) : (schedule n).Nodup :=
  (schedule_pairwise n).imp TurnBefore.ne

end Isnad.Debate
