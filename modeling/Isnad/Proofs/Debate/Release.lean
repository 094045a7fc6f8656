import Isnad.Debate.Outcome
import Isnad.Proofs.Debate.Account
import Isnad.Proofs.Debate.Rounds

/-!
# Delivering the result of a debate

Whether a result may be delivered is decided by the first failure on record. Since the records are
faithful to the log, this is a statement on all outputs of all rounds
(`Setting.Rounds.deliverable_iff`).
-/

namespace Isnad.Debate

variable {p : Policy} {s : State} {n : Nat}

namespace State

/-- The account of an entry breaks rules, and those of all entries of earlier turns do not. -/
structure IsEarliestUnsound (p : Policy) (s : State) (l : LoggedOutput) : Prop where
  mem : l ∈ s.log
  not_isSound : ¬ l.output.account.IsSound p
  earliest : ∀ l' ∈ s.log, ¬ l'.output.account.IsSound p → l' = l ∨ TurnBefore l.turn l'.turn

theorem IsFaithful.not_hasPassed_iff (h : s.IsFaithful p) {l : LoggedOutput} (hl : l ∈ s.log) :
    (!l.hasPassed) = true ↔ ¬ l.output.account.IsSound p := by
  rw [h.hasPassed l hl, Bool.not_eq_true', Bool.eq_false_iff, ne_eq, ← Policy.passes_iff,
    Policy.passes]

theorem IsFaithful.firstFailure?_eq_none_iff (h : s.IsFaithful p) :
    s.firstFailure? = none ↔ ∀ l ∈ s.log, l.output.account.IsSound p := by
  rw [firstFailure?, List.head?_eq_none_iff, h.failures, List.map_eq_nil_iff,
    List.filter_eq_nil_iff]
  refine forall₂_congr fun l hl => ?_
  rw [h.not_hasPassed_iff hl, not_not]

/-- In a log in the order of the turns, the first failure is that of the earliest unsound entry. -/
theorem IsFaithful.exists_earliest (h : s.IsFaithful p)
    (hturns : (s.log.map LoggedOutput.turn).Pairwise TurnBefore) {f : Failure}
    (hf : s.firstFailure? = some f) : ∃ l, s.IsEarliestUnsound p l ∧ f = l.failure p := by
  rw [firstFailure?, h.failures, List.head?_map] at hf
  obtain ⟨l, hl, rfl⟩ := Option.map_eq_some_iff.mp hf
  rw [List.head?_filter, List.find?_eq_some_iff_append] at hl
  obtain ⟨hfailed, before, after, hlog, hbefore⟩ := hl
  have hmem : l ∈ s.log := by
    rw [hlog]
    exact List.mem_append_right _ List.mem_cons_self
  refine ⟨l, ⟨hmem, (h.not_hasPassed_iff hmem).mp hfailed, fun l' hl' hunsound => ?_⟩, rfl⟩
  have hfailed' := (h.not_hasPassed_iff hl').mpr hunsound
  rw [hlog, List.map_append, List.map_cons, List.pairwise_append, List.pairwise_cons] at hturns
  rw [hlog, List.mem_append, List.mem_cons] at hl'
  rcases hl' with hl' | rfl | hl'
  · have := hbefore l' hl'
    simp [hfailed'] at this
  · exact .inl rfl
  · exact .inr (hturns.2.1.1 _ (List.mem_map_of_mem hl'))

end State

namespace Setting

variable {σ : Type} {d : Setting σ} {t t₀ : σ} {id : String} {now : Timestamp}

/-- The result of a debate may be delivered exactly if the debate is over and every account of every
round is sound. Otherwise the debate goes on after so many rounds, or the earliest unsound account
is the reason not to. -/
theorem Rounds.deliverable_iff (h : d.Rounds (.fresh id now) t₀ n s t) :
    ((Outcome.ofState s).deliverable = .ok () ↔
      s.isStopped = true ∧ ∀ l ∈ s.log, l.output.account.IsSound d.config.policy) ∧
    (s.isStopped = true → (∃ l ∈ s.log, ¬ l.output.account.IsSound d.config.policy) →
      ∃ l, s.IsEarliestUnsound d.config.policy l ∧
        (Outcome.ofState s).deliverable = .error (.failed (l.failure d.config.policy))) ∧
    (s.isStopped = false → (Outcome.ofState s).deliverable = .error (.notStopped n)) := by
  have hfaithful := h.isFaithful
  have hnone := hfaithful.firstFailure?_eq_none_iff
  unfold Outcome.deliverable Outcome.ofState State.isStopped
  dsimp only
  rw [h.roundNumber_eq]
  cases hstop : s.stopReason with
  | none => simp
  | some reason =>
    cases hfirst : s.firstFailure? with
    | none =>
      have hsound := hnone.mp hfirst
      refine ⟨?_, ?_, ?_⟩
      · simpa using hsound
      · rintro - ⟨l, hl, hunsound⟩
        exact absurd (hsound l hl) hunsound
      · simp
    | some f =>
      have hunsound : ¬ ∀ l ∈ s.log, l.output.account.IsSound d.config.policy := by
        rw [← hnone, hfirst]
        simp
      have hturns : (s.log.map LoggedOutput.turn).Pairwise TurnBefore := by
        rw [h.turns_eq]
        exact schedule_pairwise n
      obtain ⟨l, hl, rfl⟩ := hfaithful.exists_earliest hturns hfirst
      refine ⟨?_, fun _ _ => ⟨l, hl, rfl⟩, ?_⟩
      · simpa using hunsound
      · simp

/-- Both rounds of `oneQuestion` are unsound throughout, and the advocate spoke first. -/
theorem oneQuestion_undeliverable :
    ∃ s t l, oneQuestion.Rounds (.fresh "d-1" (oneQuestion.clock 0)) 0 2 s t ∧
      s.isStopped = true ∧ s.IsEarliestUnsound .standard l ∧
      (Outcome.ofState s).deliverable = .error (.failed (l.failure .standard)) ∧
      l.failure .standard =
        ⟨1, .advocate, .one, [.noSupportedClaims, .overconfidentWithoutUncertainty]⟩ := by
  have h : oneQuestion.Rounds (.fresh "d-1" (oneQuestion.clock 0)) 0 2 _ _ :=
    .succ (.succ .zero rfl) rfl
  have hunsound : ¬ (Account.ofConfidence .one).IsSound .standard := by
    rw [← Policy.passes_iff]
    decide
  obtain ⟨l, hl, hfailed⟩ :=
    h.deliverable_iff.2.1 rfl ⟨_, List.mem_cons_self, hunsound⟩
  refine ⟨_, _, l, h, rfl, hl, hfailed, ?_⟩
  have hsame := Undeliverable.failed.inj (Except.error.inj hfailed)
  exact hsame.symm.trans (by decide)

end Setting
end Isnad.Debate
