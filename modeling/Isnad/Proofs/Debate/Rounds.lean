import Isnad.Debate.Run
import Isnad.Proofs.Debate.Stop

/-!
# Rounds and the records they leave

What a round can make of a state is said once (`Setting.Round`), whoever plays the roles. From it
follows that after any number of rounds the log, the failures and the changes of phase fit together
(`Setting.Rounds.isConsistent`).
-/

namespace Isnad.Debate

namespace State

variable {p : Policy} {round : Nat} {s : State} {os : List Output}

/-- The state in which the outputs of a round have been recorded. -/
def recordAll (p : Policy) (round : Nat) (s : State) (os : List Output) : State :=
  os.foldl (fun s o => s.record p round o) s

theorem log_recordAll :
    (recordAll p round s os).log = s.log ++ os.map (LoggedOutput.ofOutput p round) := by
  induction os generalizing s with
  | nil => exact (List.append_nil _).symm
  | cons o os ih =>
    rw [recordAll, List.foldl_cons, ← recordAll, ih, List.map_cons]
    exact List.append_assoc _ _ _

theorem recordAll_eq : recordAll p round s os =
    { s with
      log := (recordAll p round s os).log
      failures := (recordAll p round s os).failures } := by
  induction os generalizing s with
  | nil => rfl
  | cons o os ih =>
    rw [recordAll, List.foldl_cons, ← recordAll, ih]
    rfl

theorem IsFaithful.recordAll (h : s.IsFaithful p) : (recordAll p round s os).IsFaithful p := by
  induction os generalizing s with
  | nil => exact h
  | cons o os ih => exact ih (h.record round o)

/-- Faithful records grow with the log. -/
theorem IsFaithful.failures_prefix {s' : State} (h : s.IsFaithful p) (h' : s'.IsFaithful p)
    (hlog : s.log <+: s'.log) : s.failures <+: s'.failures := by
  rw [h.failures, h'.failures]
  exact (hlog.filter _).map _

end State

/-- The phase after so many rounds. -/
def Phase.after (rounds : Nat) : Option StopReason → Phase
  | some r => .stopped r
  | none => .round (rounds + 1)

theorem State.phase_eq (s : State) : s.phase = .after s.roundNumber s.stopReason := by
  unfold phase Phase.after
  cases s.stopReason <;> rfl

namespace Setting

variable {σ : Type} {d : Setting σ} {s s' : State} {t t' : σ}

/-! ## One round -/

/-- What a round with the given outputs makes of a state. -/
structure Round (d : Setting σ) (s : State) (os : List Output) (s' : State) : Prop where
  stopReason_start : s.stopReason = none
  roles : os.map (·.role) = Role.order
  roundNumber : s'.roundNumber = s.roundNumber + 1
  log : s'.log = s.log ++ os.map (LoggedOutput.ofOutput d.config.policy s'.roundNumber)
  isFaithful : s.IsFaithful d.config.policy → s'.IsFaithful d.config.policy
  stopReason : s'.stopReason = s'.stopAfter? s'.roundNumber d.config.maxRounds
  transitions : s'.transitions = s.transitions ++ [⟨s.phase, s'.phase, d.clock s'.roundNumber⟩]

theorem exists_outputs_of_speak {round : Nat} {roles : List Role}
    (h : d.speak round roles s t = (.ok s', t')) :
    ∃ os : List Output, os.map (·.role) = roles ∧ s' = s.recordAll d.config.policy round os := by
  induction roles generalizing s t with
  | nil =>
    cases h
    exact ⟨[], rfl, rfl⟩
  | cons role roles ih =>
    unfold speak at h
    split at h
    · cases h
    · split at h
      · rename_i o _ _ hrole
        obtain ⟨os, hroles, rfl⟩ := ih h
        exact ⟨o :: os, by rw [List.map_cons, hrole, hroles], rfl⟩
      · cases h

theorem exists_round_of_step (h : d.step s t = (.ok s', t')) : ∃ os, d.Round s os s' := by
  obtain ⟨hnone, spoken, hspeak, rfl⟩ := step_eq_ok h
  obtain ⟨os, hroles, rfl⟩ := exists_outputs_of_speak hspeak
  refine ⟨os, hnone, hroles, ?_, ?_, fun hs => hs.recordAll.closeRound _ _, ?_, ?_⟩
  all_goals rw [State.recordAll_eq]
  · rfl
  · exact State.log_recordAll
  · rfl
  · rfl

/-- Earlier rounds are left as they were. -/
theorem Round.inRound_eq {os : List Output} (h : d.Round s os s') {round : Nat}
    (hround : round ≤ s.roundNumber) : s'.inRound round = s.inRound round := by
  have hnone : (os.map (LoggedOutput.ofOutput d.config.policy s'.roundNumber)).filter
      (·.round = round) = [] := by
    rw [List.filter_eq_nil_iff]
    intro l hl
    obtain ⟨o, -, rfl⟩ := List.mem_map.mp hl
    have hlater : s'.roundNumber ≠ round := by
      rw [h.roundNumber]
      omega
    exact fun heq => hlater (of_decide_eq_true heq)
  rw [State.inRound, h.log, List.filter_append, hnone, List.append_nil, State.inRound]

/-! ## Several rounds -/

/-- So many rounds lead from one state of the debate and the runner to another. -/
inductive Rounds (d : Setting σ) (s₀ : State) (t₀ : σ) : Nat → State → σ → Prop
  | zero : Rounds d s₀ t₀ 0 s₀ t₀
  | succ {n : Nat} {s s' : State} {t t' : σ} :
    Rounds d s₀ t₀ n s t → d.step s t = (.ok s', t') → Rounds d s₀ t₀ (n + 1) s' t'

namespace Rounds

variable {n : Nat} {id : String} {now : Timestamp} {t₀ : σ}

theorem roundNumber_eq (h : d.Rounds (.fresh id now) t₀ n s t) : s.roundNumber = n := by
  induction h with
  | zero => rfl
  | succ _ hstep ih =>
    obtain ⟨os, hround⟩ := exists_round_of_step hstep
    rw [hround.roundNumber, ih]

theorem isFaithful (h : d.Rounds (.fresh id now) t₀ n s t) : s.IsFaithful d.config.policy := by
  induction h with
  | zero => exact State.isFaithful_fresh _ id now
  | succ _ hstep ih =>
    obtain ⟨os, hround⟩ := exists_round_of_step hstep
    exact hround.isFaithful ih

theorem turns_eq (h : d.Rounds (.fresh id now) t₀ n s t) :
    s.log.map LoggedOutput.turn = schedule n := by
  induction h with
  | zero => rfl
  | @succ n s s' t t' h hstep ih =>
    obtain ⟨os, hround⟩ := exists_round_of_step hstep
    have hnumber : s'.roundNumber = n + 1 := by rw [hround.roundNumber, h.roundNumber_eq]
    rw [hround.log, List.map_append, ih, schedule_succ, ← hround.roles, List.map_map, List.map_map,
      hnumber]
    rfl

theorem onePerTurn (h : d.Rounds (.fresh id now) t₀ n s t) : s.OnePerTurn := by
  rw [State.OnePerTurn, h.turns_eq]
  exact schedule_nodup n

theorem length_log (h : d.Rounds (.fresh id now) t₀ n s t) : s.log.length = 5 * n := by
  rw [← length_schedule, ← h.turns_eq, List.length_map]

theorem length_transitions (h : d.Rounds (.fresh id now) t₀ n s t) : s.transitions.length = n := by
  induction h with
  | zero => rfl
  | succ _ hstep ih =>
    obtain ⟨os, hround⟩ := exists_round_of_step hstep
    rw [hround.transitions, List.length_append, ih, List.length_singleton]

/-- No round before the last gave a reason to stop, and the last gave the one on record. -/
theorem stopAfter?_eq (h : d.Rounds (.fresh id now) t₀ n s t) {round : Nat} (hpos : 1 ≤ round)
    (hle : round ≤ n) :
    s.stopAfter? round d.config.maxRounds = if round = n then s.stopReason else none := by
  induction h with
  | zero => omega
  | @succ n s s' t t' h hstep ih =>
    obtain ⟨os, hround⟩ := exists_round_of_step hstep
    have hnumber := h.roundNumber_eq
    rcases Nat.lt_or_eq_of_le hle with hlt | rfl
    · have hsame : s'.stopAfter? round d.config.maxRounds =
          s.stopAfter? round d.config.maxRounds :=
        State.stopAfter?_congr fun r hr => hround.inRound_eq (by omega)
      rw [hsame, ih (by omega), hround.stopReason_start, ite_self, if_neg (by omega)]
    · rw [if_pos rfl, hround.stopReason, hround.roundNumber, hnumber]

/-- Every round but the last leads to the next one. -/
theorem transition_eq (h : d.Rounds (.fresh id now) t₀ n s t) {i : Nat} {c : Transition}
    (hc : s.transitions[i]? = some c) :
    c.source = .round (i + 1) ∧
      c.target = .after (i + 1) (if i + 1 = n then s.stopReason else none) := by
  induction h with
  | zero => cases hc
  | @succ n s s' t t' h hstep ih =>
    obtain ⟨os, hround⟩ := exists_round_of_step hstep
    rw [hround.transitions, List.getElem?_append, h.length_transitions] at hc
    split at hc
    · rename_i hi
      obtain ⟨hsource, htarget⟩ := ih hc
      rw [hround.stopReason_start, ite_self] at htarget
      exact ⟨hsource, by rw [htarget, if_neg (by omega)]⟩
    · obtain ⟨hi, rfl⟩ := List.getElem?_eq_some_iff.mp hc
      obtain rfl : i = n := by
        rw [List.length_singleton] at hi
        omega
      simp only [Nat.sub_self, List.getElem_cons_zero, State.phase_eq, hround.roundNumber,
        hround.stopReason_start, h.roundNumber_eq, if_pos]
      exact ⟨rfl, trivial⟩

end Rounds

/-! ## A debate that is over -/

theorem step_of_stopReason {r : StopReason} (h : s.stopReason = some r) :
    d.step s t = (.error (.alreadyStopped r), t) := by
  unfold step
  rw [h]

theorem run_of_isStopped (h : s.isStopped = true) : d.run s t = (.ok s, t) := by
  rw [run, if_pos h]

end Setting

/-! ## All records -/

/-- The records of a debate after `n` rounds under a policy. -/
structure State.IsConsistent (p : Policy) (n : Nat) (s : State) : Prop where
  roundNumber : s.roundNumber = n
  length_log : s.log.length = 5 * n
  turn : ∀ (k : Nat) (l : LoggedOutput), s.log[k]? = some l →
    l.round = k / 5 + 1 ∧ Role.order[k % 5]? = some l.output.role
  isFaithful : s.IsFaithful p
  violations_ne_nil : ∀ f ∈ s.failures, f.violations ≠ []
  length_transitions : s.transitions.length = n
  /-- The last round alone may end the debate. -/
  transition : ∀ (i : Nat) (c : Transition), s.transitions[i]? = some c →
    c.source = .round (i + 1) ∧
      c.target = .after (i + 1) (if i + 1 = n then s.stopReason else none)

/-- All that was on record still is, in its place. -/
structure State.IsExtendedBy (s s' : State) : Prop where
  log : s.log <+: s'.log
  failures : s.failures <+: s'.failures
  transitions : s.transitions <+: s'.transitions

namespace Setting

variable {σ : Type} {d : Setting σ} {s : State} {t : σ}

/-- Whoever plays the roles, after each round the records fit together and extend those before it,
and a debate that is over stays as it is. -/
theorem Rounds.isConsistent {n : Nat} {id : String} {now : Timestamp} {t₀ : σ}
    (h : d.Rounds (.fresh id now) t₀ n s t) :
    s.IsConsistent d.config.policy n ∧
      (∀ t₁ s' t', d.step s t₁ = (.ok s', t') → s.IsExtendedBy s') ∧
      ∀ r, s.stopReason = some r → ∀ t₁,
        d.step s t₁ = (.error (.alreadyStopped r), t₁) ∧ d.run s t₁ = (.ok s, t₁) := by
  refine ⟨?_, ?_, ?_⟩
  · refine ⟨h.roundNumber_eq, h.length_log, ?_, h.isFaithful,
      fun f hf => h.isFaithful.violations_ne_nil hf, h.length_transitions,
      fun i c hc => h.transition_eq hc⟩
    intro k l hl
    have hturn : (schedule n)[k]? = some l.turn := by
      rw [← h.turns_eq, List.getElem?_map, hl]
      rfl
    exact getElem?_schedule hturn
  · intro t₁ s' t' hstep
    obtain ⟨os, hround⟩ := exists_round_of_step hstep
    have hlog : s.log <+: s'.log := hround.log ▸ List.prefix_append _ _
    exact ⟨hlog, h.isFaithful.failures_prefix (hround.isFaithful h.isFaithful) hlog,
      hround.transitions ▸ List.prefix_append _ _⟩
  · intro r hr t₁
    have hstopped : s.isStopped = true := by rw [State.isStopped, hr, Option.isSome_some]
    exact ⟨step_of_stopReason hr, run_of_isStopped hstopped⟩

/-- Everyone is for it from the start, on bad accounts, and the arbiter has a question in the first
round only. The runner counts its calls. -/
def oneQuestion : Setting Nat where
  runner.produce role _ _ calls :=
    (.ok ⟨role, "argument", ⟨"", some "INVEST", if calls < 5 then ["ARR?"] else [], .null⟩,
      .ofConfidence .one⟩, calls + 1)
  context := ⟨"d-1", "memo", [], .null⟩
  config := .standard
  clock _ := ⟨⟨2026, 1, 1, by decide⟩, .last 23, .last 59, 0, 0⟩

/-- Its second round ends in a consensus after ten failures. -/
theorem isConsistent_oneQuestion :
    ∃ s t, oneQuestion.Rounds (.fresh "d-1" (oneQuestion.clock 0)) 0 2 s t ∧
      s.IsConsistent .standard 2 ∧ s.stopReason = some .consensus ∧ s.failures.length = 10 := by
  have h : oneQuestion.Rounds (.fresh "d-1" (oneQuestion.clock 0)) 0 2 _ _ :=
    .succ (.succ .zero rfl) rfl
  exact ⟨_, _, h, h.isConsistent.1, by decide, by decide⟩

end Setting
end Isnad.Debate
