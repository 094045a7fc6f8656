import Isnad.Proofs.Debate.Rounds

/-!
# Whole debates

Rounds follow one another until there is a reason to stop (`Setting.run_eq`), and there is one at
the latest when the limit is reached. So a debate fails with the first call that gives no output of
the role asked for, or it ends with the first round with which it may end
(`Setting.run_ends_first`).
-/

namespace Isnad.Debate

namespace Setting

variable {σ : Type} {d : Setting σ} {s s' s₀ : State} {t t' t₀ : σ} {e : Error} {n : Nat}

/-! ## Rounds until there is a reason to stop -/

theorem run_eq (h : s.stopReason = none) :
    d.run s t = match d.step s t with
      | (.error e, t') => (.error e, t')
      | (.ok s', t') => d.run s' t' := by
  rw [run, if_neg (by rw [State.isStopped, h]; decide)]
  split
  · rename_i hstep
    rw [hstep]
  · rename_i hstep
    rw [hstep]

theorem run_of_step_ok (h : d.step s t = (.ok s', t')) : d.run s t = d.run s' t' := by
  rw [run_eq (step_eq_ok h).1, h]

theorem run_of_step_error (hnone : s.stopReason = none) (h : d.step s t = (.error e, t')) :
    d.run s t = (.error e, t') := by
  rw [run_eq hnone, h]

theorem Rounds.head {s₁ : State} {t₁ : σ} (hstep : d.step s t = (.ok s₁, t₁))
    (h : d.Rounds s₁ t₁ n s' t') : d.Rounds s t (n + 1) s' t' := by
  induction h with
  | zero => exact .succ .zero hstep
  | succ _ hlast ih => exact .succ ih hlast

theorem Rounds.run_eq (h : d.Rounds s₀ t₀ n s t) : d.run s₀ t₀ = d.run s t := by
  induction h with
  | zero => rfl
  | succ _ hstep ih => rw [ih, run_of_step_ok hstep]

/-- A run comes after some rounds to an end or to a round that fails. -/
theorem exists_rounds_of_run (s : State) (t : σ) :
    ∃ n s' t', d.Rounds s t n s' t' ∧
      (s'.isStopped = true ∨ s'.stopReason = none ∧ ∃ e t'', d.step s' t' = (.error e, t'')) := by
  induction s, t using run.induct d with
  | case1 s t hstopped => exact ⟨0, s, t, .zero, .inl hstopped⟩
  | case2 s t hgoing e t₁ hstep =>
    exact ⟨0, s, t, .zero, .inr ⟨Option.not_isSome_iff_eq_none.mp hgoing, e, t₁, hstep⟩⟩
  | case3 s t _ s₁ t₁ hstep ih =>
    obtain ⟨n, s', t', hrounds, hend⟩ := ih
    exact ⟨n + 1, s', t', hrounds.head hstep, hend⟩

theorem run_eq_ok_iff :
    d.run s₀ t₀ = (.ok s, t) ↔ s.isStopped = true ∧ ∃ n, d.Rounds s₀ t₀ n s t := by
  constructor
  · intro h
    obtain ⟨n, s', t', hrounds, hstopped | ⟨hnone, e, t'', hstep⟩⟩ := exists_rounds_of_run s₀ t₀
    · rw [hrounds.run_eq, run_of_isStopped hstopped] at h
      cases h
      exact ⟨hstopped, n, hrounds⟩
    · rw [hrounds.run_eq, run_of_step_error hnone hstep] at h
      cases h
  · rintro ⟨hstopped, n, hrounds⟩
    rw [hrounds.run_eq, run_of_isStopped hstopped]

theorem run_eq_error_iff_step :
    d.run s₀ t₀ = (.error e, t) ↔ ∃ n s' t', d.Rounds s₀ t₀ n s' t' ∧ s'.stopReason = none ∧
      d.step s' t' = (.error e, t) := by
  constructor
  · intro h
    obtain ⟨n, s', t', hrounds, hstopped | ⟨hnone, e', t'', hstep⟩⟩ := exists_rounds_of_run s₀ t₀
    · rw [hrounds.run_eq, run_of_isStopped hstopped] at h
      cases h
    · rw [hrounds.run_eq, run_of_step_error hnone hstep] at h
      cases h
      exact ⟨n, s', t', hrounds, hnone, hstep⟩
  · rintro ⟨n, s', t', hrounds, hnone, hstep⟩
    rw [hrounds.run_eq, run_of_step_error hnone hstep]

/-! ## Calls within a round -/

/-- The points of a debate between two calls. The debate awaits outputs of some roles, and every
call so far gave an output of the role it was for. -/
inductive Awaits (d : Setting σ) (s₀ : State) (t₀ : σ) : List Role → State → σ → Prop
  | start : s₀.stopReason = none → Awaits d s₀ t₀ Role.order s₀ t₀
  | answer {role : Role} {roles : List Role} {s : State} {t t' : σ} {o : Output} :
    Awaits d s₀ t₀ (role :: roles) s t → d.runner.produce role d.context s t = (.ok o, t') →
    o.role = role → Awaits d s₀ t₀ roles (s.record d.config.policy (s.roundNumber + 1) o) t'
  | nextRound {s : State} {t : σ} : Awaits d s₀ t₀ [] s t →
    s.stopAfter? (s.roundNumber + 1) d.config.maxRounds = none →
    Awaits d s₀ t₀ Role.order (s.closeRound none (d.clock (s.roundNumber + 1))) t

/-- The call for a role gives no output of that role. -/
inductive Fails (d : Setting σ) (role : Role) (s : State) (t : σ) : Error → σ → Prop
  | runner {e : RunnerError} {t' : σ} : d.runner.produce role d.context s t = (.error e, t') →
    Fails d role s t (.runner e) t'
  | roleMismatch {o : Output} {t' : σ} : d.runner.produce role d.context s t = (.ok o, t') →
    o.role ≠ role → Fails d role s t (.roleMismatch role o.role (s.roundNumber + 1)) t'

/-- The first call that gives no output of the role it is for. -/
def FirstFails (d : Setting σ) (s₀ : State) (t₀ : σ) (e : Error) (t' : σ) : Prop :=
  ∃ role roles s t, d.Awaits s₀ t₀ (role :: roles) s t ∧ d.Fails role s t e t'

/-- The rest of a debate. -/
def finish (d : Setting σ) (roles : List Role) (s : State) (t : σ) : Except Error State × σ :=
  let round := s.roundNumber + 1
  match d.speak round roles s t with
  | (.error e, t) => (.error e, t)
  | (.ok s, t) =>
    d.run (s.closeRound (s.stopAfter? round d.config.maxRounds) (d.clock round)) t

theorem run_eq_finish (h : s.stopReason = none) : d.run s t = d.finish Role.order s t := by
  rw [run_eq h, finish, step, h]
  dsimp only
  cases d.speak (s.roundNumber + 1) Role.order s t with
  | mk result t' => cases result <;> rfl

/-- What is left to do at a point decides how the whole debate goes. -/
theorem Awaits.run_eq {roles : List Role} (h : d.Awaits s₀ t₀ roles s t) :
    d.run s₀ t₀ = d.finish roles s t := by
  induction h with
  | start hnone => exact run_eq_finish hnone
  | answer _ hproduce hrole ih =>
    rw [ih, finish, finish, speak, hproduce]
    dsimp only
    rw [if_pos hrole]
    rfl
  | nextRound _ hnone ih =>
    rw [ih, finish, speak]
    dsimp only
    rw [hnone]
    exact run_eq_finish rfl

theorem awaits_of_speak {roles : List Role} (h : d.Awaits s₀ t₀ roles s t)
    (hspeak : d.speak (s.roundNumber + 1) roles s t = (.ok s', t')) :
    d.Awaits s₀ t₀ [] s' t' ∧ s'.roundNumber = s.roundNumber := by
  induction roles generalizing s t with
  | nil =>
    cases hspeak
    exact ⟨h, rfl⟩
  | cons role roles ih =>
    unfold speak at hspeak
    split at hspeak
    · cases hspeak
    · rename_i o t₁ hproduce
      split at hspeak
      · rename_i hrole
        obtain ⟨hawaits, hnumber⟩ := ih (h.answer hproduce hrole) hspeak
        exact ⟨hawaits, hnumber⟩
      · cases hspeak

theorem firstFails_of_speak {roles : List Role} (h : d.Awaits s₀ t₀ roles s t)
    (hspeak : d.speak (s.roundNumber + 1) roles s t = (.error e, t')) :
    d.FirstFails s₀ t₀ e t' := by
  induction roles generalizing s t with
  | nil => cases hspeak
  | cons role roles ih =>
    unfold speak at hspeak
    split at hspeak
    · rename_i e' t₁ hproduce
      cases hspeak
      exact ⟨role, roles, s, t, h, .runner hproduce⟩
    · rename_i o t₁ hproduce
      split at hspeak
      · rename_i hrole
        exact ih (h.answer hproduce hrole) hspeak
      · rename_i hrole
        cases hspeak
        exact ⟨role, roles, s, t, h, .roleMismatch hproduce hrole⟩

theorem Rounds.awaits (h : d.Rounds s₀ t₀ n s t) (hnone : s.stopReason = none) :
    d.Awaits s₀ t₀ Role.order s t := by
  induction h with
  | zero => exact .start hnone
  | succ _ hstep ih =>
    obtain ⟨hstart, spoken, hspeak, rfl⟩ := step_eq_ok hstep
    obtain ⟨hspoken, hnumber⟩ := awaits_of_speak (ih hstart) hspeak
    have hnext : spoken.stopAfter? (spoken.roundNumber + 1) d.config.maxRounds = none := by
      rw [hnumber]
      exact hnone
    rw [← hnumber, hnext]
    exact hspoken.nextRound hnext

/-- A run fails exactly as the first call does that fails. -/
theorem run_eq_error_iff : d.run s₀ t₀ = (.error e, t) ↔ d.FirstFails s₀ t₀ e t := by
  constructor
  · intro h
    obtain ⟨n, s', t', hrounds, hnone, hstep⟩ := run_eq_error_iff_step.mp h
    have hspeak : d.speak (s'.roundNumber + 1) Role.order s' t' = (.error e, t) := by
      rw [step, hnone] at hstep
      dsimp only at hstep
      split at hstep
      · rename_i hspeak
        cases hstep
        exact hspeak
      · cases hstep
    exact firstFails_of_speak (hrounds.awaits hnone) hspeak
  · rintro ⟨role, roles, s', t', hawaits, hfails⟩
    rw [hawaits.run_eq, finish, speak]
    cases hfails with
    | runner hproduce => rw [hproduce]
    | roleMismatch hproduce hrole =>
      rw [hproduce]
      dsimp only
      rw [if_neg hrole]

/-! ## How a debate ends -/

end Setting

/-- The debate ended with the first round with which it may end, for the reason that comes first. -/
structure State.EndsFirst (maxRounds : Nat) (s : State) : Prop where
  one_le : 1 ≤ s.roundNumber
  le_max : s.roundNumber ≤ max 1 maxRounds
  mayEnd : s.MayEnd maxRounds s.roundNumber
  first : ∀ round, 1 ≤ round → round < s.roundNumber → ¬ s.MayEnd maxRounds round
  stopReason : ∃ reason, s.stopReason = some reason ∧ s.EndsFor maxRounds s.roundNumber reason

namespace Setting

variable {σ : Type} {d : Setting σ} {s : State} {t t₀ : σ} {n : Nat} {id : String} {now : Timestamp}

theorem Rounds.endsFirst (h : d.Rounds (.fresh id now) t₀ n s t) (hstopped : s.isStopped = true) :
    s.EndsFirst d.config.maxRounds := by
  have hpos : 1 ≤ n := by
    cases h with
    | zero => cases hstopped
    | succ => exact Nat.le_add_left _ _
  have hnot (round : Nat) (hpos : 1 ≤ round) (hlt : round < n) :
      s.stopAfter? round d.config.maxRounds = none := by
    rw [h.stopAfter?_eq hpos (Nat.le_of_lt hlt), if_neg (Nat.ne_of_lt hlt)]
  obtain ⟨reason, hreason⟩ := Option.isSome_iff_exists.mp hstopped
  have hends : s.stopAfter? n d.config.maxRounds = some reason := by
    rw [h.stopAfter?_eq hpos (Nat.le_refl n), if_pos rfl, hreason]
  rw [← h.roundNumber_eq] at hpos hnot hends
  have hfor := State.endsFor_of_stopAfter? h.onePerTurn hends
  refine ⟨hpos, ?_, hfor.mayEnd, fun round hround hlt => State.not_mayEnd_of_stopAfter? h.onePerTurn
    (hnot round hround hlt), reason, hreason, hfor⟩
  -- The round before the last was below the limit, if there was one.
  rcases Nat.lt_or_eq_of_le hpos with hlt | heq
  · have := State.lt_of_stopAfter? (hnot (s.roundNumber - 1) (by omega) (by omega))
    omega
  · omega

/-- Within a debate there is always room for one more round. -/
theorem Awaits.roundNumber_lt {roles : List Role} (h : d.Awaits (.fresh id now) t₀ roles s t) :
    s.roundNumber = 0 ∨ s.roundNumber < d.config.maxRounds := by
  induction h with
  | start => exact .inl rfl
  | answer _ _ _ ih => exact ih
  | nextRound _ hnone _ => exact .inr (State.lt_of_stopAfter? hnone)

/-- Whoever plays the roles, a debate fails with the first call that gives no output of the role it
is for, or it ends with the first round with which it may end. Rounds can be counted below the bound
all the way. -/
theorem run_ends_first (d : Setting σ) (id : String) (now : Timestamp) (t₀ : σ)
    (hmax : d.config.maxRounds < roundBound) :
    (∀ e t, d.run (.fresh id now) t₀ = (.error e, t) ↔ d.FirstFails (.fresh id now) t₀ e t) ∧
      ((∃ e t, d.run (.fresh id now) t₀ = (.error e, t)) ∨
        ∃ s t, d.run (.fresh id now) t₀ = (.ok s, t) ∧ s.EndsFirst d.config.maxRounds) ∧
      ∀ roles s t, d.Awaits (.fresh id now) t₀ roles s t → s.roundNumber + 1 < roundBound := by
  refine ⟨fun e t => run_eq_error_iff, ?_, ?_⟩
  · cases hrun : d.run (.fresh id now) t₀ with
    | mk result t =>
      cases result with
      | error e => exact .inl ⟨e, t, rfl⟩
      | ok s =>
        obtain ⟨hstopped, n, hrounds⟩ := run_eq_ok_iff.mp hrun
        exact .inr ⟨s, t, rfl, hrounds.endsFirst hstopped⟩
  · intro roles s t h
    rcases h.roundNumber_lt with hzero | hlt
    · rw [hzero]
      decide
    · omega

/-- `oneQuestion` with the highest limit there is. -/
def oneQuestionUnlimited : Setting Nat :=
  { oneQuestion with config := ⟨roundBound - 1, .standard⟩ }

theorem oneQuestionUnlimited_ends :
    oneQuestionUnlimited.config.maxRounds < roundBound ∧
      ∃ s t, oneQuestionUnlimited.run (.fresh "d-1" (oneQuestion.clock 0)) 0 = (.ok s, t) ∧
        s.EndsFirst (roundBound - 1) ∧ s.roundNumber = 2 ∧ s.stopReason = some .consensus := by
  have hmax : oneQuestionUnlimited.config.maxRounds < roundBound := by decide
  have hrounds : oneQuestionUnlimited.Rounds (.fresh "d-1" (oneQuestion.clock 0)) 0 2 _ _ :=
    .succ (.succ .zero rfl) rfl
  have hrun := run_eq_ok_iff.mpr ⟨by decide, 2, hrounds⟩
  obtain ⟨-, ⟨e, t, he⟩ | ⟨s, t, hs, hends⟩, -⟩ :=
    run_ends_first oneQuestionUnlimited "d-1" (oneQuestion.clock 0) 0 hmax
  · rw [hrun] at he
    cases he
  · rw [hrun] at hs
    cases hs
    exact ⟨hmax, _, _, hrun, hends, rfl, by decide⟩

end Setting
end Isnad.Debate
