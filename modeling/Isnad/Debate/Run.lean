import Isnad.Debate.Stop

/-! # Running a debate

Rounds follow one another until there is a reason to stop. A failure ends the run at once, and the
state of the debate stays as it was. -/

namespace Isnad.Debate

/-- Limits and policy of a debate. -/
structure Config where
  maxRounds : Nat
  policy : Policy
deriving DecidableEq, Repr

namespace Config

def standard : Config := ⟨5, .standard⟩

def layout (surplus : Json.Surplus) : Json.Layout :=
  ⟨[("max_rounds", false), ("muhasabah", false)], surplus⟩

open Json in
def decode (surplus : Surplus) : Decoder Config := fun w => do
  let f ← (layout surplus).read w
  let maxRounds ← f.orElse "max_rounds" (.natBelow roundBound) standard.maxRounds
  let policy ← f.orElse "muhasabah" (Policy.decode surplus) standard.policy
  pure { maxRounds, policy }

open Json in
def toJson (c : Config) : Json :=
  object [("max_rounds", ofNat c.maxRounds), ("muhasabah", c.policy.toJson)]

end Config

/-- A role gave no output. -/
structure RunnerError where
  role : Role
  round : Nat
  cause : String
deriving DecidableEq, Repr

def RunnerError.message (e : RunnerError) : String :=
  label e.role ++ " failed in round " ++ toString e.round ++ ": " ++ e.cause

/-- Whoever plays the roles, with a state of its own. -/
structure Runner (σ : Type) where
  produce : Role → Context → State → σ → Except RunnerError Output × σ

/-- Why a round cannot be run. -/
inductive Error where
  | runner (error : RunnerError)
  | alreadyStopped (reason : StopReason)
  | roleMismatch (expected got : Role) (round : Nat)
deriving DecidableEq, Repr

def Error.message : Error → String
  | .runner e => "role runner failed: " ++ e.message
  | .alreadyStopped r => "debate already stopped (" ++ label r ++ ")"
  | .roleMismatch expected got round =>
    "runner answered as " ++ label got ++ " when asked for " ++ label expected ++ " in round " ++
      toString round

/-- What a debate is held under. The clock gives the time at which a round is closed. -/
structure Setting (σ : Type) where
  runner : Runner σ
  context : Context
  config : Config
  clock : Nat → Timestamp

namespace Setting

variable {σ : Type} (d : Setting σ)

/-- Lets the given roles speak in a round. -/
def speak (round : Nat) : List Role → State → σ → Except Error State × σ
  | [], s, t => (.ok s, t)
  | role :: roles, s, t =>
    match d.runner.produce role d.context s t with
    | (.error e, t) => (.error (.runner e), t)
    | (.ok o, t) =>
      if o.role = role then speak round roles (s.record d.config.policy round o) t
      else (.error (.roleMismatch role o.role round), t)

/-- Runs one round. -/
def step (s : State) (t : σ) : Except Error State × σ :=
  match s.stopReason with
  | some r => (.error (.alreadyStopped r), t)
  | none =>
    let round := s.roundNumber + 1
    match d.speak round Role.order s t with
    | (.error e, t) => (.error e, t)
    | (.ok s, t) => (.ok (s.closeRound (s.stopAfter? round d.config.maxRounds) (d.clock round)), t)

section Step

variable {d} {s s' : State} {t t' : σ}

theorem roundNumber_of_speak {round : Nat} {roles : List Role}
    (h : d.speak round roles s t = (.ok s', t')) : s'.roundNumber = s.roundNumber := by
  induction roles generalizing s t with
  | nil =>
    cases h
    rfl
  | cons role roles ih =>
    unfold speak at h
    split at h
    · cases h
    · split at h
      · exact (ih h).trans rfl
      · cases h

/-- A round is run in a debate that goes on, and closed when all have spoken. -/
theorem step_eq_ok (h : d.step s t = (.ok s', t')) :
    s.stopReason = none ∧ ∃ spoken,
      d.speak (s.roundNumber + 1) Role.order s t = (.ok spoken, t') ∧
      s' = spoken.closeRound (spoken.stopAfter? (s.roundNumber + 1) d.config.maxRounds)
        (d.clock (s.roundNumber + 1)) := by
  unfold step at h
  split at h
  · cases h
  · rename_i hnone
    dsimp only at h
    split at h
    · cases h
    · rename_i spoken t₁ hspeak
      cases h
      exact ⟨hnone, spoken, hspeak, rfl⟩

end Step

/-! ## Rounds until there is a reason to stop -/

/-- No more rounds than this can follow. -/
def roundsLeft (s : State) : Nat :=
  match s.stopReason with
  | some _ => 0
  | none => d.config.maxRounds - s.roundNumber + 1

/-- A round is over with fewer to follow. -/
theorem roundsLeft_lt_of_step {d : Setting σ} {s s' : State} {t t' : σ}
    (h : d.step s t = (.ok s', t')) : d.roundsLeft s' < d.roundsLeft s := by
  obtain ⟨hnone, spoken, hspeak, rfl⟩ := step_eq_ok h
  rw [roundsLeft, roundsLeft, hnone, State.closeRound, roundNumber_of_speak hspeak]
  dsimp only
  cases hstop : spoken.stopAfter? (s.roundNumber + 1) d.config.maxRounds with
  | some r => exact Nat.succ_pos _
  | none =>
    have hlt := State.lt_of_stopAfter? hstop
    dsimp only
    omega

/-- Runs rounds until the debate stops. The round that reaches the limit is the last. -/
def run (s : State) (t : σ) : Except Error State × σ :=
  if s.isStopped then (.ok s, t)
  else
    match _ : d.step s t with
    | (.error e, t) => (.error e, t)
    | (.ok s, t) => run s t
termination_by d.roundsLeft s
decreasing_by exact roundsLeft_lt_of_step (by assumption)

end Setting
end Isnad.Debate
