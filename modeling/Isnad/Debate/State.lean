import Isnad.Debate.Output

/-! # The state of a debate

The log only grows, and a debate that has a stop reason is over. -/

namespace Isnad.Debate

/-- Why a debate stopped. -/
inductive StopReason where
  /-- All declared positions agree and the arbiter has no open challenge. -/
  | consensus
  /-- Positions did not move between two rounds. -/
  | stableDissent
  /-- The last round allowed is over. -/
  | maxRounds
deriving DecidableEq, Repr

instance : Labelled StopReason where
  all := [.consensus, .stableDissent, .maxRounds]
  label
    | .consensus => "CONSENSUS"
    | .stableDissent => "STABLE_DISSENT"
    | .maxRounds => "MAX_ROUNDS"
  find?_label r := by cases r <;> decide

/-- The round to run next, or the end. -/
inductive Phase where
  | round (n : Nat)
  | stopped (reason : StopReason)
deriving DecidableEq, Repr

namespace Phase

def isTerminal : Phase → Bool
  | .round _ => false
  | .stopped _ => true

def line : Phase → String
  | .round n => "round_" ++ toString n
  | .stopped r => "stopped(" ++ label r ++ ")"

open Json in
def decode : Decoder Phase
  | .obj [("Round", n)] => .round <$> Decoder.natBelow roundBound n
  | .obj [("Stopped", r)] => .stopped <$> Decoder.label r
  | _ => .error .malformed

open Json in
def toJson : Phase → Json
  | .round n => object [("Round", ofNat n)]
  | .stopped r => object [("Stopped", ofLabel r)]

end Phase

/-- An output with its round, and whether its account kept the rules. -/
structure LoggedOutput where
  round : Nat
  output : Output
  hasPassed : Bool
deriving DecidableEq, Repr

namespace LoggedOutput

def layout : Json.Layout := .of ["round", "output", "muhasabah_passed"] []

open Json in
def decode : Decoder LoggedOutput := fun w => do
  let f ← layout.read w
  let hasPassed ← f.required "muhasabah_passed" .bool
  let output ← f.required "output" Output.decode
  let round ← f.required "round" (.natBelow roundBound)
  pure { round, output, hasPassed }

open Json in
def toJson (l : LoggedOutput) : Json :=
  object [("round", ofNat l.round), ("output", l.output.toJson),
    ("muhasabah_passed", .bool l.hasPassed)]

end LoggedOutput

/-- A change of phase. -/
structure Transition where
  source : Phase
  target : Phase
  time : Timestamp
deriving DecidableEq, Repr

namespace Transition

def layout : Json.Layout := .of ["from", "to", "timestamp"] []

open Json in
def decode : Decoder Transition := fun w => do
  let f ← layout.read w
  let source ← f.required "from" Phase.decode
  let time ← f.required "timestamp" .timestamp
  let target ← f.required "to" Phase.decode
  pure { source, target, time }

open Json in
def toJson (t : Transition) : Json :=
  object [("from", t.source.toJson), ("to", t.target.toJson), ("timestamp", ofTimestamp t.time)]

end Transition

structure State where
  id : String
  /-- The number of rounds that are over. -/
  roundNumber : Nat
  log : List LoggedOutput
  stopReason : Option StopReason
  failures : List Failure
  transitions : List Transition
  createdAt : Timestamp
deriving DecidableEq, Repr

namespace State

/-- A debate before its first round. -/
def fresh (id : String) (now : Timestamp) : State := ⟨id, 0, [], none, [], [], now⟩

def isStopped (s : State) : Bool := s.stopReason.isSome

def phase (s : State) : Phase :=
  match s.stopReason with
  | some r => .stopped r
  | none => .round (s.roundNumber + 1)

/-- The outputs of a round in the order of the log. -/
def inRound (s : State) (round : Nat) : List LoggedOutput := s.log.filter (·.round = round)

/-- The first output of a role in a round. -/
def outputOf? (s : State) (round : Nat) (role : Role) : Option Output :=
  ((s.inRound round).find? (·.output.role = role)).map (·.output)

def firstFailure? (s : State) : Option Failure := s.failures.head?

/-- Every account kept the rules. -/
def hasPassed (s : State) : Bool := s.failures.isEmpty

/-- The state with one more output in the log, and its failure if it has one. -/
def record (s : State) (policy : Policy) (round : Nat) (o : Output) : State :=
  let violations := policy.violations o.account
  { s with
    log := s.log ++ [⟨round, o, violations.isEmpty⟩]
    failures := s.failures ++
      if violations.isEmpty then [] else [⟨round, o.role, o.account.confidence, violations⟩] }

/-- The state after the current round, with the reason to stop if there is one. -/
def closeRound (s : State) (stop : Option StopReason) (now : Timestamp) : State :=
  let closed := { s with roundNumber := s.roundNumber + 1, stopReason := stop }
  { closed with transitions := s.transitions ++ [⟨s.phase, closed.phase, now⟩] }

def layout : Json.Layout :=
  .of ["debate_id", "round_number", "agent_outputs", "stop_reason", "gate_failures", "transitions",
    "created_at"] []

open Json in
def decode : Decoder State := fun w => do
  let f ← layout.read w
  let log ← f.required "agent_outputs" (.list LoggedOutput.decode)
  let createdAt ← f.required "created_at" .timestamp
  let id ← f.required "debate_id" .string
  let failures ← f.required "gate_failures" (.list Failure.decode)
  let roundNumber ← f.required "round_number" (.natBelow roundBound)
  let stopReason ← f.option "stop_reason" .label
  let transitions ← f.required "transitions" (.list Transition.decode)
  pure { id, roundNumber, log, stopReason, failures, transitions, createdAt }

open Json in
def toJson (s : State) : Json :=
  object [("debate_id", .str s.id), ("round_number", ofNat s.roundNumber),
    ("agent_outputs", ofList LoggedOutput.toJson s.log),
    ("stop_reason", ofOption ofLabel s.stopReason),
    ("gate_failures", ofList Failure.toJson s.failures),
    ("transitions", ofList Transition.toJson s.transitions),
    ("created_at", ofTimestamp s.createdAt)]

end State
end Isnad.Debate
