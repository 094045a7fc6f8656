import Isnad.Debate.Run

/-! # The outcome of a debate -/

namespace Isnad.Debate

/-- A debate's result with its final state. -/
structure Outcome where
  stopReason : Option StopReason
  rounds : Nat
  hasPassed : Bool
  firstFailure : Option Failure
  state : State
deriving DecidableEq, Repr

/-- Why a result may not be delivered. -/
inductive Undeliverable where
  | notStopped (rounds : Nat)
  | failed (failure : Failure)
deriving DecidableEq, Repr

def Undeliverable.message : Undeliverable → String
  | .notStopped rounds => "debate has not stopped after " ++ toString rounds ++ " round(s)"
  | .failed f => "muhasabah gate failed: " ++ f.line

namespace Outcome

def ofState (s : State) : Outcome :=
  ⟨s.stopReason, s.roundNumber, s.hasPassed, s.firstFailure?, s⟩

def line (o : Outcome) : String :=
  "[" ++ (match o.stopReason with
    | some r => label r
    | none => "RUNNING") ++ "] " ++ toString o.rounds ++ " rounds | muhasabah=" ++
    (if o.hasPassed then "ok" else "FAILED") ++ " | debate=" ++ o.state.id

/-- A result may be delivered once the debate is over, if every account kept the rules. -/
def deliverable (o : Outcome) : Except Undeliverable Unit :=
  match o.stopReason, o.firstFailure with
  | none, _ => .error (.notStopped o.rounds)
  | some _, some f => .error (.failed f)
  | some _, none => .ok ()

open Json in
def toJson (o : Outcome) : Json :=
  object [("stop_reason", ofOption ofLabel o.stopReason), ("rounds_completed", ofNat o.rounds),
    ("muhasabah_passed", .bool o.hasPassed),
    ("gate_failure", ofOption Failure.toJson o.firstFailure), ("state", o.state.toJson)]

end Outcome
end Isnad.Debate
