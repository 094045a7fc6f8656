import Isnad.Debate.Run

/-! # Debates by script -/

namespace Isnad.Debate

/-- Outputs to be played, each role's in its own order. -/
structure Script where
  outputs : List Output
deriving DecidableEq, Repr

namespace Script

/-- The part of a role. -/
def part (s : Script) (role : Role) : List Output := s.outputs.filter (·.role = role)

/-- The output of a role in a round. When its part is over, the last output is played again. -/
def output? (s : Script) (role : Role) (round : Nat) : Option Output :=
  let part := s.part role
  part[min (round - 1) (part.length - 1)]?

/-- Plays a script. -/
def runner (s : Script) : Runner Unit where
  produce role _ state _ :=
    let round := state.roundNumber + 1
    match s.output? role round with
    | some o => (.ok o, ())
    | none => (.error ⟨role, round, "no scripted output"⟩, ())

end Script
end Isnad.Debate
