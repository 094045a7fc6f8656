import Isnad.Debate.State

/-! # When a debate stops -/

namespace Isnad.Debate.State

/-- The position that a role declared last in a round. -/
def positionOf? (s : State) (round : Nat) (role : Role) : Option String :=
  ((s.inRound round).filterMap fun l =>
    if l.output.role = role then l.output.position else none).getLast?

/-- The declared positions of a round by role, in speaking order. -/
def positions (s : State) (round : Nat) : List (Role × String) :=
  Role.order.filterMap fun r => (s.positionOf? round r).map (r, ·)

/-- The arbiter spoke without open challenges, and the declared positions, of which there is at
least one, are all the same. -/
def isConsensus (s : State) (round : Nat) : Bool :=
  (s.outputOf? round .arbiter).any (·.content.unresolved.isEmpty) &&
    match (s.positions round).map Prod.snd with
    | [] => false
    | p :: ps => ps.all (· = p)

/-- Positions are those of the round before. Two rounds without positions are alike. -/
def isStableDissent (s : State) (round : Nat) : Bool :=
  2 ≤ round && s.positions round = s.positions (round - 1)

/-- The reason to stop after a round, if there is one. -/
def stopAfter? (s : State) (round maxRounds : Nat) : Option StopReason :=
  if s.isConsensus round then some .consensus
  else if s.isStableDissent round then some .stableDissent
  else if maxRounds ≤ round then some .maxRounds
  else none

/-- A debate that goes on after a round is below its limit. -/
theorem lt_of_stopAfter? {s : State} {round maxRounds : Nat}
    (h : s.stopAfter? round maxRounds = none) : round < maxRounds := by
  unfold stopAfter? at h
  split at h
  · cases h
  · split at h
    · cases h
    · split at h
      · cases h
      · rename_i hlimit
        exact Nat.lt_of_not_le hlimit

end Isnad.Debate.State
