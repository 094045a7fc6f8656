import Isnad.Evidence.Basic
import Isnad.Sanad.Basic

/-! # Counting corroborators

A corroborator counts when its tier is high, it is clean of conflicts, and nothing counted before
it, the primary evidence included, has its origin. -/

namespace Isnad.Grading

/-- Why a corroborator does not count. -/
inductive SkipReason where
  | sharedOrigin | lowTier | conflicted
deriving DecidableEq, Repr

instance : Labelled SkipReason where
  all := [.sharedOrigin, .lowTier, .conflicted]
  label
    | .sharedOrigin => "shared_origin"
    | .lowTier => "low_tier"
    | .conflicted => "conflicted"
  find?_label r := by cases r <;> decide

/-- The reason to skip an item when the given origins are taken. -/
def skipReason? (taken : List String) (e : Evidence) : Option SkipReason :=
  if !e.tier.isHigh then some .lowTier
  else if !e.isClean then some .conflicted
  else if taken.contains e.origin then some .sharedOrigin
  else none

/-- Each corroborator with the reason for which it is skipped, if it is. -/
def judge (taken : List String) : List Evidence → List (Evidence × Option SkipReason)
  | [] => []
  | e :: es =>
    match skipReason? taken e with
    | some r => (e, some r) :: judge taken es
    | none => (e, none) :: judge (e.origin :: taken) es

/-- What the corroborators of a sanad amount to. -/
structure Assessment where
  status : CorroborationStatus
  counted : List Uuid
  skipped : List (Uuid × SkipReason)
  isPromoted : Bool
deriving DecidableEq, Repr

namespace Assessment

/-- The number of independent corroborators of high tier that are clean of conflicts. -/
def independent (a : Assessment) : Nat := a.counted.length

open Json in
def toJson (a : Assessment) : Json :=
  object [("status", ofLabel a.status), ("counted", ofList ofUuid a.counted),
    ("skipped", ofList (fun s => .arr [ofUuid s.1, ofLabel s.2]) a.skipped),
    ("promoted_by_independence_check", .bool a.isPromoted)]

end Assessment

/-- The status for a number of independent corroborators. A single one is promoted by a check that
confirms independence. -/
def statusOf (independent : Nat) (isConfirmed : Bool) : CorroborationStatus :=
  match independent with
  | 0 => .ahad1
  | 1 => if isConfirmed then .mutawatir else .ahad2
  | _ => .mutawatir

/-- Without primary evidence nothing counts. -/
def assess (primary : Option Evidence) (corroborators : List Evidence)
    (check : Option IndependenceCheck) : Assessment :=
  match primary with
  | none => ⟨.none, [], [], false⟩
  | some p =>
    let judged := judge [p.origin] corroborators
    let counted := judged.filterMap fun (e, r) => if r.isNone then some e.id else none
    let skipped := judged.filterMap fun (e, r) => r.map (e.id, ·)
    let isConfirmed := check.any IndependenceCheck.confirms
    ⟨statusOf counted.length isConfirmed, counted, skipped, counted.length = 1 && isConfirmed⟩

end Isnad.Grading
