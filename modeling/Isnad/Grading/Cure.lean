import Isnad.Grading.Corroboration

/-! # Cures for conflicts of interest

A conflict of low or medium severity needs no cure. An undisclosed conflict of high severity is
cured by one independent corroborator, unless independence was denied; a disclosed one by two, or
by a status that says as much. What is not cured costs the sanad a cap, a defect or both. -/

namespace Isnad.Grading

/-- What the cures depend on besides the source. -/
structure CureContext where
  status : CorroborationStatus
  independent : Nat
  check : Option IndependenceCheck
deriving DecidableEq, Repr

/-- The judgement on the conflict of one source. -/
structure CureResult where
  source : Uuid
  isCured : Bool
  cap : Option Grade
  defect : Option Defect
  needsCorroboration : Bool
  warnings : List String
  explanation : String
deriving DecidableEq, Repr

namespace CureResult

/-- No penalty. -/
def cured (source : Uuid) (explanation : String) : CureResult :=
  ⟨source, true, none, none, false, [], explanation⟩

open Json in
def toJson (r : CureResult) : Json :=
  object [("evidence_id", ofUuid r.source), ("cured", .bool r.isCured),
    ("grade_cap", ofOption ofLabel r.cap), ("defect", ofOption Defect.toJson r.defect),
    ("requires_additional_corroboration", .bool r.needsCorroboration),
    ("warnings", ofStrings r.warnings), ("explanation", .str r.explanation)]

end CureResult

/-- A severity that was never assessed caps the grade. -/
def judgeUnspecified (source : Uuid) : CureResult :=
  ⟨source, false, some .c, none, false, [],
    "conflict present with unspecified severity; capped at C"⟩

def judgeMedium (source : Uuid) (isDisclosed : Bool) : CureResult :=
  { CureResult.cured source "MEDIUM conflict accepted" with
    warnings := if isDisclosed then []
      else ["source " ++ source.toString ++ " has an undisclosed MEDIUM conflict"] }

def judgeHighUndisclosed (source : Uuid) (c : CureContext) : CureResult :=
  let isVetoed := c.check.any IndependenceCheck.contradicts
  if 1 ≤ c.independent ∧ !isVetoed then
    .cured source ("undisclosed HIGH conflict cured by " ++ toString c.independent ++
      " independent high-tier corroborator(s)")
  else
    let why := if isVetoed then "independence check contradicts the corroboration"
      else "no independent high-tier corroborator"
    { source
      isCured := false
      cap := some .c
      defect := some (.opened .coiHighUndisclosed .major .requireIndependentCorroboration
        ("source " ++ source.toString ++ " has an undisclosed HIGH conflict; " ++ why))
      needsCorroboration := true
      warnings := []
      explanation := "undisclosed HIGH conflict not cured (" ++ why ++ "); capped at C" }

def judgeHighDisclosed (source : Uuid) (c : CureContext) : CureResult :=
  if c.status = .mutawatir ∨ 2 ≤ c.independent then
    .cured source ("disclosed HIGH conflict cured by " ++ label c.status ++ " corroboration")
  else
    { source
      isCured := false
      cap := none
      defect := some (.opened .coiHighUncured .major .requireMutawatirCorroboration
        ("source " ++ source.toString ++
          " has a disclosed HIGH conflict without MUTAWATIR corroboration"))
      needsCorroboration := true
      warnings := []
      explanation := "disclosed HIGH conflict needs MUTAWATIR corroboration, have " ++
        label c.status }

def judgeConflict (source : Uuid) (conflict : Conflict) (c : CureContext) : CureResult :=
  match conflict.severity with
  | none => judgeUnspecified source
  | some .low => .cured source "LOW conflict carries no penalty"
  | some .medium => judgeMedium source conflict.isDisclosed
  | some .high =>
    if conflict.isDisclosed then judgeHighDisclosed source c else judgeHighUndisclosed source c

/-- The judgement on a source. -/
def judgeSource (c : CureContext) (e : Evidence) : CureResult :=
  match e.conflict with
  | some conflict =>
    if conflict.isPresent then judgeConflict e.id conflict c
    else .cured e.id "no conflict of interest"
  | none => .cured e.id "no conflict of interest"

end Isnad.Grading
