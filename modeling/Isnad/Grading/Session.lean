import Isnad.Grading.Lookup

/-! # Work on a sanad

Between gradings, evidence comes on file and the sanad is edited by hand. -/

namespace Isnad.Grading

/-- A sanad at work, with the evidence on file and what the last grading gave. -/
structure Session where
  store : EvidenceStore
  sanad : Sanad
  last : Option (Except NotFound GradeResult) := none
deriving Repr

/-- A step of the work. -/
inductive Step where
  | insert (e : Evidence)
  | addDefect (d : Defect)
  | setStatus (index : Nat) (status : DefectStatus)
  | setPrimary (primary : Uuid)
  | setCorroborators (corroborators : List Uuid)
  | setIndependence (independence : Option IndependenceCheck)
  | grade
  | apply
deriving DecidableEq, Repr

namespace Session

/-- What a grading gives at this point. -/
def graded (w : Session) : Except NotFound GradeResult := gradeFrom w.store w.sanad

/-- The session with a grading made. The sanad is left as it is. -/
def regraded (w : Session) : Session := { w with last := some w.graded }

/-- The grade is written on the sanad when it is applied, and if there is one. -/
def step (w : Session) : Step → Session
  | .insert e => { w with store := w.store.insert e }
  | .addDefect d => { w with sanad := { w.sanad with defects := w.sanad.defects ++ [d] } }
  | .setStatus index status =>
    { w with
      sanad := { w.sanad with defects := w.sanad.defects.modify index ({ · with status }) } }
  | .setPrimary primary => { w with sanad := { w.sanad with primary } }
  | .setCorroborators corroborators => { w with sanad := { w.sanad with corroborators } }
  | .setIndependence independence => { w with sanad := { w.sanad with independence } }
  | .grade => w.regraded
  | .apply =>
    match w.graded with
    | .ok r => { w.regraded with sanad := r.applyTo w.sanad }
    | .error _ => w.regraded

/-- The session after some steps. -/
def run (w : Session) (steps : List Step) : Session := steps.foldl step w

end Session
end Isnad.Grading
