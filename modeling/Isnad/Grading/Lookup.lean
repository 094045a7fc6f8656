import Isnad.Evidence.Store
import Isnad.Grading.Basic

/-! # Grading by the evidence on file -/

namespace Isnad.Grading

/-- A sanad refers to evidence that is not on file. -/
structure NotFound where
  sanad : Uuid
  evidence : Uuid
deriving DecidableEq, Repr

def NotFound.message (e : NotFound) : String :=
  "evidence " ++ e.evidence.toString ++ " referenced by sanad " ++ e.sanad.toString ++ " not found"

/-- The evidence of an identifier that a sanad refers to. -/
def resolve (store : EvidenceStore) (s : Sanad) (id : Uuid) : Except NotFound Evidence :=
  match store.get? id with
  | some e => .ok e
  | none => .error ⟨s.id, id⟩

/-- Grades a sanad by the evidence it refers to, all of which must be on file. -/
def gradeFrom (store : EvidenceStore) (s : Sanad) : Except NotFound GradeResult := do
  let primary ← resolve store s s.primary
  let corroborators ← s.corroborators.mapM (resolve store s)
  pure (grade s (some primary) corroborators)

end Isnad.Grading
