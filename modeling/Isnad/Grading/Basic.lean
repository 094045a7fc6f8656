import Isnad.Grading.Cure

/-! # Grading a sanad

The grade starts from that of the primary evidence. Full corroboration makes it one step stronger,
each open major defect one step weaker; an open fatal defect forces the weakest grade; and the
strictest cap comes last. -/

namespace Isnad.Grading

/-- A grade and how it came about. -/
structure GradeResult where
  grade : Grade
  base : Grade
  status : CorroborationStatus
  sources : List CureResult
  cap : Option Grade
  addedDefects : List Defect
  warnings : List String
  explanation : List String
deriving DecidableEq, Repr

namespace GradeResult

open Json in
def toJson (r : GradeResult) : Json :=
  object [("grade", ofLabel r.grade), ("base_grade", ofLabel r.base),
    ("corroboration_status", ofLabel r.status), ("coi_results", ofList CureResult.toJson r.sources),
    ("cap", ofOption ofLabel r.cap), ("added_defects", ofList Defect.toJson r.addedDefects),
    ("warnings", ofStrings r.warnings), ("explanation", ofStrings r.explanation)]

/-- The sanad with this grade. The open defects that an earlier grading derived from conflicts give
way to those of this one. -/
def applyTo (r : GradeResult) (s : Sanad) : Sanad :=
  { s with
    grade := r.grade
    status := r.status
    defects := s.defects.filter (fun d => !(d.type.isConflictDerived && d.isOpen)) ++
      r.addedDefects }

end GradeResult

/-- A grade on its way, with the steps taken so far. -/
structure Trace where
  grade : Grade
  steps : List String
deriving DecidableEq, Repr

namespace Trace

/-- The trace after a step to `grade`, described with it. -/
def step (t : Trace) (grade : Grade) (describe : Grade → String) : Trace :=
  ⟨grade, t.steps ++ [describe grade]⟩

def start (base : Grade) : Trace :=
  ⟨base, ["base grade " ++ label base ++ " from primary evidence"]⟩

def upgrade (t : Trace) (status : CorroborationStatus) : Trace :=
  if status = .mutawatir then
    t.step t.grade.upgraded fun g => "MUTAWATIR corroboration: upgraded to " ++ label g
  else t.step t.grade fun _ => label status ++ " corroboration: no upgrade"

def downgrade (t : Trace) (d : Defect) : Trace :=
  if d.isOpenMajor then
    t.step t.grade.downgraded fun g =>
      "open MAJOR " ++ label d.type ++ ": downgraded to " ++ label g
  else t

def force (t : Trace) (fatal : Option Defect) : Trace :=
  match fatal with
  | some d => t.step .d fun _ => "open FATAL " ++ label d.type ++ ": forced to D"
  | none => t

def limit (t : Trace) (cap : Option Grade) : Trace :=
  match cap with
  | some ceiling =>
    let capped := t.grade.stricter ceiling
    if capped = t.grade then t
    else t.step capped fun g =>
      "COI cap " ++ label ceiling ++ ": " ++ label t.grade ++ " -> " ++ label g
  | none => t

end Trace

/-- The defects that count against a grade: those on record, leaving out what grading derives from
conflicts, and then those it derives now. -/
def countedDefects (s : Sanad) (added : List Defect) : List Defect :=
  s.defects.filter (fun d => !d.type.isConflictDerived) ++ added

/-- The grade without primary evidence. -/
def ungraded : GradeResult :=
  ⟨.d, .d, .none, [], none, [], [], ["no primary evidence; grade D"]⟩

/-- Grades a sanad by its evidence. -/
def grade (s : Sanad) (primary : Option Evidence) (corroborators : List Evidence) : GradeResult :=
  match primary with
  | none => ungraded
  | some p =>
    let assessment := assess (some p) corroborators s.independence
    let context : CureContext := ⟨assessment.status, assessment.independent, s.independence⟩
    let sources := (p :: corroborators).map (judgeSource context)
    let addedDefects := sources.filterMap (·.defect)
    let cap := Grade.strictestCap (sources.map (·.cap))
    let upgraded := (Trace.start p.grade).upgrade assessment.status
    let downgraded := (countedDefects s addedDefects).foldl Trace.downgrade upgraded
    let trace := (downgraded.force (s.defects.find? Defect.isOpenFatal)).limit cap
    { grade := trace.grade
      base := p.grade
      status := assessment.status
      sources
      cap
      addedDefects
      warnings := sources.flatMap (·.warnings)
      explanation := trace.steps }

end Isnad.Grading
