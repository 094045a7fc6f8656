import Isnad.Claim.Validity
import Isnad.Debate.Outcome
import Isnad.Debate.Script
import Isnad.Gate.Decision
import Isnad.Grading.Lookup
import Isnad.Json.Reader
import Isnad.Sanad.Validity
import Isnad.Settings

/-! # Commands

A command reads files and gives a report. A report on input that was refused says so. -/

namespace Isnad

/-- A file by its name; none if it cannot be read. -/
structure File where
  name : String
  text : Option String
deriving DecidableEq, Repr

/-- A command on files, of which `φ` is what is known. -/
inductive Command (φ : Type) where
  | gate (file : φ)
  | validateSanad (file : φ)
  | validateClaim (file : φ)
  | grade (sanad evidence : φ)
  | debate (file : φ)
deriving DecidableEq, Repr

namespace Command

/-- The command on what `f` gives for its files. -/
def mapM [Monad m] (f : φ → m ψ) : Command φ → m (Command ψ)
  | .gate x => do pure (.gate (← f x))
  | .validateSanad x => do pure (.validateSanad (← f x))
  | .validateClaim x => do pure (.validateClaim (← f x))
  | .grade x y => do pure (.grade (← f x) (← f y))
  | .debate x => do pure (.debate (← f x))

/-- What a command prints, and why the input was refused if it was. -/
structure Report where
  body : Json
  failure : Option String
deriving DecidableEq, Repr

/-- Why a command gives no report. -/
inductive Error where
  | reading (file : String)
  | parsing (file : String)
  | grading (sanad : Uuid) (cause : Grading.NotFound)
  | debate (cause : Debate.Error)
deriving DecidableEq, Repr

/-- The error and its causes, the outermost first. -/
def Error.chain : Error → List String
  | .reading f => ["reading " ++ f]
  | .parsing f => ["parsing " ++ f]
  | .grading s cause => ["grading sanad " ++ s.toString, cause.message]
  | .debate (.runner e) => [(Debate.Error.runner e).message, e.message]
  | .debate cause => [cause.message]

def Error.message (e : Error) : String := ": ".intercalate e.chain

/-- The text of a file. -/
def File.read (f : File) : Except Error String :=
  match f.text with
  | some s => .ok s
  | none => .error (.reading f.name)

/-- The record that a file of JSON holds. -/
def readJson (d : Json.Decoder α) (f : File) : Except Error α := do
  let text ← File.read f
  match Json.Written.ofString? text with
  | some w =>
    match d w with
    | .ok a => .ok a
    | .error _ => .error (.parsing f.name)
  | none => .error (.parsing f.name)

def gateReport (b : Gate.Batch) : Report where
  body := b.toJson
  failure := if b.isAllAllowed then none
    else some (toString b.blocked.length ++ " of " ++ toString b.total ++ " inputs blocked")

def validationReport (kind : String) (r : Isnad.Report) : Report where
  body := r.toJson
  failure := if r.passed then none
    else some (kind ++ " failed validation with " ++ toString r.errors.length ++ " error(s)")

def rejectionReport (r : Rejection) : Report where
  body := Json.object [("errors", Json.ofList Issue.toJson r.errors)]
  failure := some r.message

def debateReport (o : Debate.Outcome) : Report where
  body := o.toJson
  failure := match o.deliverable with
    | .ok () => none
    | .error e => some e.message

/-- The evidence is read only if the sanad is accepted. -/
def gradeReport (sanad evidence : File) : Except Error Report := do
  match Sanad.parse (← readJson .json sanad).toJson with
  | .error rejection => pure (rejectionReport rejection)
  | .ok s =>
    let items ← readJson (.list Evidence.decode) evidence
    match Grading.gradeFrom (.ofList items) s with
    | .ok r => pure ⟨r.toJson, none⟩
    | .error e => .error (.grading s.id e)

/-- A debate to be played. -/
structure Play where
  context : Debate.Context
  script : Debate.Script

open Json in
def Play.decode : Decoder Play := fun w => do
  let f ← (Layout.of ["context", "outputs"] []).read w
  let context ← f.required "context" Debate.Context.decode
  let outputs ← f.required "outputs" (.list Debate.Output.decode)
  pure ⟨context, ⟨outputs⟩⟩

/-- Plays a debate from its start to its end. -/
def Play.report (p : Play) (config : Debate.Config) (clock : Nat → Timestamp) :
    Except Error Report :=
  let setting : Debate.Setting Unit := ⟨p.script.runner, p.context, config, clock⟩
  match (setting.run (.fresh p.context.id (clock 0)) ()).1 with
  | .ok s => .ok (debateReport (.ofState s))
  | .error e => .error (.debate e)

/-- Runs a command. The clock gives the time of each round. -/
def run (settings : Settings) (clock : Nat → Timestamp) : Command File → Except Error Report
  | .gate f => do
    let inputs ← readJson (.list Gate.Input.decode) f
    pure (gateReport (settings.gate.evaluateBatch inputs))
  | .validateSanad f => do
    pure (validationReport "sanad" (Sanad.validate (← readJson .json f).toJson))
  | .validateClaim f => do
    pure (validationReport "claim" (Claim.validate (← readJson .json f).toJson))
  | .grade s e => gradeReport s e
  | .debate f => do (← readJson Play.decode f).report settings.debate clock

end Command
end Isnad
