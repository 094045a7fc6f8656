import Isnad.Debate.Run
import Isnad.Gate.Basic
import Isnad.Text.Blank
import Isnad.Toml.Reader

/-! # Settings

Defaults come first, then a file, then the environment. -/

namespace Isnad

structure Settings where
  gate : Gate.Thresholds
  debate : Debate.Config
deriving DecidableEq, Repr

namespace Settings

def standard : Settings := ⟨.standard, .standard⟩

def layout (surplus : Json.Surplus) : Json.Layout := ⟨[("gate", false), ("debate", false)], surplus⟩

open Json in
def decode (surplus : Surplus) : Decoder Settings := fun w => do
  let f ← (layout surplus).read w
  let debate ← f.orElse "debate" (Debate.Config.decode surplus) .standard
  let gate ← f.orElse "gate" (Gate.Thresholds.decode surplus) .standard
  pure { gate, debate }

open Json in
def toJson (s : Settings) : Json := object [("gate", s.gate.toJson), ("debate", s.debate.toJson)]

/-- Why there are no valid settings. -/
inductive Error where
  | unreadable
  | unparsable
  | badVariable (name value : String)
  | outOfRange (name : String) (value : Decimal)
  | noRounds
deriving DecidableEq, Repr

/-- The message, where there is one. -/
def Error.message? : Error → Option String
  | .unreadable | .unparsable => none
  | .badVariable name value => some ("invalid value " ++ Text.quoted value ++ " for " ++ name)
  | .outOfRange name value =>
    some ("invalid config: " ++ name ++ " must lie in [0, 1], got " ++ value.toString)
  | .noRounds => some "invalid config: debate.max_rounds must be at least 1"

/-- The settings of a file; what it leaves out keeps its default. -/
def ofToml (text : String) : Except Error Settings :=
  match Toml.ofString? text with
  | some w =>
    match decode .ignored w with
    | .ok s => .ok s
    | .error _ => .error .unparsable
  | none => .error .unparsable

/-! ## The environment -/

abbrev Environment := String → Option String

def confidenceVariable : String := "TRUST_GATE_MIN_CONFIDENCE"
def dhabtVariable : String := "TRUST_GATE_MIN_DHABT"
def roundsVariable : String := "TRUST_DEBATE_MAX_ROUNDS"

/-- The value of a variable between blanks, if it is set. -/
def readVariable (env : Environment) (name : String) (read : List Char → Option α) :
    Except Error (Option α) :=
  match env name with
  | none => .ok none
  | some raw =>
    match read (Text.trim raw.toList) with
    | some a => .ok (some a)
    | none => .error (.badVariable name raw)

def rounds? (cs : List Char) : Option Nat := Text.naturalBelow? Debate.roundBound cs

def setMinConfidence (s : Settings) (x : Decimal) : Settings :=
  { s with gate := { s.gate with minConfidence := x } }

def setMinDhabt (s : Settings) (x : Decimal) : Settings :=
  { s with gate := { s.gate with minDhabt := x } }

def setMaxRounds (s : Settings) (n : Nat) : Settings :=
  { s with debate := { s.debate with maxRounds := n } }

/-- Sets what a variable gives, if it is set. -/
def setFrom (env : Environment) (name : String) (read : List Char → Option α)
    (set : Settings → α → Settings) (s : Settings) : Except Error Settings :=
  (readVariable env name read).map fun
    | some a => set s a
    | none => s

/-- The settings under the environment. At a variable that cannot be read, the settings so far and
the error. -/
def override (env : Environment) (s : Settings) : Settings × Except Error Unit :=
  match setFrom env confidenceVariable Decimal.ofChars? setMinConfidence s with
  | .error e => (s, .error e)
  | .ok s =>
    match setFrom env dhabtVariable Decimal.ofChars? setMinDhabt s with
    | .error e => (s, .error e)
    | .ok s =>
      match setFrom env roundsVariable rounds? setMaxRounds s with
      | .error e => (s, .error e)
      | .ok s => (s, .ok ())

/-! ## Validity -/

def checkUnit (name : String) (x : Decimal) : Except Error Unit :=
  if x.inUnitInterval then .ok () else .error (.outOfRange name x)

/-- Thresholds and the ceiling lie in the unit interval, and there is at least one round. -/
def validate (s : Settings) : Except Error Unit := do
  checkUnit "gate.min_confidence" s.gate.minConfidence
  checkUnit "gate.min_dhabt" s.gate.minDhabt
  checkUnit "debate.muhasabah.confidence_ceiling" s.debate.policy.ceiling
  if s.debate.maxRounds = 0 then .error .noRounds else .ok ()

/-- The settings under the environment, if they are valid. -/
def finish (env : Environment) (s : Settings) : Except Error Settings := do
  let (s, result) := s.override env
  result
  s.validate
  pure s

/-- The settings of a file under the environment; none stands for a file that cannot be read. -/
def load (file : Option String) (env : Environment) : Except Error Settings :=
  match file with
  | none => .error .unreadable
  | some text => do finish env (← ofToml text)

/-- The defaults under the environment. -/
def ofEnvironment (env : Environment) : Except Error Settings := finish env standard

end Settings
end Isnad
