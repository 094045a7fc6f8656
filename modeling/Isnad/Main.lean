import Isnad.Invocation
import Std.Time.Format

/-! # The program

Reads files, the environment and the clock, runs one command and prints its report. -/

namespace Isnad.Main

/-- The text of a file; none if it cannot be read. -/
def readText? (name : String) : IO (Option String) := do
  try
    let text ← IO.FS.readFile name
    pure (some text)
  catch _ => pure none

def readEnvironment : IO Settings.Environment := do
  let names := [Settings.confidenceVariable, Settings.dhabtVariable, Settings.roundsVariable]
  let values ← names.mapM fun name => do pure (name, ← IO.getEnv name)
  pure fun name => (values.lookup name).join

/-- A time of the clock as a timestamp. -/
def timestamp? (t : Std.Time.PlainDateTime) : Option Timestamp :=
  Timestamp.ofFields? t.date.year.toInt t.date.month.val.toNat t.date.day.val.toNat
    t.time.hour.val.toNat t.time.minute.val.toNat t.time.second.val.toNat
    t.time.nanosecond.val.toNat

def readClock : IO Timestamp := do
  let now ← Std.Time.Timestamp.now
  match timestamp? (.ofWallTime (now.toWallTime .zero)) with
  | some t => pure t
  | none => throw (IO.userError "the clock is out of range")

def readSettings (file : Option String) : IO (Except String Settings) := do
  let env ← readEnvironment
  let (place, result) ← match file with
    | some name => do pure ("loading config " ++ name, Settings.load (← readText? name) env)
    | none => pure ("reading the environment", Settings.ofEnvironment env)
  pure (result.mapError fun e => ": ".intercalate (place :: e.message?.toList))

def fail (message : String) : IO UInt32 := do
  IO.eprintln ("error: " ++ message)
  pure 1

/-- Runs a command and gives the exit code. -/
def runCommand (settings : Settings) (command : Command String) : IO UInt32 := do
  let now ← readClock
  let loaded ← command.mapM fun name => do pure (File.mk name (← readText? name))
  match loaded.run settings fun _ => now with
  | .error e => fail e.message
  | .ok report =>
    IO.println report.body.pretty
    match report.failure with
    | some message => fail message
    | none => pure 0

end Isnad.Main

open Isnad in
def main (args : List String) : IO UInt32 := do
  match Invocation.ofArguments? args with
  | none =>
    IO.eprintln Invocation.usage
    pure 2
  | some invocation =>
    match ← Main.readSettings invocation.settings with
    | .error message => Main.fail message
    | .ok settings => Main.runCommand settings invocation.command
