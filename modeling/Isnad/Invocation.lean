import Isnad.Command

/-! # Invocations -/

namespace Isnad

/-- What the arguments of the program ask for: a command, and the file of its settings if there is
one. -/
structure Invocation where
  settings : Option String
  command : Command String
deriving DecidableEq, Repr

namespace Invocation

/-- An argument `--name=value` as the two arguments it stands for. -/
def separate (name arg : String) : List String :=
  match (name ++ "=").toList.isPrefixOf? arg.toList with
  | some value => [name, String.ofList value]
  | none => [arg]

/-- The value that follows an option, and the other arguments. An option is given at most once. -/
def takeOption? (name : String) : List String → Option (Option String × List String)
  | [] => some (none, [])
  | [arg] => if arg = name then none else some (none, [arg])
  | arg :: next :: args =>
    if arg = name then do
      let (again, others) ← takeOption? name args
      if again.isSome then none else some (some next, others)
    else do
      let (value, others) ← takeOption? name (next :: args)
      some (value, arg :: others)

/-- The value of an option in either form, and the other arguments. -/
def option? (name : String) (args : List String) : Option (Option String × List String) :=
  takeOption? name (args.flatMap (separate name))

def command? : List String → Option (Command String)
  | ["gate", file] => some (.gate file)
  | ["validate-sanad", file] => some (.validateSanad file)
  | ["validate-claim", file] => some (.validateClaim file)
  | ["debate", file] => some (.debate file)
  | "grade" :: args => do
    match ← option? "--evidence" args with
    | (some evidence, [sanad]) => some (.grade sanad evidence)
    | _ => none
  | _ => none

def ofArguments? (args : List String) : Option Invocation := do
  let (settings, rest) ← option? "--config" args
  some ⟨settings, ← command? rest⟩

def usage : String :=
  "usage: [--config FILE] (gate | validate-sanad | validate-claim | debate) FILE\n" ++
  "       [--config FILE] grade SANAD --evidence FILE"

end Invocation
end Isnad
