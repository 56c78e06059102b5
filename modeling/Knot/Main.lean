import Knot.Demo

/-!
The command line: loads the settings from the environment and the file `.env`, and runs the
demonstration.
-/

open Knot

/-- The variables of the environment that can set a field, in each of two spellings. -/
def readEnvironment : IO (Bindings String String) := do
  let names := Settings.Field.all.flatMap fun f =>
    let name := Settings.Options.variableName {} f
    [name, name.toUpper]
  let found ← names.mapM fun name => return (← IO.getEnv name).map (name, ·)
  return found.filterMap id

/-- The text of the file of variables, if there is one. -/
def readFile : IO (Option String) := do
  try return some (← IO.FS.readFile ".env")
  catch _ => return none

def complain (complaints : List Settings.Complaint) : IO UInt32 := do
  for c in complaints do
    IO.eprintln (c.name ++ ": " ++ c.problem.message ++ " [" ++ c.problem.kind ++ "]")
  return 1

def main : IO UInt32 := do
  let sources : Settings.Sources := ⟨← readEnvironment, ← readFile⟩
  match (Settings.Cache.get { sources }).1 with
  | .error complaints => complain complaints
  | .ok loaded =>
      let (result, store) := Demo.inSession fun k => Demo.script k loaded.settings
      IO.print store.out
      match result with
      | .ok () => return 0
      | .error (.fault f) => do
          IO.eprintln (f.kind ++ ": " ++ f.message)
          return 1
      | .error .outOfFuel => return 1
