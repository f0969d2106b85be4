import Collectives.Demonstration.Program

/-!
# The command line

The one argument names a demonstration. It is played under the variables of the process, what it prints goes
to the two outputs, and its exit code becomes the exit code of the process. Without the name of a
demonstration the names are listed.
-/

namespace Collectives

/-- The variables that a demonstration looks at. -/
def Demonstration.variableNames : List String :=
  ["RUST_LOG", "FERROCOLL_CACHE", "FERROCOLL_ALLGATHER"] ++ launchers.flatMap fun l => [l.1, l.2]

/-- The demonstration of a name. -/
def Demonstration.ofName? (name : String) : Option Demonstration :=
  Demonstration.all.find? fun d => d.name == name

/-- Every demonstration is found under its name. -/
theorem Demonstration.ofName?_name (d : Demonstration) : Demonstration.ofName? d.name = some d := by
  cases d <;> decide

/-- What is printed when no demonstration is named. -/
def Demonstration.usage : Printed :=
  { code := 2
    stdout := []
    stderr := "name one demonstration:" :: Demonstration.all.map Demonstration.name }

/-- What the program prints for its arguments, under the given variables. -/
def Demonstration.ofArguments (args : List String) (vars : List (String × String)) : Printed :=
  match args with
  | [name] =>
    match Demonstration.ofName? name with
    | some d => d.run vars
    | none => Demonstration.usage
  | _ => Demonstration.usage

/-- Those of the named variables that are set, with their values. -/
def setVariables (names : List String) : IO (List (String × String)) :=
  names.filterMapM fun name => do return (← IO.getEnv name).map fun value => (name, value)

end Collectives

/-- Plays the demonstration that the arguments name. -/
def main (args : List String) : IO UInt32 := do
  let vars ← Collectives.setVariables Collectives.Demonstration.variableNames
  let printed := Collectives.Demonstration.ofArguments args vars
  for line in printed.stdout do
    IO.println line
  for line in printed.stderr do
    IO.eprintln line
  return printed.code.toUInt32
