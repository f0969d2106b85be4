import Collectives.Engine.Dispatch

/-!
# Processes

A process has one machine and any number of environments over it. One environment can be installed for the
whole process, and at most one ever is: a second installation is refused. What was built for it is then
dropped again, and dropping an environment finalizes it. With the installation a teardown is registered, which
finalizes the installed environment at the end of the process.
-/

namespace Collectives

/-- A process: its machine, its environments, and which of them is installed. -/
structure Process (τ : Type) where
  /-- Memory, journal and what the substrates keep. -/
  machine : Machine τ
  /-- The environments, by number. -/
  environments : List (Environment τ) := []
  /-- The environment installed for the whole process. -/
  installed : Option Nat := none
  /-- How many teardowns are registered for the end of the process. -/
  teardowns : Nat := 0

/-- What a process does. -/
abbrev Run (τ α : Type) := ExceptT Failure (StateM (Process τ)) α

namespace Process

variable {τ α : Type}

/-- A call in one environment. -/
def within (number : Nat) (act : StateM (Engine τ) α) : Run τ α := do
  let p ← get
  match p.environments[number]? with
  | none => throw (.error (.internal "no such environment"))
  | some environment =>
    let (answer, e) := act.run { environment, machine := p.machine }
    set { p with machine := e.machine, environments := p.environments.set number e.environment }
    return answer

/-- A call in one environment that can fail. -/
def perform (number : Nat) (act : Act τ α) : Run τ α := do
  match ← within number act.run with
  | .ok answer => return answer
  | .error failure => throw failure

/-- Builds an environment; the caller holds its only reference. -/
def build (substrate : Substrate τ) (config : Config) : Run τ Nat := do
  let p ← get
  let environment : Environment τ := { substrate, config }
  set { p with environments := p.environments ++ [environment] }
  return p.environments.length

/-- One more reference to an environment. -/
def acquire (number : Nat) : Run τ Unit := within number (modify Engine.acquire)

/-- One reference less to an environment. -/
def release (number : Nat) : Run τ Unit := within number (modify Engine.release)

/-- Installs a built environment and registers its teardown; both the process and the caller hold it. -/
def install (number : Nat) (verb : String) : Run τ Unit := do
  modify fun p => { p with installed := some number, teardowns := p.teardowns + 1 }
  acquire number
  perform number do
    let e ← get
    Engine.say .info .environment s!"{verb} global {e.substrate.name} environment"

/-- Builds an environment and installs it, unless there is one. -/
def installGlobal (substrate : Substrate τ) (config : Config) : Run τ Nat := do
  let number ← build substrate config
  match (← get).installed with
  | some _ =>
    release number
    throw (.error .alreadyInitialized)
  | none =>
    install number "installed"
    return number

/-- The installed environment. On first use one is built from the settings in the variables, over the
substrate that `fallback` provides. -/
def installedOr (vars : Variables) (fallback : StateM τ (Substrate τ)) : Run τ Nat := do
  match (← get).installed with
  | some number =>
    acquire number
    return number
  | none =>
    match Config.ofVariables vars with
    | .error cause => throw (.error cause)
    | .ok config =>
      let p ← get
      let (substrate, net) := fallback.run p.machine.net
      set { p with machine := { p.machine with net } }
      let number ← build substrate config
      install number "initialized"
      return number

/-- Finalizes the installed environment. -/
def teardown : Run τ Unit := do
  match (← get).installed with
  | some number => within number (modify Engine.finalize)
  | none => return

/-- Every teardown that is registered, as the end of the process runs them. -/
def exit : Run τ Unit := do (List.replicate (← get).teardowns teardown).forM id

end Process

end Collectives
