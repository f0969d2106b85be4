import Collectives.Config
import Collectives.Substrate.Interface

/-!
# Environments

An environment is one process's use of a substrate. Every substrate step is taken through `enter`: under the
environment's lock, not at all once the environment is finalized, and with a refusal or a fault of the
substrate turned into an error of the library. The communicator over all ranks is made by the first call
that needs it.

References keep an environment alive; when the last one is released it is finalized.
-/

namespace Collectives

/-- One process's use of a substrate. -/
structure Environment (τ : Type) where
  /-- The substrate. -/
  substrate : Substrate τ
  /-- The settings of every group. -/
  config : Config
  /-- The communicator over all ranks, from when it is made until it is given back. -/
  world : Option Communicator := none
  /-- Rank and size of that communicator, once it was made. -/
  view : Option (Nat × Nat) := none
  /-- Whether the substrate was given back. -/
  finalized : Bool := false
  /-- References that keep the environment alive. -/
  holders : Nat := 1

/-- An environment together with the machine it works on. -/
structure Engine (τ : Type) where
  /-- The environment. -/
  environment : Environment τ
  /-- Memory, journal and what the substrate keeps. -/
  machine : Machine τ

/-- What a call of the library does; a call that fails keeps what it changed. -/
abbrev Act (τ α : Type) := ExceptT Failure (StateM (Engine τ)) α

/-- Why a substrate step was not taken to its end. -/
inductive Denial where
  /-- The environment is finalized; the step was not begun. -/
  | finalized
  /-- The substrate refused or gave up. -/
  | refused (cause : Refusal)
  deriving DecidableEq, Repr

/-- The error a caller gets, at a call site. -/
def Denial.failure (site : String) : Denial → Failure
  | .finalized => .error .notInitialized
  | .refused (.error cause) => .error (.substrate site cause.message)
  | .refused (.fault cause) => .error (.substrate site s!"unknown error: {cause.message}")

namespace Engine

variable {τ α : Type}

/-- Adds a line to the journal. -/
def log (e : Engine τ) (level : Level) (component : Component) (text : String) : Engine τ :=
  { e with machine := { e.machine with store := e.machine.store.log level component text } }

/-- Adds a line to the journal. -/
def say (level : Level) (component : Component) (text : String) : Act τ Unit :=
  modify fun e => e.log level component text

/-- A call that stays on this side of the substrate. -/
def edit (change : Edit α) : Act τ α := ExceptT.mk fun e =>
  let (answer, store) := change.run e.machine.store
  (answer, { e with machine := { e.machine with store } })

/-- A substrate step under the lock. -/
def attempt (step : Native τ α) : StateM (Engine τ) (Except Denial α) := fun e =>
  if e.environment.finalized then (.error .finalized, e)
  else
    let (answer, machine) := step.run e.machine
    (answer.mapError .refused, { e with machine })

/-- A substrate step under the lock, its failures turned into errors. -/
def enter (site : String) (step : Native τ α) : Act τ α := ExceptT.mk fun e =>
  let (answer, e') := attempt step e
  (answer.mapError (Denial.failure site), e')

/-- The substrate in use. -/
def substrate (e : Engine τ) : Substrate τ := e.environment.substrate

/-- Rank and size among all ranks; the first call makes the communicator over them. -/
def initOnce : Act τ (Nat × Nat) := do
  let e ← get
  match e.environment.view with
  | some view => return view
  | none =>
    let comm ← enter "world communicator" e.substrate.create
    modify fun e => { e with environment := { e.environment with
      world := some comm, view := some (comm.rank, comm.size) } }
    say .info .environment
      s!"{e.substrate.name} world communicator ready: rank {comm.rank} of {comm.size}"
    return (comm.rank, comm.size)

/-- Makes a communicator. -/
def createCommunicator : Act τ Communicator := do enter "communicator" (← get).substrate.create

/-- Gives a communicator back, also after finalization. -/
def releaseCommunicator (comm : Communicator) (e : Engine τ) : Engine τ :=
  { e with machine := e.substrate.release comm e.machine }

/-- Gives the communicator over all ranks back, if there is one. -/
def releaseWorld (e : Engine τ) : Engine τ :=
  match e.environment.world with
  | some comm =>
    { releaseCommunicator comm e with environment := { e.environment with world := none } }
  | none => e

/-- Gives the communicator over all ranks and then the substrate back; a second time nothing is done. -/
def finalize (e : Engine τ) : Engine τ :=
  if e.environment.finalized then e
  else
    let idle := e.releaseWorld
    let closed : Engine τ :=
      { environment := { idle.environment with finalized := true }
        machine := idle.substrate.finalize idle.machine }
    closed.log .info .environment s!"{e.substrate.name} environment finalized"

/-- One more reference to the environment. -/
def acquire (e : Engine τ) : Engine τ :=
  { e with environment := { e.environment with holders := e.environment.holders + 1 } }

/-- One reference less; the last one finalizes. -/
def release (e : Engine τ) : Engine τ :=
  let left := e.environment.holders - 1
  let e' := { e with environment := { e.environment with holders := left } }
  if left = 0 then e'.finalize else e'

end Engine

/-- An environment written out with its settings. -/
def Environment.describe {τ : Type} (e : Environment τ) : String :=
  let view := e.view.map fun v => s!"({v.1}, {v.2})"
  Text.record "Environment"
    [("substrate", Text.quoted e.substrate.name), ("config", e.config.describe),
     ("world", Text.optional view)]

end Collectives
