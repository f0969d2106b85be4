import Collectives.Scenario.Answer
import Collectives.Scenario.Step
import Collectives.Table

/-!
# Sessions

A session is a process together with a desk for every rank: the names that the rank's steps have given to
things. Replacing a group or a communicator under its name drops the old one; a handle that is replaced while
pending stays outstanding for ever, and so keeps its environment alive.
-/

namespace Collectives

/-- Something that belongs to an environment. -/
structure Held (α : Type) where
  /-- The environment. -/
  environment : Nat
  /-- What belongs to it. -/
  value : α

/-- The names of one rank. -/
structure Desk where
  /-- The rank's end of the fabric, or its script. -/
  endpoint : Option (Substrate Network) := none
  /-- The fabric the rank has an end of. -/
  fabric : Option Nat := none
  /-- The session's environment. -/
  environment : Option Nat := none
  buffers : Table String Buffer := {}
  layouts : Table String FlatLayout := {}
  groups : Table String (Held Group) := {}
  handles : Table String (Held Handle) := {}
  communicators : Table String Communicator := {}
  requests : Table String Nat := {}

/-- A process and the desks of its ranks. -/
structure Session where
  /-- The process. -/
  process : Process Network
  /-- The desks, by rank. -/
  desks : List Desk
  /-- The script whose calls are reported. -/
  observed : Option Nat := none
  /-- The variables of the process. -/
  vars : Variables := fun _ => none

/-- What a step does to a session. -/
abbrev Move (α : Type) := ExceptT Trouble (StateM Session) α

namespace Session

variable {α : Type}

/-- The desk of a rank. -/
def desk (s : Session) (rank : Nat) : Desk := s.desks.getD rank {}

/-- The memory. -/
def heap (s : Session) : Heap := s.process.machine.store.heap

/-- The calls recorded by the script that is reported. -/
def entries (s : Session) : List ScriptEntry :=
  match s.observed with
  | some number => (s.process.machine.net.script number).entries
  | none => []

/-- The lines written to the journal. -/
def journal (s : Session) : List LogLine := s.process.machine.store.journal

/-- The session with journal and recorded calls forgotten. -/
def turnPage (s : Session) : Session :=
  { s with process := { s.process with machine := {
      store := { s.process.machine.store with journal := [] }
      net := s.process.machine.net.forgetEntries } } }

/-- Changes the desk of a rank. -/
def modifyDesk (rank : Nat) (change : Desk → Desk) : Move Unit :=
  modify fun s => { s with desks := s.desks.modify rank change }

/-- A call that can fail, without effect. -/
def check : Except Failure α → Move α
  | .ok value => return value
  | .error cause => throw (.failure cause)

/-- A computation with sizes. -/
def size : Except Fault α → Move α
  | .ok value => return value
  | .error cause => throw (.failure (.fault cause))

/-- What the process does. -/
def run (act : Run Network α) : Move α := do
  let s ← get
  let (answer, process) := act.run s.process
  set { s with process }
  check answer

/-- A call that stays on this side of the substrate. -/
def edit (change : Edit α) : Move α := do
  let s ← get
  let (answer, store) := change.run s.process.machine.store
  set { s with process := { s.process with machine := { s.process.machine with store } } }
  check answer

/-- A substrate step below the engine. -/
def native (step : Native Network α) : Move α := do
  let s ← get
  let (answer, machine) := step.run s.process.machine
  set { s with process := { s.process with machine } }
  match answer with
  | .ok value => return value
  | .error (.error cause) => throw (.substrate cause)
  | .error (.fault cause) => throw (.failure (.fault cause))

/-- A change of the network. -/
def connect (change : StateM Network α) : Move α := do
  let s ← get
  let (answer, net) := change.run s.process.machine.net
  set { s with process := { s.process with machine := { s.process.machine with net } } }
  return answer

/-- Something that has to be there. -/
def need (what : String) : Option α → Move α
  | some value => return value
  | none => throw (.unknown what)

/-- A named thing of a rank. -/
def find (rank : Nat) (table : Desk → Table String α) (name : String) : Move α := do
  need name ((table ((← get).desk rank)).find? name)

/-- A named buffer. -/
def buffer (rank : Nat) (name : String) : Move Buffer := find rank Desk.buffers name

/-- The session's environment. -/
def environment (rank : Nat) : Move Nat := do need "environment" ((← get).desk rank).environment

/-- The rank's own substrate. -/
def endpoint (rank : Nat) : Move (Substrate Network) := do
  need "endpoint" ((← get).desk rank).endpoint

/-! ## Storing -/

/-- Stores a buffer and answers all about it; a buffer whose sizes cannot be computed is not stored. -/
def keepBuffer (rank : Nat) (name : String) (b : Buffer) : Move Answer := do
  let info ← size b.info
  modifyDesk rank fun d => { d with buffers := d.buffers.insert name b }
  return .buffer info

/-- Stores buffers under a name with their places in the list. -/
def keepNumbered (rank : Nat) (name : String) (parts : List Buffer) : Move Answer := do
  for (part, i) in parts.zipIdx do
    let _ ← keepBuffer rank s!"{name}{i}" part
  return .buffers (← size (parts.mapM Buffer.info))

/-- Stores a handle; an old one under the name is left to itself. -/
def keepHandle (rank : Nat) (name : String) (h : Held Handle) : Move Unit :=
  modifyDesk rank fun d => { d with handles := d.handles.insert name h }

/-- Drops a group. -/
def discardGroup (g : Held Group) : Move Unit :=
  run (Process.within g.environment (modify g.value.drop))

/-- Stores a group; an old one under the name is dropped. -/
def keepGroup (rank : Nat) (name : String) (g : Held Group) : Move Unit := do
  let old := ((← get).desk rank).groups.find? name
  modifyDesk rank fun d => { d with groups := d.groups.insert name g }
  match old with
  | some o => discardGroup o
  | none => return

/-- Gives a communicator of a rank's own substrate back. -/
def discardCommunicator (rank : Nat) (comm : Communicator) : Move Unit := do
  let s ← endpoint rank
  modify fun t => { t with process := { t.process with machine := s.release comm t.process.machine } }

/-- Stores a communicator; an old one under the name is given back. -/
def keepCommunicator (rank : Nat) (name : String) (comm : Communicator) : Move Unit := do
  let old := ((← get).desk rank).communicators.find? name
  modifyDesk rank fun d => { d with communicators := d.communicators.insert name comm }
  match old with
  | some o => discardCommunicator rank o
  | none => return

/-- Takes another environment for the session's; the old one is let go of. -/
def keepEnvironment (rank : Nat) (number : Option Nat) : Move Unit := do
  let old := ((← get).desk rank).environment
  modifyDesk rank fun d => { d with environment := number }
  match old with
  | some o => run (Process.release o)
  | none => return

end Session

end Collectives
