import Collectives.Engine.Environment
import Collectives.Rendezvous

/-!
# Process groups

A group is one rank's end of a communicator of its own, made when the group is created and given back when
it is dropped. A group is created only where the launcher's promise agrees with the communicator over all
ranks.
-/

namespace Collectives

/-- One rank's end of a group of ranks that issue collectives together. -/
structure Group where
  /-- The communicator of the group. -/
  comm : Communicator
  /-- How an all-gather hands over its destination. -/
  mode : GatherMode
  deriving DecidableEq, Repr

namespace Group

variable {τ : Type}

/-- Rank of this process in the group. -/
def rank (g : Group) : Nat := g.comm.rank

/-- Number of ranks in the group. -/
def size (g : Group) : Nat := g.comm.size

/-- The mode a communicator allows: one destination for every rank only where it is supported. -/
def effectiveMode (wanted : GatherMode) (comm : Communicator) : GatherMode :=
  if wanted = .vector ∧ comm.vector = false then .flat else wanted

/-- Creates a group; it holds a reference to the environment. -/
def create (expected : Rendezvous) : Act τ Group := do
  let (rank, size) ← Engine.initOnce
  expected.check rank size
  let comm ← Engine.createCommunicator
  let e ← get
  let wanted := e.environment.config.gatherMode
  let mode := effectiveMode wanted comm
  if mode ≠ wanted then
    Engine.say .warn .group
      s!"{e.substrate.name} substrate cannot gather into per-rank buffers; using flat all-gather"
  Engine.say .debug .group
    s!"process group ready: rank {comm.rank} of {comm.size}, all-gather {mode.text}"
  modify Engine.acquire
  return { comm, mode }

/-- Drops a group: the communicator goes first, then the reference to the environment. -/
def drop (g : Group) (e : Engine τ) : Engine τ := (e.releaseCommunicator g.comm).release

/-- A group on a substrate of the given name, written out. -/
def describe (g : Group) (substrate : String) : String :=
  Text.record "ProcessGroup"
    [("rank", toString g.rank), ("size", toString g.size), ("substrate", Text.quoted substrate),
     ("allgather_mode", g.mode.name)]

end Group

end Collectives
