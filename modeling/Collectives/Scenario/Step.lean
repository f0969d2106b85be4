import Collectives.Engine.Operation
import Collectives.Memory.View
import Collectives.Rendezvous
import Collectives.Substrate.Script

/-!
# Steps of a scenario

A scenario is a list of steps, each taken by one rank. Steps speak about named things: every rank has its
own names for buffers, layouts, groups, handles, communicators and requests.
-/

namespace Collectives

/-- What is asked of a communicator directly, below the engine. -/
inductive RawCall where
  | bcast (buffer : String) (count : Nat) (tag : Tag) (root : Nat)
  | allreduce (send recv : String) (count : Nat) (tag : Tag) (reduction : Reduction)
  | reduce (send recv : String) (count : Nat) (tag : Tag) (reduction : Reduction) (root : Nat)
  | gatherFlat (send : String) (count : Nat) (recv : String) (recvCounts : List Nat) (tag : Tag)
  | gatherEach (send : String) (count : Nat) (recvs : List String) (recvCounts : List Nat) (tag : Tag)
  | alltoall (send recv : String) (count : Nat) (tag : Tag)
  | alltoallv (send : String) (sendCounts : List Nat) (recv : String) (recvCounts : List Nat) (tag : Tag)

/-- Where a new group comes from. -/
inductive GroupOrigin where
  /-- The session's environment. -/
  | session (expected : Rendezvous)
  /-- The environment of the whole process. -/
  | process (expected : Rendezvous)
  /-- The environment of the whole process, expecting what the launcher says. -/
  | launched

/-- Steps on the rank's own buffers and layouts. -/
inductive BufferStep where
  /-- A buffer of zeros. -/
  | zeros (name : String) (dtype : ElementType) (shape : List Nat)
  /-- A buffer of no elements. -/
  | empty (name : String) (dtype : ElementType)
  /-- A buffer of given elements. -/
  | filled (name : String) (dtype : ElementType) (words : List Nat) (shape : List Nat)
  /-- A buffer of given elements in one dimension. -/
  | listed (name : String) (dtype : ElementType) (words : List Nat)
  /-- A buffer that can hold all the named ones. -/
  | flatLike (name : String) (buffers : List String)
  /-- A view of a buffer. -/
  | view (name source : String) (view : View)
  /-- Runs of rows of a buffer, stored under numbered names. -/
  | split (name source : String) (sizes : List Nat)
  | info (buffer : String)
  | describe (buffer : String)
  | leadingDim (buffer : String)
  /-- The elements of a buffer, read as a type, or as its own. -/
  | read (buffer : String) (dtype : Option ElementType)
  | write (buffer : String) (dtype : ElementType) (words : List Nat)
  | copy (source target : String)
  | sameStorage (a b : String)
  /-- Forgets the name of a buffer. -/
  | forget (buffer : String)
  | reconcile (name : String) (buffers : List String)
  /-- The parts of a layout's region, stored under numbered names. -/
  | slices (name layout : String)
  | pack (layout : String) (buffers : List String)
  | unpack (layout : String) (buffers : List String)
  | splitCounts (buffer : String) (sizes : List Nat) (groupSize : Nat)

/-- Steps on environments and groups. -/
inductive EnvironmentStep where
  | initOnce
  | finalize
  | isFinalized
  /-- Asks for substrate and settings. -/
  | info
  /-- Enters the environment with a step that follows a cue. -/
  | enter (cue : Cue)
  | planHits
  | endpoint
  | group (name : String) (origin : GroupOrigin)
  | dropGroup (name : String)
  /-- Lets go of the session's environment. -/
  | drop
  /-- Takes the environment of the whole process for the session's. -/
  | adoptGlobal
  /-- Installs an environment for the whole process, over a script or over one rank of its own. -/
  | installGlobal (script : Option Script) (config : Config)
  | configFromVariables
  | rendezvousFromVariables

/-- Steps that call a substrate, through a group or below the engine. -/
inductive CallStep where
  /-- An operation of a group; its handle is stored. -/
  | operate (group handle : String) (operation : Operation String)
  | poll (handle : String)
  | wait (handle : String)
  | success (handle : String)
  | abort (handle : String)
  /-- Polls until the answer is yes. -/
  | pollUntil (handle : String)
  | info (handle : String)
  | drop (handle : String)
  /-- Makes a communicator below the engine. -/
  | communicator (name : String)
  | raw (communicator request : String) (call : RawCall) (attr : Attributes)
  | rawBarrier (communicator : String)
  | requestTest (request : String)
  | requestWait (request : String)

/-- One step of a scenario. -/
inductive Step where
  | buffer (step : BufferStep)
  | environment (step : EnvironmentStep)
  | call (step : CallStep)

/-- A step, the rank that takes it, and the buffers to show after it. -/
structure Entry where
  /-- The rank. -/
  rank : Nat
  /-- The step. -/
  step : Step
  /-- Buffers to show once the step is over. -/
  shown : List String

end Collectives
