import Collectives.Engine.Process
import Collectives.Memory.Transfer
import Collectives.Scenario.Network

/-!
# Answers

What a step answers, as values: a printer of answers decides about their outer form, and about nothing else.
-/

namespace Collectives

/-- All that can be asked about a buffer. -/
structure BufferInfo where
  /-- The buffer. -/
  buffer : Buffer
  /-- Number of elements. -/
  numel : Nat
  /-- Number of bytes. -/
  nbytes : Nat
  /-- Whether the elements lie side by side. -/
  contiguous : Bool
  /-- Whether the buffer is strided, on the host and contiguous. -/
  dense : Bool
  deriving DecidableEq, Repr

/-- Asks all about a buffer. -/
def Buffer.info (b : Buffer) : Except Fault BufferInfo := do
  return {
    buffer := b
    numel := ← b.numel
    nbytes := ← b.nbytes
    contiguous := ← b.isContiguous
    dense := ← b.isDense }

/-- The elements of a buffer, or nothing for truth values. -/
abbrev Dump := Option (List Reading)

/-- What a reader sees of words of one type. -/
def ElementType.dump (t : ElementType) (words : List Nat) : Dump :=
  if t = .bool then none else some (words.filterMap t.reading?)

/-- The elements of a buffer, read as a type. -/
def Buffer.dumpAs (b : Buffer) (h : Heap) (dtype : ElementType) : Except Failure Dump := do
  return dtype.dump (← b.toWords h dtype)

/-- The elements of a buffer. -/
def Buffer.dump (b : Buffer) (h : Heap) : Except Failure Dump := b.dumpAs h b.dtype

/-- What a step answers. -/
inductive Answer where
  | nothing
  | flag (value : Bool)
  | number (value : Nat)
  | numbers (values : List Nat)
  | text (value : String)
  | buffer (info : BufferInfo)
  | buffers (infos : List BufferInfo)
  | dump (value : Dump)
  | dumps (values : List Dump)
  /-- A layout: total, region, and which of the buffers share its block. -/
  | layout (layout : FlatLayout) (total : Nat) (region : BufferInfo) (shares : List Bool)
  /-- An environment: substrate, settings, and the whole written out. -/
  | environment (substrate : String) (config : Config) (described : String)
  | endpoint (rank size : Nat) (name : String)
  | group (group : Group) (config : Config) (described : String)
  | handle (handle : Handle)
  | handleDescribed (handle : Handle)
  /-- Whether an environment is the one before, if there was one. -/
  | same (value : Option Bool)
  | communicator (comm : Communicator)
  | config (config : Config)
  | rendezvous (rendezvous : Rendezvous)

/-- Why a step has no answer. -/
inductive Trouble where
  /-- A call of the library failed. -/
  | failure (cause : Failure)
  /-- A call below the engine was refused. -/
  | substrate (cause : SubstrateError)
  /-- The step speaks of something there is not. -/
  | unknown (what : String)
  deriving DecidableEq, Repr

end Collectives
