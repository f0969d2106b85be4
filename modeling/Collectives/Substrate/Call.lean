import Collectives.Memory.Heap

/-!
# Calls of a substrate

What the engine asks of a substrate: one collective operation on memory, given by addresses, element counts
and a tag. Every rank of a group makes the same calls in the same order.
-/

namespace Collectives

/-- What accompanies a call. -/
structure Attributes where
  /-- Whether the substrate may keep its plan for the call. -/
  toCache : Bool := false
  /-- The name the plan is kept under. -/
  matchId : Option String := none
  deriving DecidableEq, Repr

/-- The name a plan is kept under, if one is kept: never under an empty name. -/
def Attributes.cacheKey (a : Attributes) : Option String :=
  if a.toCache then a.matchId.filter (· ≠ "") else none

/-- Where a gathered block of every rank goes. -/
inductive Destination where
  /-- One region; each block follows the blocks of the ranks before. -/
  | flat (start : Address)
  /-- One address for every rank. -/
  | perRank (starts : List Address)
  deriving DecidableEq, Repr

/-- One collective operation, as one rank asks for it. -/
inductive Call where
  /-- The root's elements go to every rank, in place. -/
  | bcast (buffer : Address) (count : Nat) (tag : Tag) (root : Nat)
  /-- The elements of all ranks are combined; every rank gets the result. -/
  | allreduce (send recv : Address) (count : Nat) (tag : Tag) (op : Operator)
  /-- The elements of all ranks are combined; the root gets the result. -/
  | reduce (send recv : Address) (count : Nat) (tag : Tag) (op : Operator) (root : Nat)
  /-- Every rank gets the elements of every rank. -/
  | allgatherv (send : Address) (count : Nat) (recv : Destination) (recvCounts : List Nat) (tag : Tag)
  /-- Every rank sends `count` elements to every rank. -/
  | alltoall (send recv : Address) (count : Nat) (tag : Tag)
  /-- Every rank sends some elements to every rank. -/
  | alltoallv (send : Address) (sendCounts : List Nat) (recv : Address) (recvCounts : List Nat)
      (tag : Tag)
  deriving DecidableEq, Repr

/-- Whether a reduction reads and writes the same memory. -/
def Call.inPlace : Call → Bool
  | .allreduce send recv .. | .reduce send recv .. => send == recv
  | _ => false

/-- One rank's end of a group of ranks. -/
structure Communicator where
  /-- Number by which the ends of different ranks belong together. -/
  number : Nat
  /-- Rank of this end. -/
  rank : Nat
  /-- Number of ranks. -/
  size : Nat
  /-- Whether a gather can deliver to one address for every rank. -/
  vector : Bool
  deriving DecidableEq, Repr

end Collectives
