import Collectives.Memory.Buffer

/-!
# Operations of a group

What a caller can ask of a group: eight collectives that move data, the barrier, and seven operations that
are named but not offered.
-/

namespace Collectives

/-- How many rows of each side go to, or come from, every rank; no rows listed means equal shares. -/
structure Splits where
  /-- Rows of the output received from each rank. -/
  output : List Nat := []
  /-- Rows of the input sent to each rank. -/
  input : List Nat := []
  deriving DecidableEq, Repr

/-- Whether both sides are shared out equally. -/
def Splits.isEven (s : Splits) : Bool := s.output.isEmpty && s.input.isEmpty

/-- A collective that moves data, over operands that are buffers or stand for them. -/
inductive Collective (β : Type) where
  /-- The root's buffer goes to every rank's buffer, in place. -/
  | broadcast (buffers : List β) (root : Nat)
  /-- Every rank's buffer is reduced in place; all ranks receive the result. -/
  | allreduce (buffers : List β) (reduction : Reduction)
  /-- Every rank's buffer is reduced into the root's buffer. -/
  | reduce (buffers : List β) (reduction : Reduction) (root : Nat)
  /-- Every rank's input goes to output `i` of every rank. -/
  | allgather (outputs : List (List β)) (inputs : List β)
  /-- Every rank's input goes to output `i` of the root; other ranks pass no outputs. -/
  | gather (outputs : List (List β)) (inputs : List β) (root : Nat)
  /-- Input `i` of the root goes to rank `i`'s output; other ranks pass no inputs. -/
  | scatter (outputs : List β) (inputs : List (List β)) (root : Nat)
  /-- Runs of rows go to every rank: equal ones, or as many rows as the splits say. -/
  | alltoallBase (output input : β) (splits : Splits)
  /-- Input `i` goes to rank `i`, and rank `i`'s block to output `i`. -/
  | alltoall (outputs inputs : List β)
  deriving DecidableEq, Repr

/-- The collective with every operand looked up. -/
def Collective.resolve {β γ : Type} {m : Type → Type} [Monad m] (find : β → m γ) :
    Collective β → m (Collective γ)
  | .broadcast buffers root => return .broadcast (← buffers.mapM find) root
  | .allreduce buffers reduction => return .allreduce (← buffers.mapM find) reduction
  | .reduce buffers reduction root => return .reduce (← buffers.mapM find) reduction root
  | .allgather outputs inputs => return .allgather (← outputs.mapM (·.mapM find)) (← inputs.mapM find)
  | .gather outputs inputs root =>
    return .gather (← outputs.mapM (·.mapM find)) (← inputs.mapM find) root
  | .scatter outputs inputs root =>
    return .scatter (← outputs.mapM find) (← inputs.mapM (·.mapM find)) root
  | .alltoallBase output input splits =>
    return .alltoallBase (← find output) (← find input) splits
  | .alltoall outputs inputs => return .alltoall (← outputs.mapM find) (← inputs.mapM find)

/-- Name of a collective in handles and errors. -/
def Collective.name {β : Type} : Collective β → String
  | .broadcast .. => "broadcast"
  | .allreduce .. => "allreduce"
  | .reduce .. => "reduce"
  | .allgather .. => "allgather"
  | .gather .. => "gather"
  | .scatter .. => "scatter"
  | .alltoallBase .. => "alltoall_base"
  | .alltoall .. => "alltoall"

/-- Operations that are named but not offered. -/
inductive Unoffered where
  | allreduceCoalesced | allgatherCoalesced | allgatherBase | reduceScatter | send | recv | recvAnySource
  deriving DecidableEq, Repr

/-- Every operation that is not offered. -/
def Unoffered.all : List Unoffered :=
  [.allreduceCoalesced, .allgatherCoalesced, .allgatherBase, .reduceScatter, .send, .recv, .recvAnySource]

/-- Name of an operation that is not offered. -/
def Unoffered.name : Unoffered → String
  | .allreduceCoalesced => "allreduce_coalesced"
  | .allgatherCoalesced => "allgather_coalesced"
  | .allgatherBase => "allgather_base"
  | .reduceScatter => "reduce_scatter"
  | .send => "send"
  | .recv => "recv"
  | .recvAnySource => "recv_anysource"

/-- What a caller can ask of a group. -/
inductive Operation (β : Type) where
  /-- A collective; the tensor's name is what plans are kept under. -/
  | collective (what : Collective β) (tensor : String)
  /-- Waits until every rank has come to the barrier. -/
  | barrier
  /-- Refused in any case. -/
  | unoffered (what : Unoffered)
  deriving DecidableEq, Repr

/-- The operation with every operand looked up. -/
def Operation.resolve {β γ : Type} {m : Type → Type} [Monad m] (find : β → m γ) :
    Operation β → m (Operation γ)
  | .collective what tensor => return .collective (← what.resolve find) tensor
  | .barrier => return .barrier
  | .unoffered what => return .unoffered what

end Collectives
