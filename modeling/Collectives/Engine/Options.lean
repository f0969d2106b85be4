import Collectives.Engine.Operation
import Collectives.Text.Quoted

/-!
# Options of operations

What a caller can set about an operation besides its buffers. Every kind of operation has the options it
needs, written out in a fixed order.
-/

namespace Collectives

/-- Options and their defaults. -/
structure Options where
  /-- How elements are reduced. -/
  reduction : Reduction := .sum
  /-- The root. -/
  root : Nat := 0
  /-- The name plans are kept under. -/
  tensor : String := ""
  /-- The rows exchanged with each rank. -/
  splits : Splits := {}
  deriving DecidableEq, Repr

/-- Kinds of operation that have options of their own. -/
inductive OptionKind where
  | broadcast | allreduce | reduce | allgather | gather | scatter | reduceScatter | allToAll | barrier
  deriving DecidableEq, Repr

/-- Every kind. -/
def OptionKind.all : List OptionKind :=
  [.broadcast, .allreduce, .reduce, .allgather, .gather, .scatter, .reduceScatter, .allToAll, .barrier]

/-- Name of a kind in reports. -/
def OptionKind.name : OptionKind → String
  | .broadcast => "BroadcastOptions"
  | .allreduce => "AllreduceOptions"
  | .reduce => "ReduceOptions"
  | .allgather => "AllgatherOptions"
  | .gather => "GatherOptions"
  | .scatter => "ScatterOptions"
  | .reduceScatter => "ReduceScatterOptions"
  | .allToAll => "AllToAllOptions"
  | .barrier => "BarrierOptions"

/-- The options of a kind, written out. -/
def OptionKind.fields (o : Options) (kind : OptionKind) : List (String × String) :=
  let reduction := ("reduce_op", o.reduction.name)
  let root := ("root_rank", toString o.root)
  let tensor := ("tensor_name", Text.quoted o.tensor)
  match kind with
  | .broadcast | .gather | .scatter => [root, tensor]
  | .allreduce => [reduction, tensor]
  | .reduce => [reduction, root, tensor]
  | .allgather => [tensor]
  | .reduceScatter => [reduction]
  | .allToAll =>
    [("output_split_sizes", Text.numbers o.splits.output),
     ("input_split_sizes", Text.numbers o.splits.input), tensor]
  | .barrier => []

/-- The options of one kind, written out with their names. -/
def Options.describe (o : Options) (kind : OptionKind) : String := Text.record kind.name (kind.fields o)

end Collectives
