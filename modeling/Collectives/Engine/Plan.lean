import Collectives.Engine.Group
import Collectives.Engine.Operation
import Collectives.Memory.FlatLayout

/-!
# Planning a collective

A plan is all that is settled before the substrate is entered: the call to make, the buffers to retain, and
what to copy out once the substrate is done. Planning checks the arguments and fills staging regions; it is
an `Edit`, so it can reach memory and journal, but no substrate.

Every buffer that is communicated has to be strided host memory without gaps.
-/

namespace Collectives

/-- Results that are copied out of a staging region. -/
inductive CopyOut where
  /-- Row `i` of the region goes to output `i`. -/
  | rows (region : Buffer) (outputs : List Buffer)
  /-- The parts of the region go to the buffers it stands for. -/
  | unpacked (layout : FlatLayout) (outputs : List Buffer)
  deriving DecidableEq, Repr

/-- Copies row `row`, `row + 1`, … of a region into the outputs. -/
def copyRows (region : Buffer) (row : Nat) : List Buffer → Edit Unit
  | [] => return
  | out :: outs => do
    out.copyFrom (← region.narrow row 1)
    copyRows region (row + 1) outs

/-- Copies results out. -/
def CopyOut.run : CopyOut → Edit Unit
  | .rows region outputs => copyRows region 0 outputs
  | .unpacked layout outputs => layout.unpack outputs

/-- What is settled before the substrate is entered. -/
structure Plan where
  /-- The operation, by name. -/
  operation : String
  /-- The call to make; an address that cannot be computed is found only when the substrate is entered. -/
  call : Except Fault Call
  /-- The buffers to retain while the request is outstanding. -/
  retained : List Buffer
  /-- What the caller waits for and then copies out, if the results are staged. -/
  copyOut : Option CopyOut := none

/-! ## Checks -/

/-- Refuses a buffer that cannot be communicated. -/
def checkBuffer (b : Buffer) : Except Failure Unit := do
  require (b.layout != .sparse) .sparse
  require (b.device == .host) (.foreignDevice b.device)
  require (← b.isContiguous) .notContiguous

/-- Refuses a call that names a feature which is not offered. -/
def unsupported {α : Type} (feature : String) : Except Failure α := .error (.error (.unsupported feature))

/-- The only buffer of a list. -/
def single (buffers : List Buffer) : Except Failure Buffer :=
  match buffers with
  | [b] => do
    checkBuffer b
    return b
  | _ => unsupported s!"buffer count {buffers.length}"

/-- Refuses a root outside the group. -/
def checkRank (root size : Nat) : Except Failure Unit :=
  if root < size then .ok () else .error (.error (.invalidRank root size))

/-- The root's list of one buffer for every rank. -/
def rootList (lists : List (List Buffer)) (size : Nat) (operation side : String) :
    Except Failure (List Buffer) :=
  match lists with
  | [buffers] => do
    require (buffers.length == size) (.listLength operation side buffers.length size)
    return buffers
  | _ => unsupported s!"{operation} with {lists.length} {side} lists"

/-- Refuses buffers that differ from a reference in length or type, or cannot be communicated. -/
def checkAlike (reference : Buffer) : List Buffer → Except Failure Unit
  | [] => return
  | b :: bs => do
    let held ← b.numel
    let wanted ← reference.numel
    require (held == wanted && b.dtype == reference.dtype) .unequalBuffers
    checkBuffer b
    checkAlike reference bs

/-- Refuses buffers that differ from a reference in type, or cannot be communicated. -/
def checkTypes (reference : Buffer) : List Buffer → Except Failure Unit
  | [] => return
  | b :: bs => do
    require (b.dtype == reference.dtype) .unequalTypes
    checkBuffer b
    checkTypes reference bs

/-- A count table of zeros with one entry. -/
def onlyAt (size place count : Nat) : List Nat := (List.replicate size 0).set place count

namespace Group

/-- Reports what the group is about to do. -/
def report (g : Group) (text : String) : Edit Unit := note .debug .group s!"rank {g.rank}: {text}"

/-! ## One buffer in place -/

/-- Plans a broadcast. -/
def planBroadcast (g : Group) (buffers : List Buffer) (root : Nat) : Edit Plan := do
  let b ← single buffers
  checkRank root g.size
  let tag ← b.dtype.tag
  let count ← b.numel
  g.report s!"broadcast {count} elements from root {root}"
  let h := (← get).heap
  return {
    operation := "broadcast"
    call := do return .bcast (← b.address h) count tag root
    retained := buffers }

/-- Plans a reduction to all ranks. -/
def planAllreduce (g : Group) (buffers : List Buffer) (reduction : Reduction) : Edit Plan := do
  let b ← single buffers
  let tag ← b.dtype.tag
  let op ← reduction.operator
  let count ← b.numel
  g.report s!"allreduce {count} elements ({op.name})"
  let h := (← get).heap
  return {
    operation := "allreduce"
    call := do return .allreduce (← b.address h) (← b.address h) count tag op
    retained := buffers }

/-- Plans a reduction to the root. -/
def planReduce (g : Group) (buffers : List Buffer) (reduction : Reduction) (root : Nat) : Edit Plan := do
  let b ← single buffers
  checkRank root g.size
  let tag ← b.dtype.tag
  let op ← reduction.operator
  let count ← b.numel
  g.report s!"reduce {count} elements ({op.name}) to root {root}"
  let h := (← get).heap
  return {
    operation := "reduce"
    call := do return .reduce (← b.address h) (← b.address h) count tag op root
    retained := buffers }

/-! ## Gathering -/

/-- Plans an all-gather: into the outputs themselves, or into one region that is copied out. -/
def planAllgather (g : Group) (outputs : List (List Buffer)) (inputs : List Buffer) : Edit Plan := do
  let input ← single inputs
  match outputs with
  | [outs] =>
    require (outs.length == g.size) (.listLength "all-gather" "output" outs.length g.size)
    checkAlike input outs
    let tag ← input.dtype.tag
    let count ← input.numel
    let counts := List.replicate g.size count
    g.report s!"allgather {count} elements per rank ({g.mode.text} mode)"
    match g.mode with
    | .vector =>
      let h := (← get).heap
      let starts ← outs.mapM fun b => (b.address h : Except Fault Address)
      return {
        operation := "allgather"
        call := do return .allgatherv (← input.address h) count (.perRank starts) counts tag
        retained := outs ++ [input] }
    | .flat =>
      let region ← Buffer.flatLike outs
      let h := (← get).heap
      let start ← region.address h
      return {
        operation := "allgather"
        call := do return .allgatherv (← input.address h) count (.flat start) counts tag
        retained := [region, input]
        copyOut := some (.rows region outs) }
  | _ => (unsupported s!"all-gather with {outputs.length} output lists" : Except Failure Plan)

/-- Plans a gather on the root. -/
def planGatherRoot (g : Group) (outputs : List (List Buffer)) (input : Buffer) (root : Nat) :
    Edit Plan := do
  let outs ← rootList outputs g.size "gather" "output"
  checkAlike input outs
  let count ← input.numel
  let layout ← FlatLayout.reconcile outs
  require (layout.lengths.getD g.rank 0 == count) (.ownShare "gather")
  let tag ← layout.region.dtype.tag
  let staging := if layout.inPlace then "" else ", staging"
  g.report s!"gather {count} elements to root {root}{staging}"
  let h := (← get).heap
  let call : Except Fault Call := do
    return .alltoallv (← input.address h) (onlyAt g.size root count) (← layout.region.address h)
      layout.lengths tag
  return {
    operation := "gather"
    call
    retained := [layout.region, input]
    copyOut := if layout.inPlace then none else some (.unpacked layout outs) }

/-- Plans a gather on any other rank. -/
def planGatherOther (g : Group) (outputs : List (List Buffer)) (input : Buffer) (root : Nat) :
    Edit Plan := do
  require outputs.isEmpty (.listOffRoot "gather" "output")
  checkTable g.size
  let count ← input.numel
  let nothing ← Buffer.empty input.dtype
  let tag ← nothing.dtype.tag
  g.report s!"gather {count} elements to root {root}"
  let h := (← get).heap
  let call : Except Fault Call := do
    return .alltoallv (← input.address h) (onlyAt g.size root count) (← nothing.address h)
      (List.replicate g.size 0) tag
  return { operation := "gather", call, retained := [input] }

/-- Plans a gather: an exchange in which only blocks for the root hold elements. -/
def planGather (g : Group) (outputs : List (List Buffer)) (inputs : List Buffer) (root : Nat) :
    Edit Plan := do
  let input ← single inputs
  checkRank root g.size
  if g.rank = root then g.planGatherRoot outputs input root
  else g.planGatherOther outputs input root

/-! ## Scattering -/

/-- Plans a scatter on the root; inputs that do not lie end to end are copied at once. -/
def planScatterRoot (g : Group) (output : Buffer) (inputs : List (List Buffer)) (root : Nat) :
    Edit Plan := do
  let ins ← rootList inputs g.size "scatter" "input"
  checkAlike output ins
  let count ← output.numel
  let layout ← FlatLayout.reconcile ins
  layout.pack ins
  require (layout.lengths.getD g.rank 0 == count) (.ownShare "scatter")
  let tag ← layout.region.dtype.tag
  g.report s!"scatter {count} elements from root {root}"
  let h := (← get).heap
  let call : Except Fault Call := do
    return .alltoallv (← layout.region.address h) layout.lengths (← output.address h)
      (onlyAt g.size root count) tag
  return { operation := "scatter", call, retained := [output, layout.region] }

/-- Plans a scatter on any other rank. -/
def planScatterOther (g : Group) (output : Buffer) (inputs : List (List Buffer)) (root : Nat) :
    Edit Plan := do
  require inputs.isEmpty (.listOffRoot "scatter" "input")
  checkTable g.size
  let count ← output.numel
  let nothing ← Buffer.empty output.dtype
  let tag ← nothing.dtype.tag
  g.report s!"scatter {count} elements from root {root}"
  let h := (← get).heap
  let call : Except Fault Call := do
    return .alltoallv (← nothing.address h) (List.replicate g.size 0) (← output.address h)
      (onlyAt g.size root count) tag
  return { operation := "scatter", call, retained := [output] }

/-- Plans a scatter: an exchange in which only blocks from the root hold elements. -/
def planScatter (g : Group) (outputs : List Buffer) (inputs : List (List Buffer)) (root : Nat) :
    Edit Plan := do
  let output ← single outputs
  checkRank root g.size
  if g.rank = root then g.planScatterRoot output inputs root
  else g.planScatterOther output inputs root

/-! ## Exchanging -/

/-- Plans an exchange of equal runs of rows. -/
def planEven (g : Group) (output input : Buffer) : Edit Plan := do
  let held ← output.numel
  let given ← input.numel
  require (held == given && output.dtype == input.dtype) .unequalBuffers
  let rows ← output.leadingDim
  let left ← remSize rows g.size
  require (left == 0) (.unevenRows rows g.size)
  let tag ← output.dtype.tag
  let count := held / g.size
  g.report s!"alltoall {count} elements per rank"
  let h := (← get).heap
  return {
    operation := "alltoall_base"
    call := do return .alltoall (← input.address h) (← output.address h) count tag
    retained := [input, output] }

/-- Plans an exchange of runs of rows of given lengths. -/
def planSplit (g : Group) (output input : Buffer) (splits : Splits) : Edit Plan := do
  require (output.dtype == input.dtype) (.exchangeTypes input.dtype output.dtype)
  let sendCounts ← splitCounts input splits.input g.size
  let recvCounts ← splitCounts output splits.output g.size
  let tag ← output.dtype.tag
  g.report s!"alltoallv send {Text.numbers sendCounts} recv {Text.numbers recvCounts}"
  let h := (← get).heap
  let call : Except Fault Call := do
    return .alltoallv (← input.address h) sendCounts (← output.address h) recvCounts tag
  return { operation := "alltoall_base", call, retained := [input, output] }

/-- Plans an exchange of runs of rows; without splits on either side they are equal. -/
def planAlltoallBase (g : Group) (output input : Buffer) (splits : Splits) : Edit Plan := do
  checkBuffer input
  checkBuffer output
  if splits.isEven then g.planEven output input
  else g.planSplit output input splits

/-- The first buffer of a list that has to have one. -/
def firstBuffer (buffers : List Buffer) : Except Fault Buffer :=
  match buffers with
  | b :: _ => .ok b
  | [] => .error (.indexRange 0 0)

/-- Plans an exchange of lists; outputs that do not lie end to end are copied out. -/
def planAlltoall (g : Group) (outputs inputs : List Buffer) : Edit Plan := do
  require (inputs.length == g.size) (.exchangeLength "input" inputs.length g.size)
  require (outputs.length == g.size) (.exchangeLength "output" outputs.length g.size)
  checkTypes (← firstBuffer outputs) inputs
  checkTypes (← firstBuffer inputs) outputs
  let send ← FlatLayout.reconcile inputs
  let recv ← FlatLayout.reconcile outputs
  send.pack inputs
  let tag ← recv.region.dtype.tag
  let sending := s!"send {Text.numbers send.lengths} (flat={send.inPlace})"
  let receiving := s!"recv {Text.numbers recv.lengths} (flat={recv.inPlace})"
  g.report s!"alltoall list {sending} {receiving}"
  let h := (← get).heap
  let call : Except Fault Call := do
    return .alltoallv (← send.region.address h) send.lengths (← recv.region.address h) recv.lengths tag
  return {
    operation := "alltoall"
    call
    retained := [recv.region, send.region]
    copyOut := if recv.inPlace then none else some (.unpacked recv outputs) }

/-- Plans a collective. -/
def plan (g : Group) : Collective Buffer → Edit Plan
  | .broadcast buffers root => g.planBroadcast buffers root
  | .allreduce buffers reduction => g.planAllreduce buffers reduction
  | .reduce buffers reduction root => g.planReduce buffers reduction root
  | .allgather outputs inputs => g.planAllgather outputs inputs
  | .gather outputs inputs root => g.planGather outputs inputs root
  | .scatter outputs inputs root => g.planScatter outputs inputs root
  | .alltoallBase output input splits => g.planAlltoallBase output input splits
  | .alltoall outputs inputs => g.planAlltoall outputs inputs

end Group

end Collectives
