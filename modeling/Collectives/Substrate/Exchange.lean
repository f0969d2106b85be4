import Collectives.Element.Combine
import Collectives.Substrate.Call

/-!
# Performing a collective

A collective is performed once, when the contributions of all ranks are there. First the contributions are
compared; ranks that do not agree get a `Mismatch`, and nothing is moved. Otherwise every block is read
before any is written, so a rank may send and receive in the same memory.
-/

namespace Collectives

/-- Kinds of collective. -/
inductive Kind where
  | bcast | allreduce | reduce | allgatherv | alltoall | alltoallv | barrier
  deriving DecidableEq, Repr

/-- Name of a kind in reports. -/
def Kind.name : Kind → String
  | .bcast => "Bcast"
  | .allreduce => "Allreduce"
  | .reduce => "Reduce"
  | .allgatherv => "Allgatherv"
  | .alltoall => "Alltoall"
  | .alltoallv => "Alltoallv"
  | .barrier => "Barrier"

/-- One rank's part of a collective. -/
structure Contribution where
  /-- What is done. -/
  kind : Kind
  /-- The kind of data. -/
  tag : Tag
  /-- Where this rank's elements are. -/
  send : Address := Address.nowhere
  /-- Where this rank's results go: one address, or one for every rank. -/
  recv : List Address := []
  /-- Elements sent: to all, or to each rank. -/
  sendCounts : List Nat := []
  /-- Elements received from each rank. -/
  recvCounts : List Nat := []
  /-- The root, where there is one. -/
  root : Nat := 0
  /-- The operator, where there is one. -/
  op : Option Operator := none
  deriving DecidableEq, Repr

/-- How the contributions of two ranks disagree. -/
inductive Mismatch where
  /-- Another kind of collective than rank 0. -/
  | kind (rank : Nat) (got want : Kind)
  /-- Another kind of data than rank 0. -/
  | tag (rank : Nat) (got want : Tag)
  /-- Another root or count than rank 0 in a broadcast. -/
  | rootCount (rank : Nat) (got want : Nat × List Nat)
  /-- Another operator, count or root than rank 0 in a reduction. -/
  | reduction (rank : Nat) (got want : Option Operator × List Nat × Nat)
  /-- A reduction without an operator. -/
  | noOperator
  /-- One rank gathers another count than the other sends. -/
  | gathered (rank expected peer sent : Nat)
  /-- One rank sends another count than the other receives. -/
  | exchanged (rank sent peer expected : Nat)
  deriving DecidableEq, Repr

/-- Wording of a difference from rank 0. -/
def Mismatch.differs (what : String) (rank : Nat) (got want : String) : String :=
  s!"collective mismatch: rank {rank} has {what} {got}, rank 0 has {want}"

/-- A root and its counts, written out. -/
def showRootCount (x : Nat × List Nat) : String := s!"({x.1}, {Text.numbers x.2})"

/-- An operator with counts and root, written out. -/
def showReduction (x : Option Operator × List Nat × Nat) : String :=
  s!"({Text.optional (x.1.map Operator.name)}, {Text.numbers x.2.1}, {x.2.2})"

/-- Wording of a mismatch. -/
def Mismatch.message : Mismatch → String
  | .kind rank got want => differs "call" rank got.name want.name
  | .tag rank got want => differs "datatype" rank got.name want.name
  | .rootCount rank got want => differs "root/count" rank (showRootCount got) (showRootCount want)
  | .reduction rank got want => differs "op/count/root" rank (showReduction got) (showReduction want)
  | .noOperator => "reduction without operator"
  | .gathered rank expected peer sent =>
    s!"collective mismatch: rank {rank} expects {expected} elements from rank {peer}, which sends {sent}"
  | .exchanged rank sent peer expected =>
    s!"collective mismatch: rank {rank} sends {sent} elements to rank {peer}, which expects {expected}"

/-! ## Comparing contributions -/

/-- The first mismatch that `check` finds, over the contributions of all ranks. -/
def firstMismatch (check : Nat → Contribution → Except Fault (Option Mismatch)) (cs : List Contribution) :
    Except Fault (Option Mismatch) :=
  cs.zipIdx.findSomeM? fun (c, rank) => check rank c

/-- Compares kind and data with rank 0. -/
def sameCall (first : Contribution) (rank : Nat) (c : Contribution) : Option Mismatch :=
  if c.kind ≠ first.kind then some (.kind rank c.kind first.kind)
  else if c.tag ≠ first.tag then some (.tag rank c.tag first.tag)
  else none

/-- Compares root and count with rank 0. -/
def sameRootCount (first : Contribution) (rank : Nat) (c : Contribution) : Option Mismatch :=
  if c.root ≠ first.root ∨ c.sendCounts ≠ first.sendCounts then
    some (.rootCount rank (c.root, c.sendCounts) (first.root, first.sendCounts))
  else none

/-- Compares operator, count and root with rank 0. -/
def sameReduction (first : Contribution) (rank : Nat) (c : Contribution) : Option Mismatch :=
  if c.op ≠ first.op ∨ c.sendCounts ≠ first.sendCounts ∨ c.root ≠ first.root then
    some (.reduction rank (c.op, c.sendCounts, c.root) (first.op, first.sendCounts, first.root))
  else none

/-- Compares what a rank gathers from a peer with what the peer sends. -/
def sameGather (rank : Nat) (c : Contribution) (peer : Nat) (source : Contribution) :
    Except Fault (Option Mismatch) := do
  let expected ← entry c.recvCounts peer
  let sent ← entry source.sendCounts 0
  return if expected ≠ sent then some (.gathered rank expected peer sent) else none

/-- Compares what a rank sends to a peer with what the peer receives. -/
def sameExchange (rank : Nat) (c : Contribution) (peer : Nat) (target : Contribution) :
    Except Fault (Option Mismatch) := do
  let sent ← entry c.sendCounts peer
  let expected ← entry target.recvCounts rank
  return if sent ≠ expected then some (.exchanged rank sent peer expected) else none

/-- The first mismatch among contributions of one kind. -/
def kindMismatch (first : Contribution) (cs : List Contribution) : Except Fault (Option Mismatch) :=
  match first.kind with
  | .barrier => return none
  | .bcast => firstMismatch (fun rank c => return sameRootCount first rank c) cs
  | .allreduce | .reduce => do
    match ← firstMismatch (fun rank c => return sameReduction first rank c) cs with
    | some m => return some m
    | none => return if first.op.isNone then some .noOperator else none
  | .allgatherv => firstMismatch (fun rank c => firstMismatch (sameGather rank c) cs) cs
  | .alltoall | .alltoallv => firstMismatch (fun rank c => firstMismatch (sameExchange rank c) cs) cs

/-- The first mismatch among the contributions of all ranks, of which there is at least one. -/
def mismatch? : List Contribution → Except Fault (Option Mismatch)
  | [] => .error (.indexRange 0 0)
  | first :: rest => do
    match ← firstMismatch (fun rank c => return sameCall first rank c) (first :: rest) with
    | some m => return some m
    | none => kindMismatch first (first :: rest)

/-! ## Moving data -/

/-- Bytes to write at an address. -/
abbrev Delivery := Address × Bytes

/-- The memory after deliveries were made, one after the other. -/
def Heap.deliver (h : Heap) (ds : List Delivery) : Heap := ds.foldl (fun h d => h.write d.1 d.2) h

/-- Elements in a row, as words. -/
def Heap.row (h : Heap) (start : Address) (width count : Nat) : List Nat :=
  (List.range count).map fun i => Bytes.toWord (h.read (start.advance (i * width)) width)

/-- Bytes to write at the first of a contribution's destinations. -/
def Contribution.deliver (c : Contribution) (data : Bytes) : Except Fault Delivery := do
  return (← entry c.recv 0, data)

/-- A broadcast: the root's bytes to all other ranks. -/
def broadcastDeliveries (h : Heap) (first : Contribution) (cs : List Contribution) :
    Except Fault (List Delivery) := do
  let root ← entry cs first.root
  let length ← mulSize (← entry root.sendCounts 0) first.tag.width
  let data := h.read root.send length
  (cs.eraseIdx first.root).mapM fun c => c.deliver data

/-- The elements of all ranks, combined in the order of the ranks. -/
def reduced (h : Heap) (tag : Tag) (op : Operator) (count : Nat) (first : Contribution)
    (rest : List Contribution) : List Nat :=
  rest.foldl (fun acc c => combineWords tag op acc (h.row c.send tag.width count))
    (h.row first.send tag.width count)

/-- A reduction: the combined elements to every rank, or to the root. -/
def reductionDeliveries (h : Heap) (first : Contribution) (rest : List Contribution) :
    Except Fault (List Delivery) := do
  let count ← entry first.sendCounts 0
  let _ ← mulSize count first.tag.width
  match first.op with
  | none => return []
  | some op =>
    let data := Bytes.ofWords first.tag.width (reduced h first.tag op count first rest)
    if first.kind = .allreduce then (first :: rest).mapM fun c => c.deliver data
    else
      let root ← entry (first :: rest) first.root
      return [← root.deliver data]

/-- The bytes a rank sends, all of them, and how many were asked for. -/
structure Outgoing where
  /-- How many bytes the counts ask for. -/
  length : Nat
  /-- The bytes. -/
  bytes : Bytes

/-- The bytes that a number of elements takes, read from where a rank sends. -/
def outgoing (h : Heap) (width : Nat) (c : Contribution) (count : Nat) : Except Fault Outgoing := do
  let length ← mulSize count width
  return { length, bytes := h.read c.send length }

/-- The blocks of all ranks, each to where one rank wants it. -/
def gatherRow (blocks : List Outgoing) (target : Contribution) : Except Fault (List Delivery) :=
  blocks.zipIdx.mapM fun (block, j) => do return (← entry target.recv j, block.bytes)

/-- A gather to all: every rank's bytes to every rank. -/
def gatherDeliveries (h : Heap) (width : Nat) (cs : List Contribution) :
    Except Fault (List Delivery) := do
  let blocks ← cs.mapM fun c => do outgoing h width c (← entry c.sendCounts 0)
  let rows ← cs.mapM (gatherRow blocks)
  return rows.flatten

/-- The block one rank sends to another, and where it goes. -/
def exchangeDelivery (width : Nat) (target source : Contribution) (sent : Outgoing)
    (targetRank sourceRank : Nat) : Except Fault Delivery := do
  let places ← displacements target.recvCounts
  let starts ← displacements source.sendCounts
  let start ← mulSize (← entry starts targetRank) width
  let length ← mulSize (← entry source.sendCounts targetRank) width
  checkStretch sent.length start length
  let place ← mulSize (← entry places sourceRank) width
  return ((← entry target.recv 0).advance place, (sent.bytes.drop start).take length)

/-- The blocks that all ranks send to one rank, in the order of the ranks. -/
def exchangeRow (width : Nat) (sent : List (Contribution × Outgoing)) (target : Contribution) (targetRank : Nat) :
    Except Fault (List Delivery) :=
  sent.zipIdx.mapM fun ((source, out), i) => exchangeDelivery width target source out targetRank i

/-- An exchange: to each rank the blocks that all ranks send to it, in the order of the ranks. -/
def exchangeDeliveries (h : Heap) (width : Nat) (cs : List Contribution) :
    Except Fault (List Delivery) := do
  let sent ← cs.mapM fun c => do outgoing h width c (← sumSizes c.sendCounts)
  let rows ← cs.zipIdx.mapM fun (target, j) => exchangeRow width (cs.zip sent) target j
  return rows.flatten

/-- What has to be written once all contributions agree. -/
def deliveries (h : Heap) : List Contribution → Except Fault (List Delivery)
  | [] => return []
  | first :: rest =>
    match first.kind with
    | .barrier => return []
    | .bcast => broadcastDeliveries h first (first :: rest)
    | .allreduce | .reduce => reductionDeliveries h first rest
    | .allgatherv => gatherDeliveries h first.tag.width (first :: rest)
    | .alltoall | .alltoallv => exchangeDeliveries h first.tag.width (first :: rest)

/-- How a collective ended: with nothing to report, or with a mismatch that every rank gets. -/
abbrev CallOutcome := Option Mismatch

/-- Performs a collective for all ranks. -/
def perform (cs : List Contribution) (h : Heap) : Except Fault (CallOutcome × Heap) := do
  match ← mismatch? cs with
  | some m => return (some m, h)
  | none => return (none, h.deliver (← deliveries h cs))

/-- Contributions that do not agree change no memory. -/
theorem perform_mismatch {cs : List Contribution} {h : Heap} {m : Mismatch}
    (hm : mismatch? cs = .ok (some m)) : perform cs h = .ok (some m, h) := by
  simp [perform, hm, bind, Except.bind, pure, Except.pure]

/-- Contributions that agree make their deliveries. -/
theorem perform_agreed {cs : List Contribution} {h : Heap} {ds : List Delivery}
    (hm : mismatch? cs = .ok none) (hd : deliveries h cs = .ok ds) :
    perform cs h = .ok (none, h.deliver ds) := by
  simp [perform, hm, hd, bind, Except.bind, pure, Except.pure]

end Collectives
