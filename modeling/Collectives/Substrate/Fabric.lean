import Collectives.Substrate.Interface
import Collectives.Table

/-!
# The in-process fabric

All ranks meet on one fabric. The ends of a communicator carry the same number on every rank, and each end
counts its calls; a call is therefore known by its communicator and its call number. Each call has a slot.
A rank that issues the call leaves its contribution there; the last rank to arrive performs the collective
for all, and each rank then collects the outcome through its request. The slot is gone once all have
collected it.
-/

namespace Collectives

/-- The meeting place of one call. -/
structure Slot where
  /-- What each rank left, in the order of the ranks. -/
  contributions : List (Option Contribution)
  /-- How many ranks have arrived. -/
  arrived : Nat := 0
  /-- How the call ended, once it was performed. -/
  outcome : Option CallOutcome := none
  /-- How many ranks have collected the outcome. -/
  released : Nat := 0
  deriving DecidableEq, Repr

/-- A slot nobody has come to yet. -/
def Slot.fresh (size : Nat) : Slot := { contributions := List.replicate size none }

/-- What makes two calls alike for the plans an endpoint keeps. -/
structure CallPlan where
  /-- The kind of collective. -/
  kind : Kind
  /-- The kind of data. -/
  tag : Tag
  /-- Counts sent, then counts received. -/
  counts : List Nat
  deriving DecidableEq, Repr

/-- The plan of a contribution. -/
def Contribution.plan (c : Contribution) : CallPlan :=
  { kind := c.kind, tag := c.tag, counts := c.sendCounts ++ c.recvCounts }

/-- Plans kept under names, and how often one was used again. -/
structure PlanCache where
  /-- The latest plan of each name. -/
  plans : Table String CallPlan := {}
  /-- Calls whose plan was there already. -/
  hits : Nat := 0

/-- Looks a plan up; a new or changed one is kept. -/
def PlanCache.lookup (cache : PlanCache) (key : String) (plan : CallPlan) : PlanCache :=
  if cache.plans.find? key = some plan then { cache with hits := cache.hits + 1 }
  else { cache with plans := cache.plans.insert key plan }

/-- A rank's interest in one call. -/
structure Ticket where
  /-- Communicator and call number. -/
  call : Nat × Nat
  /-- The outcome, once collected. -/
  finished : Option CallOutcome := none
  deriving DecidableEq, Repr

/-- One rank's end of the fabric. -/
structure Endpoint where
  /-- Calls issued so far on each communicator, by its number. -/
  issued : List Nat := []
  /-- The plans of this rank. -/
  cache : PlanCache := {}
  /-- The requests of this rank, by number. -/
  tickets : List Ticket := []

/-- The fabric: endpoints of all ranks and the slots of the calls in progress. -/
structure Fabric where
  /-- The endpoints, by rank. -/
  endpoints : List Endpoint
  /-- The slots, by communicator and call number. -/
  slots : Table (Nat × Nat) Slot := {}

namespace Fabric

/-- A fabric of so many ranks. -/
def ofSize (size : Nat) : Fabric := { endpoints := List.replicate size {} }

/-- Number of ranks. -/
def size (f : Fabric) : Nat := f.endpoints.length

/-- The endpoint of a rank. -/
def endpoint (f : Fabric) (rank : Nat) : Endpoint := f.endpoints.getD rank {}

/-- The fabric with one endpoint changed. -/
def modifyEndpoint (f : Fabric) (rank : Nat) (change : Endpoint → Endpoint) : Fabric :=
  { f with endpoints := f.endpoints.modify rank change }

/-- Makes the next communicator of a rank. -/
def createStep (rank : Nat) : Native Fabric Communicator := do
  let m ← get
  let number := (m.net.endpoint rank).issued.length
  set { m with net := m.net.modifyEndpoint rank fun e => { e with issued := e.issued ++ [0] } }
  return { number, rank, size := m.net.size, vector := true }

/-- Refuses a root outside the group. -/
def checkRoot (size root : Nat) : Except Refusal Unit :=
  if root < size then .ok () else .error (.error (.rootRange root size))

/-- Refuses a count table that has not one entry for every rank. -/
def checkCounts (size : Nat) (table : String) (counts : List Nat) : Except Refusal Unit :=
  if counts.length = size then .ok () else .error (.error (.countTable table counts.length size))

/-- Where the gathered blocks go, one address for every rank. -/
def addresses (size : Nat) (tag : Tag) (recvCounts : List Nat) :
    Destination → Except Refusal (List Address)
  | .flat start => do
    let places ← displacements recvCounts
    places.mapM fun place => do
      let bytes ← mulSize place tag.width
      return start.advance bytes
  | .perRank starts =>
    if starts.length = size then .ok starts else .error (.error (.receivers starts.length size))

/-- What a call contributes, after the checks made when it is issued. -/
def contribution (size : Nat) : Call → Except Refusal Contribution
  | .bcast buffer count tag root => do
    checkRoot size root
    return { kind := .bcast, tag, send := buffer, recv := [buffer], sendCounts := [count], root }
  | .allreduce send recv count tag op =>
    return { kind := .allreduce, tag, send, recv := [recv], sendCounts := [count], op := some op }
  | .reduce send recv count tag op root => do
    checkRoot size root
    return { kind := .reduce, tag, send, recv := [recv], sendCounts := [count], root, op := some op }
  | .allgatherv send count recv recvCounts tag => do
    checkCounts size "recv_counts" recvCounts
    let recv ← addresses size tag recvCounts recv
    return { kind := .allgatherv, tag, send, recv, sendCounts := [count], recvCounts }
  | .alltoall send recv count tag =>
    let counts := List.replicate size count
    return { kind := .alltoall, tag, send, recv := [recv], sendCounts := counts, recvCounts := counts }
  | .alltoallv send sendCounts recv recvCounts tag => do
    checkCounts size "send_counts" sendCounts
    checkCounts size "recv_counts" recvCounts
    return { kind := .alltoallv, tag, send, recv := [recv], sendCounts, recvCounts }

/-- What a barrier contributes. -/
def barrierContribution : Contribution := { kind := .barrier, tag := .char }

/-- Looks up the plan of a contribution, if plans are kept for it. -/
def withPlan (f : Fabric) (rank : Nat) (c : Contribution) (attr : Attributes) : Fabric :=
  match attr.cacheKey with
  | some key => f.modifyEndpoint rank fun e => { e with cache := e.cache.lookup key c.plan }
  | none => f

/-- Takes the next call number of a rank on a communicator. -/
def nextCall (f : Fabric) (rank comm : Nat) : Nat × Fabric :=
  ((f.endpoint rank).issued.getD comm 0,
   f.modifyEndpoint rank fun e => { e with issued := e.issued.modify comm (· + 1) })

/-- The slot of a call, as it is or new. -/
def slot (f : Fabric) (call : Nat × Nat) : Slot := (f.slots.find? call).getD (Slot.fresh f.size)

/-- The fabric with one slot replaced or added. -/
def putSlot (f : Fabric) (call : Nat × Nat) (s : Slot) : Fabric :=
  { f with slots := f.slots.insert call s }

end Fabric

/-- A slot after a rank has left its contribution. -/
def Slot.join (s : Slot) (rank : Nat) (c : Contribution) : Slot :=
  { s with contributions := s.contributions.set rank (some c), arrived := s.arrived + 1 }

/-- The contributions that are there, in the order of the ranks. -/
def Slot.present (s : Slot) : List Contribution := s.contributions.filterMap id

namespace Fabric

/-- Memory and journal once a collective was performed; the journal reports a mismatch. -/
def conclude (call : Nat × Nat) (store : Store) (outcome : CallOutcome) (heap : Heap) : Store :=
  match outcome with
  | none => { store with heap }
  | some mismatch =>
    { store with heap }.log .warn .fabric
      s!"local fabric call ({call.1}, {call.2}) failed: {mismatch.message}"

/-- Performs the collective of a full slot and leaves the outcome there. A fault leaves the slot without an
outcome. -/
def complete (call : Nat × Nat) (s : Slot) : Native Fabric Unit := do
  let m ← get
  let (outcome, heap) ← (perform s.present m.store.heap : Except Fault (CallOutcome × Heap))
  let net := m.net.putSlot call { s with outcome := some outcome }
  set ({ store := conclude call m.store outcome heap, net } : Machine Fabric)

/-- Leaves a contribution in the slot of a call; the last rank to arrive performs the collective. -/
def arrive (call : Nat × Nat) (rank : Nat) (c : Contribution) : Native Fabric Unit := do
  let m ← get
  let s := m.net.slot call
  if (s.contributions.getD rank none).isSome then
    throw (.error (.issuedTwice rank call.2))
  let joined := s.join rank c
  set { m with net := m.net.putSlot call joined }
  if joined.arrived = m.net.size then complete call joined

/-- Gives a rank a request for a call. -/
def openTicket (rank : Nat) (call : Nat × Nat) : Native Fabric Nat := do
  let m ← get
  let ticket : Ticket := { call }
  set { m with net := m.net.modifyEndpoint rank fun e => { e with tickets := e.tickets ++ [ticket] } }
  return (m.net.endpoint rank).tickets.length

/-- Issues a contribution as the next call of a rank on a communicator. -/
def submit (rank comm : Nat) (c : Contribution) (attr : Attributes) : Native Fabric Nat := do
  let m ← get
  let (number, net) := (m.net.withPlan rank c attr).nextCall rank comm
  set { m with net }
  arrive (comm, number) rank c
  openTicket rank (comm, number)

/-- What a collected outcome means for the one who asked. -/
def report : CallOutcome → Except Refusal Bool
  | none => .ok true
  | some mismatch => .error (.error (.mismatch mismatch))

/-- A slot after one more rank has collected: gone, if it was the last. -/
def releaseSlot (f : Fabric) (call : Nat × Nat) (s : Slot) : Fabric :=
  if s.released + 1 = f.size then { f with slots := f.slots.erase call }
  else f.putSlot call { s with released := s.released + 1 }

/-- Asks for the outcome of a request, and keeps it for the next time. -/
def collect (rank request : Nat) : Native Fabric Bool := do
  let m ← get
  match (m.net.endpoint rank).tickets[request]? with
  | none => throw (.error (.unknownRequest 0 request))
  | some ticket =>
    match ticket.finished with
    | some outcome => report outcome
    | none =>
      match m.net.slots.find? ticket.call with
      | none => throw (.error (.unknownRequest ticket.call.1 ticket.call.2))
      | some s =>
        match s.outcome with
        | none => return false
        | some outcome =>
          let done : Ticket := { ticket with finished := some outcome }
          let net := (m.net.releaseSlot ticket.call s).modifyEndpoint rank fun e =>
            { e with tickets := e.tickets.set request done }
          set { m with net }
          report outcome

/-- The endpoint of a rank as a substrate. -/
def substrate (rank : Nat) : Substrate Fabric where
  name := "local"
  create := createStep rank
  release _ m := m
  issue comm call attr := do
    let c ← contribution (← get).net.size call
    submit rank comm.number c attr
  barrier comm := do return some (← submit rank comm.number barrierContribution {})
  test request := collect rank request
  wait request := collect rank request
  finalize m := m

/-- How often a plan of a rank was used again. -/
def planHits (f : Fabric) (rank : Nat) : Nat := (f.endpoint rank).cache.hits

end Fabric

end Collectives
