import Collectives.Scenario.Session

/-!
# Performing steps

Every step either answers, has trouble, or stays blocked. A blocked step has changed nothing that the others
can see since it was last taken up; it is taken up again later, from the `Task` it has become.
-/

namespace Collectives

/-- What a rank is about to do. -/
inductive Task where
  /-- A step from its beginning. -/
  | step (step : Step)
  /-- The rest of an operation in an environment; its handle is stored under a name. -/
  | operation (environment : Nat) (call : Ongoing) (handle : String)
  /-- The rest of a barrier below the engine. -/
  | barrier (request : Nat)

/-- What became of a task. -/
inductive Outcome where
  /-- It is over. -/
  | answered (answer : Answer)
  /-- It is blocked. -/
  | blocked (rest : Task)

namespace Session

/-! ## Buffers and layouts -/

/-- Makes a new buffer and stores it. -/
def newBuffer (rank : Nat) (name : String) (make : Edit Buffer) : Move Answer := do
  keepBuffer rank name (← edit make)

/-- The elements of a buffer as its own type. -/
def dump (b : Buffer) : Move Dump := do check (b.dump (← get).heap)

/-- Answers a layout and stores it, with its region beside it. -/
def keepLayout (rank : Nat) (name : String) (l : FlatLayout) (buffers : List Buffer) : Move Answer := do
  modifyDesk rank fun d => { d with
    layouts := d.layouts.insert name l
    buffers := d.buffers.insert s!"{name}.flat" l.region }
  let total ← size l.total
  return .layout l total (← size l.region.info) (buffers.map fun b => b.sameStorage l.region)

/-- Forgets a buffer; answers whether it was there. -/
def forget (rank : Nat) (name : String) : Move Answer := do
  let there := (((← get).desk rank).buffers.find? name).isSome
  modifyDesk rank fun d => { d with buffers := d.buffers.erase name }
  return .flag there

/-! ## Environments and groups -/

/-- A call in an environment. -/
def engine {α : Type} (number : Nat) (act : Act Network α) : Move α := run (Process.perform number act)

/-- The state of an environment. -/
def environmentOf (number : Nat) : Move (Environment Network) := do
  need "environment" ((← get).process.environments[number]?)

/-- The environment of the whole process; on first use it is built over one rank of its own. -/
def globalEnvironment : Move Nat := do
  run (Process.installedOr (← get).vars Network.singleRank)

/-- Creates a group in an environment and stores it. -/
def createGroup (rank : Nat) (name : String) (number : Nat) (expected : Rendezvous) : Move Answer := do
  let group ← engine number (Group.create expected)
  keepGroup rank name { environment := number, value := group }
  let e ← environmentOf number
  return .group group e.config (group.describe e.substrate.name)

/-- Creates a group in the environment of the whole process; the reference taken for it is given back. -/
def createGlobalGroup (rank : Nat) (name : String) (expected : Rendezvous) : Move Answer := do
  let number ← globalEnvironment
  tryCatch (do
    let answer ← createGroup rank name number expected
    run (Process.release number)
    return answer)
    fun trouble => do
      run (Process.release number)
      throw trouble

/-- Drops a group; answers whether it was there. -/
def dropGroup (rank : Nat) (name : String) : Move Answer := do
  match ((← get).desk rank).groups.find? name with
  | some g =>
    modifyDesk rank fun d => { d with groups := d.groups.erase name }
    discardGroup g
    return .flag true
  | none => return .flag false

/-- Lets go of the session's environment; answers whether there was one. -/
def dropEnvironment (rank : Nat) : Move Answer := do
  let there := ((← get).desk rank).environment.isSome
  keepEnvironment rank none
  return .flag there

/-- Takes the environment of the whole process for the session's. -/
def adoptGlobal (rank : Nat) : Move Answer := do
  let number ← globalEnvironment
  let old := ((← get).desk rank).environment
  keepEnvironment rank (some number)
  return .same (old.map (· == number))

/-- The substrate an environment is to be installed over. -/
def substrateFor : Option Script → Move (Substrate Network)
  | some script => do
    let number ← connect (Network.addScript script)
    modify fun s => { s with observed := some number }
    return Network.scripted number script.name
  | none => connect Network.singleRank

/-- Installs an environment for the whole process and takes it for the session's. -/
def installGlobal (rank : Nat) (script : Option Script) (config : Config) : Move Answer := do
  let substrate ← substrateFor script
  let number ← run (Process.installGlobal substrate config)
  keepEnvironment rank (some number)
  return .nothing

/-! ## Handles -/

/-- Polls or waits for a stored handle. -/
def drive (rank : Nat) (name : String) (ask : Handle → StateM (Engine Network) Progress) :
    Move Progress := do
  let held ← find rank Desk.handles name
  let progress ← run (Process.within held.environment (ask held.value))
  keepHandle rank name { held with value := progress.handle }
  return progress

/-- Drops a handle; answers whether it was there. -/
def dropHandle (rank : Nat) (name : String) : Move Answer := do
  match ((← get).desk rank).handles.find? name with
  | some held =>
    modifyDesk rank fun d => { d with handles := d.handles.erase name }
    engine held.environment held.value.drop
    return .flag true
  | none => return .flag false

/-- Takes an operation further and stores its handle. -/
def proceed (rank environment : Nat) (call : Ongoing) (name : String) : Move Outcome := do
  match ← engine environment call.advance with
  | some handle =>
    keepHandle rank name { environment, value := handle }
    return .answered (.handle handle)
  | none => return .blocked (.operation environment call name)

/-- Begins an operation of a group. -/
def operate (rank : Nat) (group name : String) (operation : Operation String) : Move Outcome := do
  let held ← find rank Desk.groups group
  let resolved ← operation.resolve (buffer rank)
  let call ← engine held.environment (held.value.start resolved)
  proceed rank held.environment call name

/-! ## Below the engine -/

/-- Where a named buffer begins. -/
def addressOf (rank : Nat) (name : String) : Move Address := do
  let b ← buffer rank name
  size (b.address (← get).heap)

/-- The call of a communicator, its buffers looked up. -/
def resolveRaw (rank : Nat) : RawCall → Move Call
  | .bcast b count tag root => return .bcast (← addressOf rank b) count tag root
  | .allreduce send recv count tag reduction => do
    let op ← check reduction.operator
    return .allreduce (← addressOf rank send) (← addressOf rank recv) count tag op
  | .reduce send recv count tag reduction root => do
    let op ← check reduction.operator
    return .reduce (← addressOf rank send) (← addressOf rank recv) count tag op root
  | .gatherFlat send count recv recvCounts tag =>
    return .allgatherv (← addressOf rank send) count (.flat (← addressOf rank recv)) recvCounts tag
  | .gatherEach send count recvs recvCounts tag =>
    return .allgatherv (← addressOf rank send) count (.perRank (← recvs.mapM (addressOf rank))) recvCounts
      tag
  | .alltoall send recv count tag =>
    return .alltoall (← addressOf rank send) (← addressOf rank recv) count tag
  | .alltoallv send sendCounts recv recvCounts tag =>
    return .alltoallv (← addressOf rank send) sendCounts (← addressOf rank recv) recvCounts tag

/-- Makes a communicator on the rank's own substrate. -/
def communicator (rank : Nat) (name : String) : Move Answer := do
  let comm ← native (← endpoint rank).create
  keepCommunicator rank name comm
  return .communicator comm

/-- Issues a call on a communicator and stores its request. -/
def raw (rank : Nat) (communicator request : String) (call : RawCall) (attr : Attributes) :
    Move Answer := do
  let comm ← find rank Desk.communicators communicator
  let resolved ← resolveRaw rank call
  let number ← native ((← endpoint rank).issue comm resolved attr)
  modifyDesk rank fun d => { d with requests := d.requests.insert request number }
  return .nothing

/-- Waits for a barrier below the engine. -/
def awaitBarrier (rank request : Nat) : Move Outcome := do
  if ← native ((← endpoint rank).wait request) then return .answered .nothing
  return .blocked (.barrier request)

/-- Comes to a barrier below the engine. -/
def rawBarrier (rank : Nat) (communicator : String) : Move Outcome := do
  let comm ← find rank Desk.communicators communicator
  match ← native ((← endpoint rank).barrier comm) with
  | some request => awaitBarrier rank request
  | none => return .answered .nothing

/-! ## Steps -/

/-- Performs a step on buffers and layouts. -/
def performBuffer (rank : Nat) : BufferStep → Move Answer
  | .zeros name dtype shape => newBuffer rank name (Buffer.zeros dtype shape)
  | .empty name dtype => newBuffer rank name (Buffer.empty dtype)
  | .filled name dtype words shape => newBuffer rank name (Buffer.ofWords dtype words shape)
  | .listed name dtype words => newBuffer rank name (Buffer.ofWords dtype words [words.length])
  | .flatLike name buffers => do
    let bs ← buffers.mapM (buffer rank)
    newBuffer rank name (Buffer.flatLike bs)
  | .view name source view => do keepBuffer rank name (← check (view.of (← buffer rank source)))
  | .split name source sizes => do
    keepNumbered rank name (← check ((← buffer rank source).split sizes))
  | .info name => do return .buffer (← size (← buffer rank name).info)
  | .describe name => do return .text (← buffer rank name).describe
  | .leadingDim name => do return .number (← check (← buffer rank name).leadingDim)
  | .read name dtype => do
    let b ← buffer rank name
    return .dump (← check (b.dumpAs (← get).heap (dtype.getD b.dtype)))
  | .write name dtype words => do
    let b ← buffer rank name
    edit (b.fill dtype words)
    return .dump (← dump b)
  | .copy source target => do
    let src ← buffer rank source
    let dst ← buffer rank target
    edit (dst.copyFrom src)
    return .dump (← dump dst)
  | .sameStorage a b => do return .flag ((← buffer rank a).sameStorage (← buffer rank b))
  | .forget name => forget rank name
  | .reconcile name buffers => do
    let bs ← buffers.mapM (buffer rank)
    keepLayout rank name (← edit (FlatLayout.reconcile bs)) bs
  | .slices name layout => do
    keepNumbered rank name (← check (← find rank Desk.layouts layout).slices)
  | .pack layout buffers => do
    let l ← find rank Desk.layouts layout
    let bs ← buffers.mapM (buffer rank)
    edit (l.pack bs)
    return .dump (← dump l.region)
  | .unpack layout buffers => do
    let l ← find rank Desk.layouts layout
    let bs ← buffers.mapM (buffer rank)
    edit (l.unpack bs)
    return .dumps (← bs.mapM dump)
  | .splitCounts name sizes groupSize => do
    return .numbers (← check (splitCounts (← buffer rank name) sizes groupSize))

/-- The fabric a rank has an end of. -/
def fabricOf (rank : Nat) : Move Fabric := do
  let number ← need "fabric" ((← get).desk rank).fabric
  return (← get).process.machine.net.fabric number

/-- Performs a step on environments and groups. -/
def performEnvironment (rank : Nat) : EnvironmentStep → Move Answer
  | .initOnce => do
    let view ← engine (← environment rank) Engine.initOnce
    return .numbers [view.1, view.2]
  | .finalize => do
    run (Process.within (← environment rank) (modify Engine.finalize))
    return .nothing
  | .isFinalized => do return .flag (← environmentOf (← environment rank)).finalized
  | .info => do
    let e ← environmentOf (← environment rank)
    return .environment e.substrate.name e.config e.describe
  | .enter cue => do
    engine (← environment rank) (Engine.enter "enter" (cue.perform : Except Refusal Unit))
    return .text "entered"
  | .planHits => do return .number ((← fabricOf rank).planHits rank)
  | .endpoint => do return .endpoint rank (← fabricOf rank).size (← endpoint rank).name
  | .group name (.session expected) => do createGroup rank name (← environment rank) expected
  | .group name (.process expected) => createGlobalGroup rank name expected
  | .group name .launched => do
    createGlobalGroup rank name (Rendezvous.ofVariables (← get).vars)
  | .dropGroup name => dropGroup rank name
  | .drop => dropEnvironment rank
  | .adoptGlobal => adoptGlobal rank
  | .installGlobal script config => installGlobal rank script config
  | .configFromVariables => do
    return .config (← check ((Config.ofVariables (← get).vars).mapError .error))
  | .rendezvousFromVariables => do return .rendezvous (Rendezvous.ofVariables (← get).vars)

/-- Asks a request of the rank's own substrate. -/
def askRequest (rank : Nat) (name : String) (ask : Substrate Network → Nat → Native Network Bool) :
    Move Bool := do
  let request ← find rank Desk.requests name
  native (ask (← endpoint rank) request)

/-- Performs a step that calls a substrate. -/
def performCall (rank : Nat) (step : CallStep) : Move Outcome := do
  let again : Outcome := .blocked (.step (.call step))
  match step with
  | .operate group handle operation => operate rank group handle operation
  | .poll name => do return .answered (.flag (← check (← drive rank name Handle.poll).answer))
  | .wait name => do
    let done ← check (← drive rank name Handle.wait).answer
    return if done then .answered (.flag true) else again
  | .pollUntil name => do
    let progress ← drive rank name Handle.poll
    let done ← check progress.answer
    return if done then .answered (.handle progress.handle) else again
  | .success name => do
    return .answered (.flag (← check (← find rank Desk.handles name).value.isSuccess))
  | .abort name => do
    check (← find rank Desk.handles name).value.abort
    return .answered .nothing
  | .info name => do return .answered (.handleDescribed (← find rank Desk.handles name).value)
  | .drop name => .answered <$> dropHandle rank name
  | .communicator name => .answered <$> communicator rank name
  | .raw comm request call attr => .answered <$> raw rank comm request call attr
  | .rawBarrier comm => rawBarrier rank comm
  | .requestTest name => do return .answered (.flag (← askRequest rank name Substrate.test))
  | .requestWait name => do
    let done ← askRequest rank name Substrate.wait
    return if done then .answered .nothing else again

/-- Performs a step from its beginning. -/
def perform (rank : Nat) : Step → Move Outcome
  | .buffer step => .answered <$> performBuffer rank step
  | .environment step => .answered <$> performEnvironment rank step
  | .call step => performCall rank step

end Session

/-- Takes a task up, for one rank. -/
def Task.takeUp (rank : Nat) : Task → Move Outcome
  | .step first => Session.perform rank first
  | .operation environment call handle => Session.proceed rank environment call handle
  | .barrier request => Session.awaitBarrier rank request

end Collectives
