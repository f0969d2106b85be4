import Collectives.Engine.Environment
import Collectives.Memory.Buffer

/-!
# Handles

A call that reached the substrate answers with a handle. While its request is outstanding the handle is
pending, and it retains every buffer the substrate may still read or write. It is completed by the first poll
or wait to which the request itself reports its end, be it success or failure; any other answer leaves it as
it is. A pending handle must not be dropped: that ends the process.
-/

namespace Collectives

/-- The outcome of a call that reached the substrate. -/
structure Handle where
  /-- The operation that was called. -/
  operation : String
  /-- The request that is outstanding. -/
  pending : Option Nat
  /-- The buffers the substrate may still read or write. -/
  retained : List Buffer
  deriving DecidableEq, Repr

/-- What a poll or a wait leaves: the handle, and the answer. -/
structure Progress where
  /-- The handle afterwards. -/
  handle : Handle
  /-- Whether the request is done. -/
  answer : Except Failure Bool

namespace Handle

variable {τ : Type}

/-- A handle with nothing outstanding. -/
def completed (operation : String) : Handle := { operation, pending := none, retained := [] }

/-- Whether a request is outstanding. -/
def isPending (h : Handle) : Bool := h.pending.isSome

/-- Completes a handle: its reference to the environment goes first, then its buffers. -/
def finish (h : Handle) : StateM (Engine τ) Handle := do
  modify fun e => e.release.log .trace .handle
    s!"{h.operation} completed, released {h.retained.length} buffer(s)"
  return completed h.operation

/-- What the answer to a poll or a wait means for a pending handle. Only the request's own report of success
or failure completes it. -/
def absorb (h : Handle) : Except Denial Bool → StateM (Engine τ) Progress
  | .ok false => return { handle := h, answer := .ok false }
  | .ok true => do return { handle := ← h.finish, answer := .ok true }
  | .error (.refused (.error cause)) => do
    return { handle := ← h.finish, answer := .error (.error (.substrate h.operation cause.message)) }
  | .error denial => return { handle := h, answer := .error (denial.failure h.operation) }

/-- Asks whether the request is done; a completed handle answers without asking. -/
def poll (h : Handle) : StateM (Engine τ) Progress := do
  match h.pending with
  | none => return { handle := h, answer := .ok true }
  | some request =>
    let e ← get
    h.absorb (← Engine.attempt (e.substrate.test request))

/-- Waits until the request is done; the answer is `false` while the caller stays blocked. -/
def wait (h : Handle) : StateM (Engine τ) Progress := do
  match h.pending with
  | none => return { handle := h, answer := .ok true }
  | some request =>
    let e ← get
    h.absorb (← Engine.attempt (e.substrate.wait request))

/-- Whether the operation succeeded; a failure was reported by the poll or wait that completed the handle. -/
def isSuccess (h : Handle) : Except Failure Bool :=
  if h.isPending then
    .error (.error (.invalidState s!"cannot check success of {h.operation} before it has completed"))
  else .ok true

/-- A request that was issued cannot be taken back. -/
def abort (h : Handle) : Except Failure Unit :=
  .error (.error (.notImplemented s!"abort of {h.operation}"))

/-- Lets go of a handle. -/
def drop (h : Handle) : Act τ Unit := do
  if h.isPending then
    Engine.say .error .handle
      s!"{h.operation} handle dropped while its request is outstanding; aborting"
    throw (.abort h.operation)

/-- The last words of a process that dropped a pending handle. -/
def lastWords (operation : String) : String :=
  s!"ferrocoll: fatal: {operation} handle dropped before completion; " ++
    "call wait() or poll is_completed() until it returns true"

/-- A handle written out. -/
def describe (h : Handle) : String :=
  Text.record "Work"
    [("op", Text.quoted h.operation), ("pending", toString h.isPending),
     ("retained", toString h.retained.length)]

end Handle

end Collectives
