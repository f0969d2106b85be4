import Collectives.Engine.Handle
import Collectives.Engine.Plan

/-!
# Carrying operations out

A planned collective is issued as one call of the substrate. Results that go straight to the caller's memory
leave a pending handle. Staged results are waited for and copied out within the call, and so is a barrier;
while such a call is blocked it is `Ongoing`, and `Ongoing.advance` takes it further.
-/

namespace Collectives

/-- Where a call stands after it was issued. -/
inductive Ongoing where
  /-- The call has returned its handle. -/
  | returned (handle : Handle)
  /-- The call waits for the request of a handle of its own, and then copies results out. -/
  | staged (handle : Handle) (copyOut : CopyOut)
  /-- The call waits for all ranks to come to the barrier. -/
  | meeting (request : Nat)

variable {τ : Type}

/-- What accompanies the calls of a group, under the name of a tensor. -/
def Config.attributes (c : Config) (tensor : String) : Attributes :=
  { toCache := c.cache, matchId := some tensor }

namespace Group

/-- Issues a planned call. -/
def issue (g : Group) (p : Plan) (tensor : String) : Act τ Nat := do
  let e ← get
  Engine.enter p.operation do
    let call ← p.call
    e.substrate.issue g.comm call (e.environment.config.attributes tensor)

/-- Plans and issues a collective; the handle holds a reference to the environment. -/
def dispatch (g : Group) (what : Collective Buffer) (tensor : String) : Act τ Ongoing := do
  let p ← Engine.edit (g.plan what)
  let request ← g.issue p tensor
  modify Engine.acquire
  let handle : Handle :=
    { operation := p.operation, pending := some request, retained := p.retained }
  match p.copyOut with
  | some copyOut => return .staged handle copyOut
  | none => return .returned handle

/-- Comes to the barrier. -/
def meet (g : Group) : Act τ Ongoing := do
  Engine.edit (g.report "barrier")
  let e ← get
  match ← Engine.enter "barrier" (e.substrate.barrier g.comm) with
  | some request => return .meeting request
  | none => return .returned (Handle.completed "barrier")

/-- Begins an operation. -/
def start (g : Group) : Operation Buffer → Act τ Ongoing
  | .collective what tensor => g.dispatch what tensor
  | .barrier => g.meet
  | .unoffered what => throw (.error (.unsupported what.name))

end Group

/-- Waits for a staged call of its own and copies its results out. A wait that ends without the request's
own report leaves the handle pending, and dropping it ends the process. -/
def Handle.completeNow (h : Handle) (copyOut : CopyOut) : Act τ (Option Handle) := do
  let progress ← (h.wait : StateM (Engine τ) Progress)
  match progress.answer with
  | .ok true =>
    Engine.edit copyOut.run
    return some (Handle.completed h.operation)
  | .ok false => return none
  | .error failure =>
    progress.handle.drop
    throw failure

/-- Takes a call further; there is no handle while the call is blocked. -/
def Ongoing.advance : Ongoing → Act τ (Option Handle)
  | .returned handle => return some handle
  | .staged handle copyOut => handle.completeNow copyOut
  | .meeting request => do
    let e ← get
    if ← Engine.enter "barrier" (e.substrate.wait request) then
      return some (Handle.completed "barrier")
    return none

end Collectives
