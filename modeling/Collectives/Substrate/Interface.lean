import Collectives.Substrate.Exchange

/-!
# The substrate seam

The engine knows a substrate only as a `Substrate`: a record of steps on a `Machine`, that is on the memory,
the journal and whatever the substrate keeps for itself. A step answers, refuses with an error, or faults;
whatever it changed before it failed stays changed.

A step that would block answers `false` instead and changes nothing; the caller stays where it is and the
step is taken again later.
-/

namespace Collectives

/-- Why a substrate refused a call. -/
inductive SubstrateError where
  /-- A reason in words. -/
  | reason (text : String)
  /-- A root outside the group. -/
  | rootRange (root size : Nat)
  /-- A count table without one entry for every rank. -/
  | countTable (table : String) (entries size : Nat)
  /-- Not one destination for every rank. -/
  | receivers (given size : Nat)
  /-- The ranks did not agree. -/
  | mismatch (cause : Mismatch)
  /-- A rank made the same call a second time. -/
  | issuedTwice (rank call : Nat)
  /-- A request of a call that is over. -/
  | unknownRequest (comm call : Nat)
  deriving DecidableEq, Repr

/-- Wording of a substrate error. -/
def SubstrateError.message : SubstrateError → String
  | .reason text => text
  | .rootRange root size => s!"root {root} out of range for {size} ranks"
  | .countTable table entries size => s!"{table} has {entries} entries for {size} ranks"
  | .receivers given size => s!"{given} receive buffers for {size} ranks"
  | .mismatch cause => cause.message
  | .issuedTwice rank call => s!"rank {rank} issued call {call} twice"
  | .unknownRequest comm call => s!"unknown request ({comm}, {call})"

/-- How a substrate step ends that has no answer. -/
inductive Refusal where
  /-- The substrate refused. -/
  | error (cause : SubstrateError)
  /-- The step stopped half-way. -/
  | fault (cause : Fault)
  deriving DecidableEq, Repr

instance : MonadLift (Except Fault) (Except Refusal) where
  monadLift := Except.mapError .fault

/-- All that a substrate step can see and change. -/
structure Machine (τ : Type) where
  /-- Memory and journal. -/
  store : Store
  /-- What the substrate keeps for itself. -/
  net : τ

/-- A substrate step. -/
abbrev Native (τ α : Type) := ExceptT Refusal (StateM (Machine τ)) α

/-- A step of a part, taken inside the whole. -/
def Native.within {σ τ α : Type} (get : τ → σ) (set : σ → τ → τ) (step : Native σ α) : Native τ α :=
  ExceptT.mk fun m =>
    let (answer, m') := step.run { store := m.store, net := get m.net }
    (answer, { store := m'.store, net := set m'.net m.net })

/-- A substrate, as the engine knows it. -/
structure Substrate (τ : Type) where
  /-- Short name, used in logs. -/
  name : String
  /-- Makes one end of a communicator over all ranks. -/
  create : Native τ Communicator
  /-- Gives an end back. -/
  release : Communicator → Machine τ → Machine τ
  /-- Issues a call; the answer names the request. -/
  issue : Communicator → Call → Attributes → Native τ Nat
  /-- Enters a barrier; the answer names the request to wait for, if the barrier is not passed yet. -/
  barrier : Communicator → Native τ (Option Nat)
  /-- Asks whether a request is done. -/
  test : Nat → Native τ Bool
  /-- Waits for a request; `false` while the caller stays blocked. -/
  wait : Nat → Native τ Bool
  /-- Gives back what the substrate holds; called once. -/
  finalize : Machine τ → Machine τ

/-- A substrate of a part, as a substrate of the whole. -/
def Substrate.within {σ τ : Type} (s : Substrate σ) (get : τ → σ) (set : σ → τ → τ) : Substrate τ where
  name := s.name
  create := s.create.within get set
  release comm m :=
    let m' := s.release comm { store := m.store, net := get m.net }
    { store := m'.store, net := set m'.net m.net }
  issue comm call attr := (s.issue comm call attr).within get set
  barrier comm := (s.barrier comm).within get set
  test request := (s.test request).within get set
  wait request := (s.wait request).within get set
  finalize m :=
    let m' := s.finalize { store := m.store, net := get m.net }
    { store := m'.store, net := set m'.net m.net }

end Collectives
