import Collectives.Substrate.Fabric
import Collectives.Substrate.Script

/-!
# Networks

A network is every substrate of a process: in-process fabrics and scripted substrates, by number. Each end of
a fabric and each script is a `Substrate` of the whole network.
-/

namespace Collectives

/-- The substrates of a process. -/
structure Network where
  /-- Fabrics, by number. -/
  fabrics : List Fabric := []
  /-- Scripts, by number. -/
  scripts : List Script := []

namespace Network

/-- A fabric. -/
def fabric (n : Network) (number : Nat) : Fabric := n.fabrics.getD number (Fabric.ofSize 0)

/-- A script. -/
def script (n : Network) (number : Nat) : Script := n.scripts.getD number {}

/-- One rank's end of a fabric, as a substrate of the network. -/
def endpoint (number rank : Nat) : Substrate Network :=
  (Fabric.substrate rank).within (·.fabric number) fun f n =>
    { n with fabrics := n.fabrics.set number f }

/-- A script, as a substrate of the network. -/
def scripted (number : Nat) (name : String) : Substrate Network :=
  (Script.substrate name).within (·.script number) fun s n =>
    { n with scripts := n.scripts.set number s }

/-- Adds a fabric; the answer is its number. -/
def addFabric (size : Nat) : StateM Network Nat := fun n =>
  (n.fabrics.length, { n with fabrics := n.fabrics ++ [Fabric.ofSize size] })

/-- Adds a script; the answer is its number. -/
def addScript (s : Script) : StateM Network Nat := fun n =>
  (n.scripts.length, { n with scripts := n.scripts ++ [s] })

/-- A substrate of one rank, on a fabric of its own. -/
def singleRank : StateM Network (Substrate Network) := do
  let number ← addFabric 1
  return endpoint number 0

/-- The network with all recorded calls forgotten. -/
def forgetEntries (n : Network) : Network :=
  { n with scripts := n.scripts.map fun s => { s with entries := [] } }

end Network

end Collectives
