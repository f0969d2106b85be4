import Collectives.Config
import Collectives.Text.Size

/-!
# What a launcher promises

Launchers publish each process's rank and the size of the job in variables. They are never trusted, only
compared with what the substrate reports. Of the known launchers the first whose rank can be read counts,
and the size is then taken from that launcher alone.
-/

namespace Collectives

/-- Rank and size a process expects to have; a missing one matches anything. -/
structure Rendezvous where
  /-- Expected rank. -/
  rank : Option Nat := none
  /-- Expected size. -/
  size : Option Nat := none
  deriving DecidableEq, Repr

/-- The variables of the known launchers, rank and size, in order of preference. -/
def launchers : List (String × String) :=
  [("RANK", "WORLD_SIZE"), ("PMI_RANK", "PMI_SIZE"),
   ("OMPI_COMM_WORLD_RANK", "OMPI_COMM_WORLD_SIZE"), ("SLURM_PROCID", "SLURM_NTASKS")]

/-- A variable that holds a size. -/
def Variables.size? (vars : Variables) (name : String) : Option Nat := (vars name).bind Text.size?

/-- The promise of one launcher, if it published a rank. -/
def Rendezvous.ofLauncher (vars : Variables) (launcher : String × String) : Option Rendezvous :=
  (vars.size? launcher.1).map fun rank => { rank := some rank, size := vars.size? launcher.2 }

/-- The promise of the first launcher that published a rank. -/
def Rendezvous.ofVariables (vars : Variables) : Rendezvous :=
  (launchers.findSome? (Rendezvous.ofLauncher vars)).getD {}

/-- Whether a launcher published at least a rank. -/
def Rendezvous.isLaunched (r : Rendezvous) : Bool := r.rank.isSome

/-- Compares the promise with the rank and size of the substrate, the rank first. -/
def Rendezvous.check (r : Rendezvous) (rank size : Nat) : Except Failure Unit := do
  match r.rank with
  | some expected => require (expected == rank) (.launchRank expected rank)
  | none => pure ()
  match r.size with
  | some expected => require (expected == size) (.launchSize expected size)
  | none => pure ()

/-- A promise written out with its names. -/
def Rendezvous.describe (r : Rendezvous) : String :=
  Text.record "Rendezvous"
    [("rank", Text.optional (r.rank.map toString)), ("size", Text.optional (r.size.map toString))]

end Collectives
