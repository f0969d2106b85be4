import Collectives.Demonstration.FourRanks
import Collectives.Demonstration.OneProcess
import Collectives.Demonstration.ThreeRanks

/-!
# The demonstrations by name
-/

namespace Collectives

/-- A demonstration. -/
inductive Demonstration where
  | fourRanks | threeRanks | oneProcess
  deriving DecidableEq, Repr

/-- Every demonstration. -/
def Demonstration.all : List Demonstration := [.fourRanks, .threeRanks, .oneProcess]

/-- The name a demonstration is started by. -/
def Demonstration.name : Demonstration → String
  | .fourRanks => "allreduce"
  | .threeRanks => "gather_scatter"
  | .oneProcess => "mpi_collectives"

/-- What a demonstration prints under the given variables. -/
def Demonstration.run (d : Demonstration) (vars : List (String × String)) : Printed :=
  let byName := Variables.ofList vars
  let printed := match d with
    | .fourRanks => FourRanks.run byName
    | .threeRanks => ThreeRanks.run byName
    | .oneProcess => OneProcess.run vars
  printed.ascending

end Collectives
