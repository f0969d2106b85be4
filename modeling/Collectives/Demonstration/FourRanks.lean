import Collectives.Demonstration.Scene

/-!
# Four ranks that reduce

Four ranks broadcast five numbers, find the largest of their own to the last rank, and add blocks up on all
ranks. How often a rank polls depends on the others, so the number of polls is not printed as a number.
-/

namespace Collectives.FourRanks

open Scene

/-- Number of ranks. -/
def size : Nat := 4

/-- The numbers that rank 0 broadcasts. -/
def numbers : List Nat := [1, 2, 3, 4, 5].map doubleBits

/-- Rank 0's numbers go to all ranks. -/
def broadcast (rank : Nat) : List Scene :=
  [if rank = 0 then listed "data" .f64 numbers else zeros "data" .f64 5,
   operate (.broadcast ["data"] 0),
   { waiting with
     shown := ["data"]
     line := onRoot rank (sayingIf [readings .f64 numbers] "✓ Broadcast test passed") }]

/-- The largest number goes to the last rank. -/
def largest (rank : Nat) : List Scene :=
  let line := sayingIf [integers [(size - 1) * 10]] "✓ Reduce Max test passed"
  [listed "data" .i64 [rank * 10],
   operate (.reduce ["data"] .max (size - 1)),
   { waiting with
     shown := ["data"]
     line := if rank = size - 1 then line else fun _ => none }]

/-- Blocks are added up on all ranks; every rank polls until that is done. -/
def sum (rank : Nat) : List Scene :=
  let total := readings .f32 (List.replicate 4 (singleBits 10))
  [prepare (.filled "data" .f32 (List.replicate 4 (singleBits (rank + 1))) [2, 2]),
   { step := .call (.operate "g" "w" (.collective (.allreduce ["data"] .sum) "demo.grad")) },
   { step := .call (.pollUntil "w")
     shown := ["data"]
     line := onRoot rank (sayingIf [total] "✓ Allreduce Sum test passed after N polls") }]

/-- All that one rank does. -/
def scenes (rank : Nat) : List Scene :=
  { step := .environment (.group "g" (.session { rank := none, size := some size }))
    line := saying s!"Rank {rank}/{size}: Starting collective tests" } ::
  (broadcast rank ++ largest rank ++ sum rank ++ [meeting])

/-- A line of equals signs. -/
def rule : String := "========================================"

/-- The demonstration. -/
def run (vars : Variables) : Printed :=
  playTogether vars size scenes ["", rule, "All collective tests passed!", rule] fun cause =>
    s!"rank 0 failed: {cause.message}"

end Collectives.FourRanks
