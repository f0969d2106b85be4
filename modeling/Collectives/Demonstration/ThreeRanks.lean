import Collectives.Demonstration.Scene

/-!
# Three ranks that gather, scatter and exchange

Three ranks gather to rank 0, once into separate buffers and once into parts of one block, scatter from it,
and exchange uneven runs of rows.
-/

namespace Collectives.ThreeRanks

open Scene

/-- Number of ranks. -/
def size : Nat := 3

/-- Names with the numbers of all ranks. -/
def eachRank (name : String) : List String := (List.range size).map fun r => s!"{name}{r}"

/-- What only the root passes. -/
def rootOnly {α : Type} (rank : Nat) (items : List α) : List α := if rank = 0 then items else []

/-- Gathers into separate buffers. -/
def staged (rank : Nat) : List Scene :=
  let expected := (List.range size).map fun r => integers [r * 10, r * 10 + 1]
  listed "input" .i32 [rank * 10, rank * 10 + 1] ::
  rootOnly rank ((eachRank "output").map fun name => zeros name .i32 2) ++
  [operate (.gather (rootOnly rank [eachRank "output"]) ["input"] 0),
   { waiting with
     shown := rootOnly rank (eachRank "output")
     line := onRoot rank (sayingIf expected "✓ Gather (staged) test passed") }]

/-- How many buffers a new handle retains. -/
def sayRetained (r : Report) : Option String :=
  match r.answer with
  | .ok (.handle h) => some s!"zero-copy gather retains {h.retained.length} buffers"
  | _ => none

/-- Gathers into parts of one block. -/
def inPlace (rank : Nat) : List Scene :=
  let expected := readings .f64 ((List.range size).flatMap fun r => List.replicate 2 (doubleBits r))
  [listed "input" .f64 (List.replicate 2 (doubleBits rank)), zeros "flat" .f64 (size * 2)] ++
  rootOnly rank [prepare (.split "part" "flat" (List.replicate size 2))] ++
  [{ operate (.gather (rootOnly rank [eachRank "part"]) ["input"] 0) with
     line := onRoot rank sayRetained },
   { waiting with
     shown := ["flat"]
     line := onRoot rank (sayingIf [expected] "✓ Gather (zero-copy) test passed") }]

/-- Scatters from rank 0. -/
def scatter (rank : Nat) : List Scene :=
  let block (r : Nat) : List Nat := List.replicate 3 (singleBits r)
  zeros "output" .f32 3 ::
  rootOnly rank ((List.range size).map fun r => listed s!"input{r}" .f32 (block r)) ++
  [operate (.scatter ["output"] (rootOnly rank [eachRank "input"]) 0),
   { waiting with
     shown := ["output"]
     line := onRoot rank (sayingIf [readings .f32 (block rank)] "✓ Scatter test passed") }]

/-- An integer as it is printed. -/
def printedInteger : Reading → Option String
  | .integer value => some (toString value)
  | _ => none

/-- The integers of the first buffer shown. -/
def sayReceived (rank : Nat) (r : Report) : Option String :=
  match r.shown with
  | some (some values) :: _ =>
    let texts := Text.bracketed (values.filterMap printedInteger)
    saying s!"Rank {rank}: received {texts}" r
  | _ => none

/-- Every rank sends one row to rank 0, two to rank 1 and three to rank 2. -/
def uneven (rank : Nat) : List Scene :=
  let sent := (List.range size).map (· + 1)
  let received := List.replicate size (rank + 1)
  let splits : Splits := { output := received, input := sent }
  let rows (counts : List Nat) : Nat := counts.foldl (· + ·) 0
  [listed "input" .i64 ((List.range (rows sent)).map (rank * 100 + ·)),
   zeros "output" .i64 (rows received),
   operate (.alltoallBase "output" "input" splits),
   { waiting with shown := ["output"], line := sayReceived rank }]

/-- All that one rank does. -/
def scenes (rank : Nat) : List Scene :=
  { step := .environment (.group "g" (.session {})) } ::
  (staged rank ++ inPlace rank ++ scatter rank ++ uneven rank ++ [meeting])

/-- The demonstration. -/
def run (vars : Variables) : Printed :=
  playTogether vars size scenes ["All gather/scatter tests passed!"] fun _ => s!"{size} rank(s) failed"

end Collectives.ThreeRanks
