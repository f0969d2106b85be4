import Collectives.Demonstration.Scene

/-!
# One process on its own environment

A process takes the environment that is built on first use, expects what its launcher says, finds the
smallest of its numbers and gathers from itself. The environment is finalized as the process exits.
-/

namespace Collectives.OneProcess

open Scene

/-- The group on the environment of the whole process. -/
def opening : Scene :=
  { step := .environment (.group "g" .launched)
    line := saying "Rank 0/1: Starting MPI collective tests" }

/-- All that the process does. -/
def scenes : List Scene :=
  let three := List.replicate 4 (doubleBits 3)
  [opening,
   listed "data" .f64 three,
   operate (.allreduce ["data"] .min),
   { waiting with
     shown := ["data"], line := sayingIf [readings .f64 three] "✓ Allreduce Min test passed" },
   listed "input" .i32 [0, 0, 0],
   zeros "output" .i32 3,
   operate (.allgather [["output"]] ["input"]),
   { waiting with
     shown := ["output"], line := sayingIf [integers [0, 0, 0]] "✓ Allgather test passed" },
   { meeting with line := saying "All MPI collective tests passed!" }]

/-- The scenario of a process that does so much. -/
def scenario (vars : List (String × String)) (all : List Scene) : Scenario :=
  { equipped := false, vars, entries := all.map (Scene.entry 0) }

/-- Why the process gives up, if it does. -/
def failure? (reports : List Report) : Option Error :=
  reports.findSome? fun r =>
    match r.answer with
    | .error (.failure (.error cause)) => some cause
    | _ => none

/-- The demonstration; nothing more is done without a group. -/
def run (vars : List (String × String)) : Printed :=
  let byName := Variables.ofList vars
  let first := (scenario vars [opening]).transcript
  match failure? first.reports with
  | some cause =>
    { code := 1, stdout := [], stderr := s!"Error: {cause.describe}" :: printedJournal byName first.journal }
  | none =>
    let t := (scenario vars scenes).transcript
    { code := 0
      stdout := narrate (scenes.map fun scene => (0, scene)) t.reports
      stderr := printedJournal byName t.journal }

end Collectives.OneProcess
