import Collectives.Journal.Filter
import Collectives.Scenario.Transcript
import Collectives.Text.Lines

/-!
# Demonstrations

A demonstration is a scenario with a line to print after some of its steps, as long as the step turned out as
it should. Ranks print in any order, so what a demonstration prints is listed in the order of the texts.
-/

namespace Collectives

/-- A step of a demonstration, and what is printed after it. -/
structure Scene where
  /-- The step. -/
  step : Step
  /-- Buffers to look at after the step. -/
  shown : List String := []
  /-- The line to print, given how the step turned out. -/
  line : Report → Option String := fun _ => none

/-- What a program printed, and its exit code. -/
structure Printed where
  /-- Exit code. -/
  code : Nat
  /-- What was printed on standard output, each with a line end. -/
  stdout : List String
  /-- What was printed on standard error, each with a line end. -/
  stderr : List String

/-- Texts in ascending order. -/
def ascending (lines : List String) : List String := lines.mergeSort fun a b => !decide (b < a)

/-- The lines that were printed, in ascending order. -/
def Printed.ascending (p : Printed) : Printed :=
  { p with
    stdout := Collectives.ascending (p.stdout.flatMap Text.lines)
    stderr := Collectives.ascending (p.stderr.flatMap Text.lines) }

/-! ## The journal on standard error -/

/-- The filter that a variable describes, and what is to complain about. -/
def journalFilter (vars : Variables) : JournalFilter × List FilterComplaint :=
  match vars "RUST_LOG" with
  | some text => JournalFilter.ofText text
  | none => ({}, [])

/-- Complaints as they are printed. -/
def printedComplaints (vars : Variables) : List String :=
  (journalFilter vars).2.map fun complaint => s!"warning: {complaint.message}, ignoring it"

/-- A text filled up with blanks. -/
def padded (width : Nat) (text : String) : String :=
  text ++ String.ofList (List.replicate (width - text.length) ' ')

/-- A line of the journal as it is printed. -/
def LogLine.printed (l : LogLine) : String :=
  let level := padded 5 l.level.name
  s!"[{level} {l.component.path}] {l.text}"

/-- What is printed of a journal. -/
def printedJournal (vars : Variables) (journal : List LogLine) : List String :=
  printedComplaints vars ++ (journal.filter (journalFilter vars).1.keeps).map LogLine.printed

namespace Scene

/-! ## Turning out as it should -/

/-- Prints a line after a step that turned out well. -/
def saying (text : String) (r : Report) : Option String := if r.answer.isOk then some text else none

/-- Prints a line after a step that left the buffers with the given elements. -/
def sayingIf (expected : List (List Reading)) (text : String) (r : Report) : Option String :=
  if r.answer.isOk && r.shown == expected.map fun d => some (some d) then some text else none

/-- Has only rank 0 print a line. -/
def onRoot (rank : Nat) (line : Report → Option String) : Report → Option String :=
  if rank = 0 then line else fun _ => none

/-- Readings of 32-bit integers and longer ones. -/
def integers (values : List Nat) : List Reading := values.map fun v : Nat => .integer v

/-- The bits of a 64-bit float. -/
def doubleBits (value : Nat) : Nat := (Float.ofNat value).toBits.toNat

/-- The bits of a 32-bit float. -/
def singleBits (value : Nat) : Nat := (Float32.ofNat value).toBits.toNat

/-- Readings of words of one type. -/
def readings (t : ElementType) (words : List Nat) : List Reading := words.filterMap t.reading?

/-- A step on buffers. -/
def prepare (step : BufferStep) : Scene := { step := .buffer step }

/-- A new buffer of given words in one dimension. -/
def listed (name : String) (t : ElementType) (words : List Nat) : Scene :=
  prepare (.listed name t words)

/-- A new buffer of zeros in one dimension. -/
def zeros (name : String) (t : ElementType) (length : Nat) : Scene := prepare (.zeros name t [length])

/-- An operation of the group `g` with the handle `w`. -/
def operate (what : Collective String) : Scene :=
  { step := .call (.operate "g" "w" (.collective what "")) }

/-- Waits for the handle `w`. -/
def waiting : Scene := { step := .call (.wait "w") }

/-- Waits for all ranks. -/
def meeting : Scene := { step := .call (.operate "g" "b" .barrier) }

/-! ## Playing -/

/-- Scenes of all ranks, one rank after the other. -/
def scenesOf (size : Nat) (scenes : Nat → List Scene) : List (Nat × Scene) :=
  (List.range size).flatMap fun rank => (scenes rank).map fun scene => (rank, scene)

/-- The entry of a scene. -/
def entry (rank : Nat) (scene : Scene) : Entry :=
  { rank, step := scene.step, shown := scene.shown }

/-- The lines that scenes print. -/
def narrate (scenes : List (Nat × Scene)) (reports : List Report) : List String :=
  (scenes.zip reports).filterMap fun (scene, report) => scene.2.line report

/-- Plays ranks side by side, with the settings of every rank read from the variables. -/
def playTogether (vars : Variables) (size : Nat) (scenes : Nat → List Scene) (closing : List String)
    (failing : Error → String) : Printed :=
  match Config.ofVariables vars with
  | .error cause => { code := 1, stdout := [], stderr := printedComplaints vars ++ [failing cause] }
  | .ok config =>
    let all := scenesOf size scenes
    let entries := all.map fun scene => scene.2.entry scene.1
    let scenario : Scenario := { size, config, concurrent := true, entries }
    let t := scenario.transcript
    { code := 0
      stdout := narrate all t.reports ++ closing
      stderr := printedJournal vars t.journal }

end Scene

end Collectives
