import Collectives.Scenario.Lane

/-!
# Scenarios and their transcripts

A scenario sets up a process, has its entries performed, and takes everything down again: the references to
environments first, then the groups in the order of their names, and then the communicators. Pending handles
are left to themselves. The transcript tells what was answered, shown, called and logged.
-/

namespace Collectives

/-- A process to set up, and what is then done with it. -/
structure Scenario where
  /-- Number of ranks. -/
  size : Nat := 1
  /-- Settings of every rank's environment. -/
  config : Config := {}
  /-- A script to work on, instead of a fabric. -/
  script : Option Script := none
  /-- Whether the ranks have environments to begin with. -/
  equipped : Bool := true
  /-- The variables of the process. -/
  vars : List (String × String) := []
  /-- Whether the ranks run side by side. -/
  concurrent : Bool := false
  /-- What is done. -/
  entries : List Entry

/-- What a scenario leaves to read. -/
structure Transcript where
  /-- The reports, in the order of the entries. -/
  reports : List Report
  /-- The operation whose pending handle was dropped, if the process ended by that, and the lines written
  while it was. -/
  aborted : Option (String × List LogLine)
  /-- The buffers of every rank at the end. -/
  final : List (List (String × Dump))
  /-- The calls recorded while everything was taken down, if a script is observed. -/
  teardown : Option (List ScriptEntry)
  /-- The lines written while everything was taken down. -/
  teardownLog : List LogLine
  /-- The calls recorded while the process exited. -/
  exit : List ScriptEntry
  /-- The lines written while the process exited. -/
  exitLog : List LogLine

namespace Scenario

/-- The network of a scenario, and the desks of its ranks without environments. -/
def stage (s : Scenario) : Network × List Desk :=
  match s.script with
  | some script =>
    ({ scripts := [script] }, [{ endpoint := some (Network.scripted 0 script.name) }])
  | none =>
    if s.equipped then
      ({ fabrics := [Fabric.ofSize s.size] },
       (List.range s.size).map fun rank => { endpoint := some (Network.endpoint 0 rank), fabric := some 0 })
    else ({}, [{}])

/-- The environment of the desk at a place, if it is to have one. -/
def equip (s : Scenario) (desk : Desk) : Option (Environment Network) :=
  if s.equipped then desk.endpoint.map fun substrate => { substrate, config := s.config } else none

/-- The session a scenario begins with. -/
def session (s : Scenario) : Session :=
  let (net, desks) := s.stage
  let environments := desks.filterMap s.equip
  { process := { machine := { store := {}, net }, environments }
    desks := desks.zipIdx.map fun (desk, rank) =>
      { desk with environment := if rank < environments.length then some rank else none }
    observed := s.script.map fun _ => 0
    vars := Variables.ofList s.vars }

/-- The lanes of a scenario. -/
def lanes (s : Scenario) : List Lane :=
  let placed := s.entries.zipIdx.map fun (entry, place) => (place, entry)
  if s.concurrent then
    (List.range s.size).map fun rank => { rest := placed.filter fun e => e.2.rank == rank }
  else [{ rest := placed }]

/-- Tests that scripts answer with "not yet". -/
def polls (s : Scenario) : Nat :=
  let scripted (script : Script) : Nat := script.calls.foldl (fun count c => count + c.polls) 0
  let installed (entry : Entry) : Nat :=
    match entry.step with
    | .environment (.installGlobal (some script) _) => scripted script
    | _ => 0
  s.entries.foldl (fun count entry => count + installed entry) ((s.script.map scripted).getD 0)

/-- Rounds that suffice, when no step is blocked for ever: each brings an entry to its end, or begins one, or
uses up a poll. -/
def fuel (s : Scenario) : Nat := 2 * s.entries.length + s.polls + 1

/-- The play of a whole scenario. -/
def play (s : Scenario) : Play := Lane.rounds s.fuel s.lanes { session := s.session }

end Scenario

/-- Reports in the order of their places. -/
def Play.inOrder (p : Play) : List Report :=
  (p.reports.mergeSort fun a b => a.1 ≤ b.1).map Prod.snd

/-- The values of a table in the order of their names. -/
def Table.byName {ν : Type} (t : Table String ν) : List ν :=
  (t.entries.mergeSort fun a b => a.1 ≤ b.1).map Prod.snd

/-- Takes down what a rank has. -/
def Session.takeDown (rank : Nat) : Move Unit := do
  let desk := (← get).desk rank
  keepEnvironment rank none
  for g in desk.groups.byName do discardGroup g
  for comm in desk.communicators.byName do discardCommunicator rank comm

/-- Takes everything down, rank by rank. -/
def Session.takeAllDown : Move Unit := do
  for rank in List.range (← get).desks.length do takeDown rank

/-- The session after a move, whatever the move led to. -/
def Session.after (s : Session) (move : Move Unit) : Session := (move.run s.turnPage).2

/-- The buffers of every rank. -/
def Session.final (s : Session) : List (List (String × Dump)) :=
  s.desks.map fun desk => desk.buffers.entries.map fun e => (e.1, s.show e.2)

/-- The calls recorded by all scripts. -/
def Session.allEntries (s : Session) : List ScriptEntry :=
  s.process.machine.net.scripts.flatMap Script.entries

/-- Performs a scenario and takes everything down. -/
def Scenario.transcript (s : Scenario) : Transcript :=
  let p := s.play
  let down := p.session.after Session.takeAllDown
  let gone := down.after (Session.run Process.exit)
  { reports := p.inOrder
    aborted := p.aborted.map fun operation => (operation, p.session.journal)
    final := p.session.final
    teardown := p.session.observed.map fun _ => down.entries
    teardownLog := down.journal
    exit := gone.allEntries
    exitLog := gone.journal }

/-- All lines written, from the first step to the exit. -/
def Transcript.journal (t : Transcript) : List LogLine :=
  t.reports.flatMap Report.log ++ t.teardownLog ++ t.exitLog

/-- What an aborted process writes to standard error: its error lines, where they are shown, and its last
words. -/
def Transcript.lastWords (t : Transcript) (shown : Bool) : Option String :=
  t.aborted.map fun (operation, journal) =>
    let errors := if shown then journal.filter (·.level = .error) else []
    "\n".intercalate (errors.map (fun line => s!"{line.level.name} {line.text}") ++
      [Handle.lastWords operation])

end Collectives
