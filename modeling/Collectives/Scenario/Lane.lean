import Collectives.Scenario.Perform

/-!
# Lanes

A lane is a row of entries that are performed in order. Lanes take turns, one attempt at a time; a blocked
step stays at the head of its lane and is taken up again in the next round. With one lane for each rank the
ranks run side by side; with one lane in all they run in the order of the list.
-/

namespace Collectives

/-- What is reported about one step. -/
structure Report where
  /-- The answer. -/
  answer : Except Trouble Answer
  /-- The buffers to show; there is nothing to show under an unknown name. -/
  shown : List (Option Dump)
  /-- The calls recorded by the script under observation. -/
  calls : List ScriptEntry
  /-- The lines written to the journal. -/
  log : List LogLine

/-- Entries that are performed in order, with their places in the scenario. -/
structure Lane where
  /-- What is left. -/
  rest : List (Nat × Entry)
  /-- How far the first of them is, if it is under way. -/
  task : Option Task := none
  /-- Calls recorded during the first of them so far. -/
  calls : List ScriptEntry := []
  /-- Lines written during the first of them so far. -/
  log : List LogLine := []

/-- A session and what has been reported about it. -/
structure Play where
  /-- The session. -/
  session : Session
  /-- The reports, with the places of their entries. -/
  reports : List (Nat × Report) := []
  /-- The operation whose pending handle was dropped, if the process has ended. -/
  aborted : Option String := none

/-- The elements of a buffer, as far as they can be shown. -/
def Session.show (s : Session) (b : Buffer) : Dump :=
  match b.dump s.heap with
  | .ok value => value
  | .error _ => none

/-- What a step shows of a rank's buffers. -/
def Session.showAll (s : Session) (rank : Nat) (names : List String) : List (Option Dump) :=
  names.map fun name => ((s.desk rank).buffers.find? name).map s.show

namespace Lane

/-- The first entry is over. -/
def pass (lane : Lane) : Lane := { rest := lane.rest.tail }

/-- One attempt at the first entry. -/
def turn (lane : Lane) (p : Play) : Lane × Play :=
  match lane.rest with
  | [] => (lane, p)
  | (place, entry) :: _ =>
    let task := lane.task.getD (.step entry.step)
    let (outcome, s) := (task.takeUp entry.rank).run p.session.turnPage
    let calls := lane.calls ++ s.entries
    let log := lane.log ++ s.journal
    let passed (answer : Except Trouble Answer) : Lane × Play :=
      let report := { answer, shown := s.showAll entry.rank entry.shown, calls, log }
      (lane.pass, { p with session := s, reports := p.reports ++ [(place, report)] })
    match outcome with
    | .ok (.blocked rest) => ({ lane with task := some rest, calls, log }, { p with session := s })
    | .ok (.answered answer) => passed (.ok answer)
    | .error (.failure (.abort operation)) => (lane, { p with session := s, aborted := some operation })
    | .error trouble => passed (.error trouble)

/-- One turn for every lane, unless the process has ended. -/
def round : List Lane → Play → List Lane × Play
  | [], p => ([], p)
  | lane :: lanes, p =>
    if p.aborted.isSome then (lane :: lanes, p)
    else
      let (lane', p') := lane.turn p
      let (lanes', p'') := round lanes p'
      (lane' :: lanes', p'')

/-- Rounds until every lane is through, at most `fuel` of them. -/
def rounds : Nat → List Lane → Play → Play
  | 0, _, p => p
  | fuel + 1, lanes, p =>
    if p.aborted.isSome || lanes.all fun lane => lane.rest.isEmpty then p
    else
      let (lanes', p') := round lanes p
      rounds fuel lanes' p'

end Lane

end Collectives
