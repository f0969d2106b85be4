import Collectives.Substrate.Interface

/-!
# Scripted substrates

A scripted substrate moves no data. It does what its script says, call by call, and records every call made
to it. It stands in for a substrate of any behaviour: one that refuses, faults, or takes its time.
-/

namespace Collectives

/-- What happens at a scripted moment. -/
inductive Cue where
  /-- All goes well. -/
  | succeed
  /-- The substrate refuses with a text. -/
  | refuse (text : String)
  /-- The substrate faults with a text. -/
  | raise (text : String)
  /-- The substrate faults without a text. -/
  | raiseSilently
  deriving DecidableEq, Repr

/-- Follows a cue. -/
def Cue.perform : Cue → Except Refusal Unit
  | .succeed => .ok ()
  | .refuse text => .error (.error (.reason text))
  | .raise text => .error (.fault (.raised text))
  | .raiseSilently => .error (.fault .raisedSilently)

/-- The part of a script that is about one call. -/
structure CallScript where
  /-- What happens when the call is issued. -/
  issue : Cue := .succeed
  /-- How many tests of the request are answered "not yet". -/
  polls : Nat := 0
  /-- What then happens, test after test. -/
  ending : List Cue := []
  deriving DecidableEq, Repr

/-- One recorded call of a scripted substrate. -/
inductive ScriptEntry where
  | created
  | released
  | finalized
  | tested
  | waited
  | issued (call : Call) (attr : Attributes)
  | barrier
  deriving DecidableEq, Repr

/-- A scripted substrate. -/
structure Script where
  /-- Name, rank and size it reports. -/
  name : String := "scripted"
  rank : Nat := 0
  size : Nat := 1
  /-- Whether its communicators take one destination for every rank. -/
  vector : Bool := false
  /-- What happens when communicators are made; all goes well once this is used up. -/
  creations : List Cue := []
  /-- What happens to calls; the default once this is used up. -/
  calls : List CallScript := []
  /-- Requests given out, by number: what is left of their scripts. -/
  requests : List CallScript := []
  /-- Communicators made so far. -/
  communicators : Nat := 0
  /-- The calls recorded, oldest first. -/
  entries : List ScriptEntry := []

namespace Script

/-- Records a call. -/
def record (s : Script) (entry : ScriptEntry) : Script := { s with entries := s.entries ++ [entry] }

/-- The machine with a call recorded. -/
def recorded (entry : ScriptEntry) (m : Machine Script) : Machine Script :=
  { m with net := m.net.record entry }

/-- Makes a communicator. -/
def createStep : Native Script Communicator := do
  modify (recorded .created)
  let m ← get
  let s := m.net
  set { m with net := { s with creations := s.creations.tail } }
  (s.creations.headD .succeed).perform
  set { m with net := { s with creations := s.creations.tail, communicators := s.communicators + 1 } }
  return { number := s.communicators, rank := s.rank, size := s.size, vector := s.vector }

/-- Takes the next call of the script, records it and makes its request. -/
def issueStep (entry : ScriptEntry) : Native Script Nat := do
  modify (recorded entry)
  let m ← get
  let s := m.net
  let next := s.calls.headD {}
  set { m with net := { s with calls := s.calls.tail } }
  next.issue.perform
  set { m with net := { s with calls := s.calls.tail, requests := s.requests ++ [next] } }
  return s.requests.length

/-- The next event of a request whose waiting is over. -/
def finishStep (request : Nat) (rest : CallScript) : Native Script Bool := do
  modify fun m =>
    { m with net := { m.net with
        requests := m.net.requests.set request { rest with polls := 0, ending := rest.ending.tail } } }
  (rest.ending.headD .succeed).perform
  return true

/-- Tests a request. -/
def testStep (request : Nat) : Native Script Bool := do
  modify (recorded .tested)
  let rest := (← get).net.requests.getD request {}
  if rest.polls = 0 then finishStep request rest
  else
    modify fun m =>
      { m with net := { m.net with
          requests := m.net.requests.set request { rest with polls := rest.polls - 1 } } }
    return false

/-- Waits for a request; a scripted wait never blocks. -/
def waitStep (request : Nat) : Native Script Bool := do
  modify (recorded .waited)
  finishStep request ((← get).net.requests.getD request {})

/-- A script as a substrate. Its barriers are passed at once. -/
def substrate (name : String) : Substrate Script where
  name
  create := createStep
  release _ m := recorded .released m
  issue _ call attr := issueStep (.issued call attr)
  barrier _ := do
    let _ ← issueStep .barrier
    return none
  test request := testStep request
  wait request := waitStep request
  finalize m := recorded .finalized m

end Script

end Collectives
