import Collectives.Error
import Collectives.Text.Blank

/-!
# Settings of the engine

Two settings, read from named variables: whether the substrate may keep plans, and how an all-gather hands
over its destination. Values are compared after `Text.normalized`; a variable that is set to anything else
than a listed value is an error.
-/

namespace Collectives

/-- Variables by name, as a process or a test sees them. -/
abbrev Variables := String → Option String

/-- Variables from a list of pairs; the first pair of a name counts. -/
def Variables.ofList (vars : List (String × String)) : Variables := fun name => vars.lookup name

/-- How an all-gather hands its destination to the substrate. -/
inductive GatherMode where
  /-- One staging region, copied out before the call returns. -/
  | flat
  /-- One destination for every rank, and no staging. -/
  | vector
  deriving DecidableEq, Repr

/-- The spelling of a mode in settings and logs. -/
def GatherMode.text : GatherMode → String
  | .flat => "flat"
  | .vector => "vector"

/-- Name of a mode in reports. -/
def GatherMode.name : GatherMode → String
  | .flat => "Flat"
  | .vector => "Vector"

/-- Reads a mode. -/
def GatherMode.parse (text : String) : Except Error GatherMode :=
  let value := Text.normalized text
  if value = "flat" then .ok .flat
  else if value = "vector" then .ok .vector
  else .error (.config s!"FERROCOLL_ALLGATHER must be 'flat' or 'vector', got '{value}'")

/-- Settings every group of an environment uses. -/
structure Config where
  /-- Whether the substrate may keep plans under the names of tensors. -/
  cache : Bool := false
  /-- How an all-gather hands over its destination. -/
  gatherMode : GatherMode := .flat
  deriving DecidableEq, Repr

/-- Reads a switch. -/
def parseFlag (name text : String) : Except Error Bool :=
  let value := Text.normalized text
  if ["1", "true", "yes", "on"].contains value then .ok true
  else if ["0", "false", "no", "off", ""].contains value then .ok false
  else .error (.config s!"{name} must be a boolean, got '{value}'")

/-- Reads the settings; a variable that is not set leaves the default. -/
def Config.ofVariables (vars : Variables) : Except Error Config := do
  let cache ← match vars "FERROCOLL_CACHE" with
    | some text => parseFlag "FERROCOLL_CACHE" text
    | none => pure false
  let gatherMode ← match vars "FERROCOLL_ALLGATHER" with
    | some text => GatherMode.parse text
    | none => pure .flat
  return { cache, gatherMode }

/-- Settings written out with their names. -/
def Config.describe (c : Config) : String :=
  Text.record "EngineConfig"
    [("cache_collectives", toString c.cache), ("allgather_mode", c.gatherMode.name)]

/-- The spelling of a mode reads back as the mode. -/
theorem GatherMode.parse_text (m : GatherMode) : GatherMode.parse m.text = .ok m := by
  cases m <;> rfl

end Collectives
