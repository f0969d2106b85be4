/-!
# The journal

What the library reports about its own work: lines with a level and the part of the library that wrote them.
The journal decides nothing; it is kept because callers read it.
-/

namespace Collectives

/-- How much a line matters. -/
inductive Level where
  | error | warn | info | debug | trace
  deriving DecidableEq, Repr

/-- Name of a level. -/
def Level.name : Level → String
  | .error => "ERROR"
  | .warn => "WARN"
  | .info => "INFO"
  | .debug => "DEBUG"
  | .trace => "TRACE"

/-- Rank of a level: the higher, the less it matters. -/
def Level.rank : Level → Nat
  | .error => 1
  | .warn => 2
  | .info => 3
  | .debug => 4
  | .trace => 5

/-- Parts of the library that write lines. -/
inductive Component where
  | environment | group | handle | layout | fabric
  deriving DecidableEq, Repr

/-- The name a part signs its lines with. -/
def Component.path : Component → String
  | .environment => "ferrocoll::env"
  | .group => "ferrocoll::process_group"
  | .handle => "ferrocoll::work"
  | .layout => "ferrocoll::layout"
  | .fabric => "ferrocoll::substrate::local"

/-- One line of the journal. -/
structure LogLine where
  /-- How much it matters. -/
  level : Level
  /-- Who wrote it. -/
  component : Component
  /-- What it says. -/
  text : String
  deriving DecidableEq, Repr

end Collectives
