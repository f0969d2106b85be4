import Collectives.Journal
import Collectives.Table
import Collectives.Text.Pattern.Leap
import Collectives.Text.Pattern.Usable

/-!
# Filters of the journal

A filter is written as rules between commas, and a pattern after a slash. A rule gives the level up to which
lines are kept, for the parts of the library whose path begins with a name or for all; of several rules for a
line, the one with the longest name decides. The pattern has to occur in what the line says. What cannot be
read is passed over with a complaint.
-/

namespace Collectives

/-- Something in the text of a filter that cannot be read. -/
inductive FilterComplaint where
  /-- A rule, or the level of one. -/
  | unreadable (text : String)
  /-- A text with more than one slash. -/
  | tooManyParts (text : String)
  /-- A pattern. -/
  | badPattern (text : String) (cause : Text.Unusable)

/-- What a complaint says. -/
def FilterComplaint.message : FilterComplaint → String
  | .unreadable text => s!"invalid logging spec '{text}'"
  | .tooManyParts text => s!"invalid logging spec '{text}' (too many '/'s)"
  | .badPattern text cause => s!"invalid regex filter - {cause.message text}"

/-- A filter: the greatest rank that is kept by name, where no name stands for all lines, and the pattern. -/
structure JournalFilter where
  /-- The rules, in the order of their texts. -/
  rules : Table (Option String) Nat := {}
  /-- The pattern. -/
  pattern : Option Text.Pattern := none

/-- Levels by name. -/
def levels : List Level := [.error, .warn, .info, .debug, .trace]

/-- The rank that a text names, in any case: that of a level, or zero to keep nothing. -/
def rank? (text : List Char) : Option Nat :=
  let name := Text.lowered text
  if name = "off".toList then some 0
  else (levels.find? fun level => Text.lowered level.name.toList == name).map Level.rank

namespace JournalFilter

/-- A rule: a name and a rank. A name alone keeps all lines of its parts, a level alone is for all parts. -/
def rule (text : List Char) : Except FilterComplaint (Option String × Nat) :=
  match Text.pieces (· == '=') text with
  | [name] =>
    match rank? name with
    | some rank => .ok (none, rank)
    | none => .ok (some (String.ofList name), Level.trace.rank)
  | [name, value] =>
    let value := Text.trimmed value
    if value.isEmpty then .ok (some (String.ofList name), Level.trace.rank)
    else
      match rank? value with
      | some rank => .ok (some (String.ofList name), rank)
      | none => .error (.unreadable (String.ofList value))
  | _ => .error (.unreadable (String.ofList text))

/-- The rules of a text. -/
def ruleTexts (text : List Char) : List (List Char) :=
  ((Text.pieces (· == ',') text).map Text.trimmed).filter (!·.isEmpty)

/-- The filter with one more rule, or with the complaint about it. -/
def addRule (read : JournalFilter × List FilterComplaint) (text : List Char) :
    JournalFilter × List FilterComplaint :=
  match rule text with
  | .ok (name, rank) => ({ read.1 with rules := read.1.rules.insert name rank }, read.2)
  | .error complaint => (read.1, read.2 ++ [complaint])

/-- The filter with a pattern, or with the complaint about it. -/
def addPattern (read : JournalFilter × List FilterComplaint) (text : List Char) :
    JournalFilter × List FilterComplaint :=
  let text := String.ofList text
  match Text.Pattern.parse? text with
  | .ok p => ({ read.1 with pattern := some p }, read.2)
  | .error cause => (read.1, read.2 ++ [.badPattern text cause])

/-- The filter that a text describes, and what is to complain about. -/
def ofText (text : String) : JournalFilter × List FilterComplaint :=
  let withRules (rules : List Char) : JournalFilter × List FilterComplaint :=
    (ruleTexts rules).foldl addRule ({}, [])
  match Text.pieces (· == '/') text.toList with
  | [] => ({}, [])
  | [rules] => withRules rules
  | [rules, pattern] => addPattern (withRules rules) pattern
  | _ => ({}, [.tooManyParts text])

/-- The rules, the longest name last; errors are kept where there is no rule. -/
def orderedRules (f : JournalFilter) : List (Option String × Nat) :=
  if f.rules.entries.isEmpty then [(none, Level.error.rank)]
  else
    let weight (name : Option String) : Nat := (name.map String.utf8ByteSize).getD 0
    f.rules.entries.mergeSort fun a b => decide (weight a.1 ≤ weight b.1)

/-- Whether a rule is for a path. -/
def concerns (path : String) (name : Option String) : Bool :=
  name.all fun name => name.toList.isPrefixOf path.toList

/-- The greatest rank that is kept for a path. -/
def rankFor (f : JournalFilter) (path : String) : Nat :=
  match f.orderedRules.reverse.find? fun rule => concerns path rule.1 with
  | some rule => rule.2
  | none => 0

/-- Whether a line is kept. -/
def keeps (f : JournalFilter) (line : LogLine) : Bool :=
  line.level.rank ≤ f.rankFor line.component.path && f.pattern.all fun p => p.occursIn line.text

/-- A filter without rules keeps the errors of every part. -/
theorem rankFor_of_isEmpty {f : JournalFilter} (h : f.rules.entries = []) (path : String) :
    f.rankFor path = Level.error.rank := by
  simp [rankFor, orderedRules, h, concerns]

end JournalFilter

end Collectives
