import Collectives.Text.Letter
import Collectives.Text.Pattern.Bracket

/-!
# Reading patterns

The text of a pattern is read from left to right, with the groups that are open on a stack. What stands in a
group becomes a tree when the group is closed. `PatternTree.read?` is the whole of it.
-/

namespace Collectives.Text

/-- What has been read of a group, or of the whole text. -/
structure PatternLevel where
  /-- Where it begins. -/
  start : Nat
  /-- Where the alternative begins that is not complete. -/
  first : Nat
  /-- The parts of that alternative, the latest first. -/
  items : List PatternTree := []
  /-- The alternatives that are complete, the latest first. -/
  done : List PatternTree := []

namespace PatternLevel

/-- A level that begins at a place. -/
def opened (place : Nat) : PatternLevel := { start := place, first := place }

/-- Joins a part. -/
def add (l : PatternLevel) (item : PatternTree) : PatternLevel := { l with items := item :: l.items }

/-- The alternative that ends at a place. -/
def alternative (l : PatternLevel) (stop : Nat) : PatternTree :=
  match l.items with
  | [] => .nothing ⟨l.first, stop⟩
  | [item] => item
  | _ => .row ⟨l.first, stop⟩ l.items.reverse

/-- All of a level that ends at a place. -/
def content (l : PatternLevel) (stop : Nat) : PatternTree :=
  if l.done.isEmpty then l.alternative stop
  else .choice ⟨l.start, stop⟩ (l.alternative stop :: l.done).reverse

/-- Completes the alternative that ends at a bar. -/
def divide (l : PatternLevel) (bar : Nat) : PatternLevel :=
  { l with first := bar + 1, items := [], done := l.alternative bar :: l.done }

end PatternLevel

/-- A group that is open, and what is around it. -/
structure OpenGroup where
  /-- Where it was opened. -/
  first : Nat
  /-- What it is for. -/
  kind : GroupKind
  /-- Whether the text around it has room. -/
  spaced : Bool
  /-- What was read around it. -/
  level : PatternLevel

/-- What has been read of a pattern. -/
structure PatternDraft where
  /-- Whether the text has room. -/
  spaced : Bool := false
  /-- What was read of the innermost group. -/
  level : PatternLevel := .opened 0
  /-- The open groups, from the innermost one. -/
  groups : List OpenGroup := []
  /-- The names of groups, and where they stand. -/
  names : List (List Char × Stretch) := []
  /-- How many groups remember their piece. -/
  captures : Nat := 0

namespace PatternDraft

/-- Joins a part. -/
def add (d : PatternDraft) (item : PatternTree) : PatternDraft := { d with level := d.level.add item }

/-- Opens a group whose inside begins at a place. -/
def enter (d : PatternDraft) (first : Nat) (kind : GroupKind) (spaced : Bool) (inside : Nat) : PatternDraft :=
  { d with
    spaced
    level := .opened inside
    groups := { first, kind, spaced := d.spaced, level := d.level } :: d.groups }

/-- Opens a group that remembers its piece. -/
def capture (d : PatternDraft) (first inside : Nat) : PatternDraft :=
  { d.enter first (.captured (d.captures + 1)) d.spaced inside with captures := d.captures + 1 }

/-- Closes the innermost group, if one is open, at a parenthesis. -/
def leave? (d : PatternDraft) (place : Nat) : Option PatternDraft :=
  match d.groups with
  | [] => none
  | g :: groups =>
    let group : PatternTree := .group ⟨g.first, place + 1⟩ g.kind (d.level.content place)
    some { d with spaced := g.spaced, level := g.level.add group, groups }

end PatternDraft

/-! ## Groups -/

/-- Whether a character can be in the name of a group. -/
def isNameChar (first : Bool) (c : Char) : Bool :=
  c == '_' || isLetter c || !first && (isNumber c || c == '.' || c == '[' || c == ']')

/-- Reads the name of a group, up to the sign that ends it. -/
def readGroupName (c : Cursor) : Except PatternFlaw (List Char × Cursor) :=
  let name := c.left.takeWhile (· != '>')
  let stop := c.ahead name.length
  match name.zipIdx.find? fun (d, i) => !isNameChar (i == 0) d with
  | some (_, i) => flawed (c.ahead i).sign .badName
  | none =>
    if stop.atEnd then flawed stop.here .unclosedName
    else if name.isEmpty then flawed c.here .emptyName
    else .ok (name, stop)

/-- Opens a group whose name stands here. -/
def openNamed (d : PatternDraft) (first : Nat) (c : Cursor) : Except PatternFlaw (PatternDraft × Cursor) := do
  let (name, stop) ← readGroupName c
  let stretch := stop.since c.pos
  match d.names.lookup name with
  | some before => .error { stretch, fault := .repeatedName, repeats := some before }
  | none => return ({ d.capture first stop.next.pos with names := (name, stretch) :: d.names }, stop.next)

/-- Opens a group whose switches stand here, or switches modes for what follows. -/
def openSwitched (d : PatternDraft) (first mark : Nat) (c : Cursor) :
    Except PatternFlaw (PatternDraft × Cursor) := do
  let (switches, stop) ← readSwitches c
  let spaced := spacedAfter d.spaced switches
  let after := stop.next
  if stop.beginsWith ":" then return (d.enter first (.switched switches) spaced after.pos, after)
  else if stop.pos = c.pos then flawed ⟨mark, mark⟩ .nothingToRepeat
  else return ({ d.add (.switch (after.since first) switches) with spaced }, after)

/-- What begins a look at what is around. -/
def lookAround : List String := ["?=", "?!", "?<=", "?<!"]

/-- Opens the group whose parenthesis stands here, or switches modes. -/
def openGroup (d : PatternDraft) (c : Cursor) : Except PatternFlaw (PatternDraft × Cursor) :=
  let first := c.pos
  let inside := c.step d.spaced
  match lookAround.find? inside.beginsWith with
  | some sign => flawed ((inside.ahead sign.length).since first) .lookAround
  | none =>
    if inside.beginsWith "?P<" then openNamed d first (inside.ahead 3)
    else if inside.beginsWith "?<" then openNamed d first (inside.ahead 2)
    else if inside.beginsWith "?" then
      if inside.next.atEnd then flawed c.sign .unclosedGroup
      else openSwitched d first inside.pos inside.next
    else .ok (d.capture first inside.pos, inside)

/-! ## Repetitions -/

/-- Reads a number with blanks around it. The flaw of a number does not keep what follows from being read. -/
def readNumber (spaced : Bool) (c : Cursor) : Except PatternFlaw Nat × Cursor :=
  let start := c.ahead (c.left.takeWhile isBlank).length
  let (digits, stop) := start.gather spaced Char.isDigit
  let value := digits.foldl (fun value d => 10 * value + (d.toNat - 48)) 0
  let answer : Except PatternFlaw Nat :=
    if digits.isEmpty then flawed (stop.since start.pos) .badCount
    else if value < 4294967296 then .ok value
    else flawed (stop.since start.pos) .wideCount
  (answer, (stop.gather spaced isBlank).2)

/-- Reads a count between braces: the least and the greatest number. -/
def readCount (spaced : Bool) (c : Cursor) : Except PatternFlaw ((Nat × Option Nat) × Cursor) :=
  let first := c.pos
  let closed (count : Nat × Option Nat) (stop : Cursor) : Except PatternFlaw ((Nat × Option Nat) × Cursor) :=
    if stop.beginsWith "\x7d" then .ok (count, stop) else flawed (stop.since first) .unclosedCount
  let inside := c.step spaced
  let (least, stop) := readNumber spaced inside
  let second := stop.step spaced
  if inside.atEnd then flawed (inside.since first) .unclosedCount
  else if stop.atEnd then flawed (stop.since first) .unclosedCount
  else if !stop.beginsWith "," then do
    let count ← least
    closed (count, some count) stop
  else if second.atEnd then flawed (second.since first) .unclosedCount
  else if second.beginsWith "\x7d" then do
    let least ← least
    closed (least, none) second
  else do
    let least ← least
    let (most, stop) := readNumber spaced second
    let most ← most
    closed (least, some most) stop

/-- Whether a question mark stands here, and what is after it. -/
def readQuestionMark (c : Cursor) : Bool × Cursor :=
  if c.beginsWith "?" then (true, c.next) else (false, c)

/-- The latest part of an alternative, where it can be repeated, and the parts before it. -/
def PatternLevel.latest? (l : PatternLevel) : Option (PatternTree × List PatternTree) :=
  match l.items with
  | [] => none
  | .nothing _ :: _ => none
  | .switch _ _ :: _ => none
  | item :: before => some (item, before)

/-- Repeats the latest part as often as the sign or the count that stands here says. -/
def readRepetition (d : PatternDraft) (c : Cursor) : Except PatternFlaw (PatternDraft × Cursor) :=
  match d.level.latest? with
  | none => flawed c.here .nothingToRepeat
  | some (item, before) => do
    let repeated (least : Nat) (most : Option Nat) (choice : Bool × Cursor) : PatternDraft × Cursor :=
      let (asksFew, after) := choice
      let tree : PatternTree := .repeated (after.since item.stretch.first) least most asksFew item
      ({ d with level := { d.level with items := tree :: before } }, after)
    let simple := readQuestionMark c.next
    match c.left with
    | '?' :: _ => return repeated 0 (some 1) simple
    | '*' :: _ => return repeated 0 none simple
    | '+' :: _ => return repeated 1 none simple
    | _ => do
      let ((least, most), brace) ← readCount d.spaced c
      let choice := readQuestionMark (brace.step d.spaced)
      if most.any (· < least) then flawed (choice.2.since c.pos) .reversedCount
      else return repeated least most choice

/-! ## The whole text -/

/-- Whether a sign repeats what is before it. -/
def isRepetition (c : Char) : Bool := c == '?' || c == '*' || c == '+' || c == '\x7b'

/-- Reads what begins here, with fuel for all that is left. -/
def PatternDraft.step (d : PatternDraft) (fuel : Nat) (sign : Char) (c : Cursor) :
    Except PatternFlaw (PatternDraft × Cursor) :=
  if sign = '(' then openGroup d c
  else if sign = ')' then
    match d.leave? c.pos with
    | some d => .ok (d, c.next)
    | none => flawed c.sign .unopenedGroup
  else if sign = '|' then .ok ({ d with level := d.level.divide c.pos }, c.next)
  else if sign = '[' then (readBracket fuel d.spaced c).map fun (tree, after) => (d.add tree, after)
  else if isRepetition sign then readRepetition d c
  else (readSymbol d.spaced c).map fun (symbol, after) => (d.add (.symbol symbol), after)

/-- Reads a text to its end; every step takes a character at least. -/
def readPattern : Nat → PatternDraft → Cursor → Except PatternFlaw (PatternDraft × Cursor)
  | 0, d, c => .ok (d, c)
  | fuel + 1, d, c =>
    let here := c.skip d.spaced
    match here.left with
    | [] => .ok (d, here)
    | sign :: _ => do
      let (d, after) ← d.step fuel sign here
      readPattern fuel d after

/-- What a text says as a pattern. -/
def PatternTree.read? (text : List Char) : Except PatternFlaw PatternTree := do
  let (d, stop) ← readPattern (text.length + 1) {} (.start text)
  match d.groups with
  | g :: _ => flawed ⟨g.first, g.first + 1⟩ .unclosedGroup
  | [] => return d.level.content stop.pos

end Collectives.Text
