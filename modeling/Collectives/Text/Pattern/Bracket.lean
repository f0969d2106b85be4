import Collectives.Text.Pattern.Symbol

/-!
# Reading brackets of patterns

Characters, ranges and further brackets stand between brackets, and pairs of signs between what stands there.
The brackets that are open around a place are kept on a stack; what they hold so far becomes a tree when they
are closed.
-/

namespace Collectives.Text

/-- Sets with a name. -/
def namedSets : List (String × CharSet) :=
  let marks : CharSet := .any [.range '!' '/', .range ':' '@', .range '[' '\x60', .range '\x7b' '~']
  [("alnum", .either .digits .letters), ("alpha", .letters), ("ascii", .range '\x00' '\x7f'),
   ("blank", .either (.one '\t') (.one ' ')), ("cntrl", .either (.range '\x00' '\x1f') (.one '\x7f')),
   ("digit", .digits), ("graph", .range '!' '~'), ("lower", .lower), ("print", .range ' ' '~'),
   ("punct", marks), ("space", .blanks), ("upper", .upper), ("word", .wordChars),
   ("xdigit", .any [.digits, .range 'A' 'F', .range 'a' 'f'])]

/-- The name of a set between colons, where a bracket and a colon stand here. -/
def readNamed? (c : Cursor) : Option (BracketTree × Cursor) :=
  match c.left with
  | '[' :: ':' :: inner =>
    let negated := inner.head? = some '^'
    let rest := if negated then inner.drop 1 else inner
    let name := rest.takeWhile (· != ':')
    let after := c.ahead ((if negated then 3 else 2) + name.length + 2)
    match rest.drop name.length, namedSets.lookup (String.ofList name) with
    | ':' :: ']' :: _, some set => some (.named (after.since c.pos) set negated, after)
    | _, _ => none
  | _ => none

/-- A bracket that is open. -/
structure Bracket where
  /-- Where it was opened. -/
  first : Nat
  /-- Where its inside begins. -/
  stop : Nat
  /-- Whether it stands for all other characters. -/
  negated : Bool
  /-- The side before a pair of signs, and what the signs do with it. -/
  side : Option (SetJoint × BracketTree) := none
  /-- Where what stands after it begins. -/
  place : Nat
  /-- What stands after it, the latest first. -/
  items : List BracketTree := []

namespace Bracket

/-- The flaw of brackets of which this is the innermost, and which are never closed. -/
def unclosed {α : Type} (b : Bracket) : Except PatternFlaw α := flawed ⟨b.first, b.stop⟩ .unclosedClass

/-- Joins what was read. -/
def add (b : Bracket) (item : BracketTree) : Bracket := { b with items := item :: b.items }

/-- What was read since the last pair of signs. -/
def latest (b : Bracket) : BracketTree :=
  match b.items with
  | [] => .nothing ⟨b.place, b.place⟩
  | [item] => item
  | last :: _ =>
    let items := b.items.reverse
    let first := (items.head?.map fun item => item.stretch.first).getD b.place
    .union ⟨first, last.stretch.stop⟩ items

/-- All that was read. -/
def content (b : Bracket) : BracketTree :=
  match b.side with
  | none => b.latest
  | some (how, lhs) => .joint ⟨lhs.stretch.first, b.latest.stretch.stop⟩ how lhs b.latest

/-- Puts what was read before a pair of signs. -/
def divide (b : Bracket) (how : SetJoint) (place : Nat) : Bracket :=
  { b with side := some (how, b.content), place, items := [] }

end Bracket

/-- Reads dashes in front, which stand for themselves: the latest first. At the end of the text the bracket is
unclosed. -/
def readDashes (spaced : Bool) (first : Nat) :
    Nat → List BracketTree → Cursor → Except PatternFlaw (List BracketTree × Cursor)
  | 0, items, c => .ok (items, c)
  | fuel + 1, items, c =>
    if c.beginsWith "-" then
      let after := c.step spaced
      if after.atEnd then flawed ⟨first, first⟩ .unclosedClass
      else readDashes spaced first fuel (.symbol (letterAt '-' c.sign) :: items) after
    else .ok (items, c)

/-- Opens the bracket that stands here. A closing bracket in front stands for itself. -/
def openBracket (spaced : Bool) (c : Cursor) : Except PatternFlaw (Bracket × Cursor) := do
  let first := c.pos
  let unlessEnd (c : Cursor) : Except PatternFlaw Cursor :=
    if c.atEnd then flawed (c.since first) .unclosedClass else .ok c
  let inner ← unlessEnd (c.step spaced)
  let negated := inner.beginsWith "^"
  let front ← if negated then unlessEnd (inner.step spaced) else .ok inner
  let dashes := if front.beginsWith "-" then front.left.length else 0
  let (items, after) ← readDashes spaced first dashes [] front
  if items.isEmpty && after.beginsWith "]" then
    let more ← unlessEnd (after.step spaced)
    let items := [.symbol (letterAt ']' after.sign)]
    return ({ first, stop := more.pos, negated, place := front.pos, items }, more)
  else return ({ first, stop := after.pos, negated, place := front.pos, items }, after)

/-- A character or a class between brackets. -/
def bracketSymbol (symbol : PatternSymbol) : Except PatternFlaw BracketTree :=
  match symbol with
  | .letter _ => .ok (.symbol symbol)
  | .brief _ _ _ => .ok (.symbol symbol)
  | .property _ _ => .ok (.symbol symbol)
  | _ => flawed symbol.stretch .escapeInClass

/-- An end of a range. -/
def rangeEnd (symbol : PatternSymbol) : Except PatternFlaw PatternLetter :=
  match symbol with
  | .letter l => .ok l
  | _ => flawed symbol.stretch .badRangeEnd

/-- Reads a character, a class or a range inside the bracket. -/
def readItem (spaced : Bool) (b : Bracket) (c : Cursor) : Except PatternFlaw (BracketTree × Cursor) := do
  let (symbol, after) ← readLetter spaced c
  let dash := after.skip spaced
  if dash.atEnd then b.unclosed
  else if !dash.beginsWith "-" || dash.second? spaced = some ']' || dash.second? spaced = some '-' then
    return (← bracketSymbol symbol, dash)
  else
    let second := dash.step spaced
    if second.atEnd then b.unclosed
    else
      let (other, after) ← readLetter spaced second
      let low ← rangeEnd symbol
      let high ← rangeEnd other
      if high.char < low.char then flawed ⟨low.stretch.first, high.stretch.stop⟩ .reversedRange
      else return (.range low high, after)

/-- Reads what stands between brackets to the end of the outermost one. The brackets are those that are open,
the innermost one apart. -/
def readBrackets (spaced : Bool) :
    Nat → Bracket → List Bracket → Cursor → Except PatternFlaw (PatternTree × Cursor)
  | 0, b, _, _ => b.unclosed
  | fuel + 1, b, around, c =>
    let here := c.skip spaced
    let joint (how : SetJoint) : Except PatternFlaw (PatternTree × Cursor) :=
      readBrackets spaced fuel (b.divide how (here.ahead 2).pos) around (here.ahead 2)
    match here.left with
    | [] => b.unclosed
    | ']' :: _ =>
      let stretch := here.next.since b.first
      match around with
      | [] => .ok (.bracket stretch b.negated b.content, here.next)
      | outer :: around =>
        readBrackets spaced fuel (outer.add (.bracket stretch b.negated b.content)) around here.next
    | '&' :: '&' :: _ => joint .both
    | '-' :: '-' :: _ => joint .without
    | '~' :: '~' :: _ => joint .differing
    | '[' :: _ =>
      match readNamed? here with
      | some (item, after) => readBrackets spaced fuel (b.add item) around after
      | none => do
        let (inner, after) ← openBracket spaced here
        readBrackets spaced fuel inner (b :: around) after
    | _ => do
      let (item, after) ← readItem spaced b here
      readBrackets spaced fuel (b.add item) around after

/-- Reads the brackets that are opened here, with fuel for all that is left. -/
def readBracket (fuel : Nat) (spaced : Bool) (c : Cursor) : Except PatternFlaw (PatternTree × Cursor) := do
  let (b, after) ← openBracket spaced c
  readBrackets spaced fuel b [] after

end Collectives.Text
