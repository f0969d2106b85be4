import Collectives.Text.CharSet

/-!
# Patterns

A pattern describes pieces of a text. The functions that put patterns together keep them plain: what stands in
a row or in a choice is never itself a row or a choice, neighbouring texts are one, and a repetition that
cannot do more than its piece is that piece. Patterns are alike only when they are written alike: whether a
repetition is eager, and whether a set is one of bytes, plays no part in which pieces there are, but it tells
patterns apart.
-/

namespace Collectives.Text

/-! ## Places between characters -/

/-- Of what an anchor marks the start or the end. -/
inductive Extent where
  /-- Of the whole text. -/
  | text
  /-- Of every line. -/
  | line
  /-- Of every line, where a carriage return ends a line, too. -/
  | returnedLine
  deriving DecidableEq, Repr

/-- What stands around a place among words. -/
inductive WordPlace where
  /-- A word begins or ends. -/
  | edge
  /-- No word begins or ends. -/
  | inner
  /-- A word begins. -/
  | start
  /-- A word ends. -/
  | stop
  /-- Nothing of a word stands before. -/
  | freeBefore
  /-- Nothing of a word stands after. -/
  | freeAfter
  deriving DecidableEq, Repr

/-- A kind of place in a text, between two characters. -/
inductive Anchor where
  /-- Before the first character. -/
  | start (of : Extent)
  /-- After the last character. -/
  | stop (of : Extent)
  /-- Among words, either of ASCII letters or of all. -/
  | word (place : WordPlace) (ascii : Bool)
  deriving DecidableEq, Repr

/-- Whether a character is one of a word. -/
def isWordChar (c : Option Char) : Bool := c.any CharSet.wordChars.has

/-- Whether a place is such a place among words, by the characters before it and after it. -/
def WordPlace.holds (before after : Option Char) : WordPlace → Bool
  | .edge => isWordChar before != isWordChar after
  | .inner => isWordChar before == isWordChar after
  | .start => !isWordChar before && isWordChar after
  | .stop => isWordChar before && !isWordChar after
  | .freeBefore => !isWordChar before
  | .freeAfter => !isWordChar after

/-- Whether a place is of a kind, by the characters before it and after it. -/
def Anchor.holds (before after : Option Char) : Anchor → Bool
  | .start .text => before.isNone
  | .start .line => before.isNone || before == some '\n'
  | .start .returnedLine => before.isNone || before == some '\n' || before == some '\r' && after != some '\n'
  | .stop .text => after.isNone
  | .stop .line => after.isNone || after == some '\n'
  | .stop .returnedLine => after.isNone || after == some '\r' || after == some '\n' && before != some '\r'
  | .word place _ => place.holds before after

/-! ## Patterns -/

/-- A description of pieces of a text. -/
inductive Pattern where
  /-- Nothing at all. -/
  | nothing
  /-- Some characters, one after the other. -/
  | text (chars : List Char)
  /-- One character of a set, which is read as a set of bytes or of characters. -/
  | char (set : CharSet) (bytes : Bool)
  /-- No character, at a place. -/
  | anchor (a : Anchor)
  /-- A piece that is remembered under a number. -/
  | capture (number : Nat) (p : Pattern)
  /-- One piece after the other. -/
  | seq (first rest : Pattern)
  /-- Either of two pieces. -/
  | alt (one others : Pattern)
  /-- At least so many pieces in a row, and at most so many where there is a limit. An eager repetition prefers
  many pieces to few. -/
  | repeated (p : Pattern) (least : Nat) (most : Option Nat) (eager : Bool)
  deriving DecidableEq, Repr

namespace Pattern

/-! ## In a row -/

/-- The pieces of a row. -/
def pieces : Pattern → List Pattern
  | .nothing => []
  | .seq p q => p :: q.pieces
  | p => [p]

/-- Puts a piece before a row; of two texts it makes one. -/
def before (p : Pattern) (row : List Pattern) : List Pattern :=
  match p, row with
  | .text a, .text b :: rest => .text (a ++ b) :: rest
  | _, _ => p :: row

/-- A row of pieces that stand as they are. -/
def ofPieces : List Pattern → Pattern
  | [] => .nothing
  | [p] => p
  | p :: rest => .seq p (ofPieces rest)

/-- Patterns in a row. -/
def row (ps : List Pattern) : Pattern := ofPieces ((ps.flatMap pieces).foldr before [])

/-! ## In a choice -/

/-- One character of a set; the only one of its set is a text. The empty set is one of bytes. -/
def ofSet (set : CharSet) (bytes : Bool) : Pattern :=
  match set.single? with
  | some c => .text [c]
  | none => .char set (bytes || set.isEmpty)

/-- The pieces of a choice. -/
def branches : Pattern → List Pattern
  | .alt p q => p :: q.branches
  | p => [p]

/-- A choice of pieces that stand as they are. -/
def ofBranches : List Pattern → Pattern
  | [] => .char .empty true
  | [p] => p
  | p :: rest => .alt p (ofBranches rest)

/-- The one character that a pattern describes. -/
def onlyChar? : Pattern → Option CharSet
  | .text [c] => some (.one c)
  | _ => none

/-- The set of characters that a pattern describes. -/
def charSet? : Pattern → Option CharSet
  | .char set _ => some set
  | _ => none

/-- The characters of all pieces of a choice, where each is one character or each is a set. -/
def commonSet? (ps : List Pattern) : Option CharSet :=
  ((ps.mapM onlyChar?).or (ps.mapM charSet?)).map CharSet.any

/-- A choice, which is a set where all its pieces are sets, too. -/
def joined (ps : List Pattern) : Pattern :=
  match ps.flatMap branches with
  | [p] => p
  | ps => ((commonSet? ps).map (ofSet · false)).getD (ofBranches ps)

/-- The pieces that two rows begin with alike. -/
def commonStart : List Pattern → List Pattern → List Pattern
  | p :: ps, q :: qs => if p = q then p :: commonStart ps qs else []
  | _, _ => []

/-- The pieces of a pattern that is a row of two at least. -/
def rowOf? : Pattern → Option (List Pattern)
  | .seq p q => some (p :: q.pieces)
  | _ => none

/-- Patterns to choose from. What rows begin with alike stands before the choice. -/
def oneOf (ps : List Pattern) : Pattern :=
  match joined ps with
  | .alt p q =>
    match (Pattern.alt p q).branches.mapM rowOf? with
    | some (first :: rows) =>
      let start := rows.foldl commonStart first
      if start.isEmpty then .alt p q
      else row (start ++ [joined ((first :: rows).map fun r => ofPieces (r.drop start.length))])
    | _ => .alt p q
  | p => p

/-! ## Repeated -/

/-- Whether a pattern describes places only. -/
def isPlace : Pattern → Bool
  | .nothing => true
  | .text _ => false
  | .char _ _ => false
  | .anchor _ => true
  | .capture _ p => p.isPlace
  | .seq p q => p.isPlace && q.isPlace
  | .alt p q => p.isPlace && q.isPlace
  | .repeated p _ _ _ => p.isPlace

/-- A pattern so many times. A place is found once or not at all. -/
def times (p : Pattern) (least : Nat) (most : Option Nat) (eager : Bool) : Pattern :=
  let (least, most) := if p.isPlace then (min least 1, some (min (most.getD 1) 1)) else (least, most)
  if most = some 0 then .nothing
  else if least = 1 ∧ most = some 1 then p
  else .repeated p least most eager

/-! ## What a pattern is like -/

/-- How few characters a piece can have, where that is known. -/
def shortest : Pattern → Option Nat
  | .nothing => some 0
  | .text chars => some chars.length
  | .char set _ => if set.isEmpty then none else some 1
  | .anchor _ => some 0
  | .capture _ p => p.shortest
  | .seq p q => do return (← p.shortest) + (← q.shortest)
  | .alt p q => do return min (← p.shortest) (← q.shortest)
  | .repeated p least _ _ => p.shortest.map (least * ·)

/-- Whether every piece begins at a place of the kind. -/
def beginsAt (a : Anchor) : Pattern → Bool
  | .anchor b => a == b
  | .capture _ p => p.beginsAt a
  | .seq p q => p.beginsAt a || p.isPlace && q.beginsAt a
  | .alt p q => p.beginsAt a && q.beginsAt a
  | .repeated p least _ _ => least != 0 && p.beginsAt a
  | _ => false

/-- Whether every piece ends at a place of the kind. -/
def endsAt (a : Anchor) : Pattern → Bool
  | .anchor b => a == b
  | .capture _ p => p.endsAt a
  | .seq p q => q.endsAt a || q.isPlace && p.endsAt a
  | .alt p q => p.endsAt a && q.endsAt a
  | .repeated p least _ _ => least != 0 && p.endsAt a
  | _ => false

/-- Whether words of more than ASCII letters play a part. -/
def asksWords : Pattern → Bool
  | .anchor (.word _ ascii) => !ascii
  | .capture _ p => p.asksWords
  | .seq p q => p.asksWords || q.asksWords
  | .alt p q => p.asksWords || q.asksWords
  | .repeated p _ _ _ => p.asksWords
  | _ => false

/-- Nothing is left of a piece that is repeated no times. -/
theorem times_zero (p : Pattern) (eager : Bool) : p.times 0 (some 0) eager = .nothing := by
  cases h : p.isPlace <;> simp [times, h]

/-- Texts in a row are one text. -/
example : row [.text ['a'], .nothing, .text ['b']] = .text ['a', 'b'] := by decide

/-- Single characters to choose from are a set. -/
example : oneOf [.text ['a'], .text ['b']] = .char (.range 'a' 'b') false := by decide

end Pattern

end Collectives.Text
