import Collectives.Text.Pattern.Mode

/-!
# What the text of a pattern says

The text of a pattern is read as a tree, in which every part knows its stretch of the text. A tree says what was
written; what it describes depends on modes as well and is told later.
-/

namespace Collectives.Text

/-- A character that stands for itself. -/
structure PatternLetter where
  /-- The character. -/
  char : Char
  /-- Where it is written. -/
  stretch : Stretch
  /-- Whether it is written as the value of a byte. -/
  byte : Bool := false
  deriving DecidableEq, Repr

/-- The smallest parts of a pattern's text. -/
inductive PatternSymbol where
  /-- A character that stands for itself. -/
  | letter (l : PatternLetter)
  /-- The characters of a class with a letter of its own, or all others. -/
  | brief (s : Stretch) (set : CharSet) (negated : Bool)
  /-- The characters with a property. -/
  | property (s : Stretch) (name : List Char)
  /-- Any character. -/
  | dot (s : Stretch)
  /-- The start of the text, or of what the mode has starts. -/
  | start (s : Stretch) (byMode : Bool)
  /-- The end of the text, or of what the mode has ends. -/
  | stop (s : Stretch) (byMode : Bool)
  /-- A place among words. -/
  | word (s : Stretch) (place : WordPlace)
  deriving DecidableEq, Repr

/-- Where a symbol is written. -/
def PatternSymbol.stretch : PatternSymbol → Stretch
  | .letter l => l.stretch
  | .brief s _ _ => s
  | .property s _ => s
  | .dot s => s
  | .start s _ => s
  | .stop s _ => s
  | .word s _ => s

/-- What a pair of signs does with the sets on its sides. -/
inductive SetJoint where
  /-- Keeps what is in both. -/
  | both
  /-- Keeps what is in the first only. -/
  | without
  /-- Keeps what is in one only. -/
  | differing
  deriving DecidableEq, Repr

/-- What stands between brackets. -/
inductive BracketTree where
  /-- Nothing. -/
  | nothing (s : Stretch)
  /-- A character or a class. -/
  | symbol (symbol : PatternSymbol)
  /-- The characters between two, and these. -/
  | range (low high : PatternLetter)
  /-- A set with a name, or all other characters. -/
  | named (s : Stretch) (set : CharSet) (negated : Bool)
  /-- Brackets inside, which may stand for all other characters. -/
  | bracket (s : Stretch) (negated : Bool) (inner : BracketTree)
  /-- Several things. -/
  | union (s : Stretch) (items : List BracketTree)
  /-- Two sides of a pair of signs. -/
  | joint (s : Stretch) (how : SetJoint) (lhs rhs : BracketTree)

/-- Where a part of what stands between brackets is written. -/
def BracketTree.stretch : BracketTree → Stretch
  | .nothing s => s
  | .symbol sign => sign.stretch
  | .range low high => ⟨low.stretch.first, high.stretch.stop⟩
  | .named s _ _ => s
  | .bracket s _ _ => s
  | .union s _ => s
  | .joint s _ _ _ => s

/-- What a group is for. -/
inductive GroupKind where
  /-- To remember its piece under a number. -/
  | captured (number : Nat)
  /-- To be read in a mode of its own. -/
  | switched (switches : List PatternSwitch)
  deriving DecidableEq, Repr

/-- What the text of a pattern says. -/
inductive PatternTree where
  /-- Nothing. -/
  | nothing (s : Stretch)
  /-- Switches for what follows. -/
  | switch (s : Stretch) (switches : List PatternSwitch)
  /-- A symbol. -/
  | symbol (symbol : PatternSymbol)
  /-- Brackets, which may stand for all other characters. -/
  | bracket (s : Stretch) (negated : Bool) (inner : BracketTree)
  /-- A repetition, at least and at most so many times; a question mark after it asks for few pieces. -/
  | repeated (s : Stretch) (least : Nat) (most : Option Nat) (asksFew : Bool) (inner : PatternTree)
  /-- A group. -/
  | group (s : Stretch) (kind : GroupKind) (inner : PatternTree)
  /-- Several things in a row. -/
  | row (s : Stretch) (items : List PatternTree)
  /-- Several things to choose from. -/
  | choice (s : Stretch) (items : List PatternTree)

/-- Where a part of a pattern is written. -/
def PatternTree.stretch : PatternTree → Stretch
  | .nothing s => s
  | .switch s _ => s
  | .symbol sign => sign.stretch
  | .bracket s _ _ => s
  | .repeated s _ _ _ _ => s
  | .group s _ _ => s
  | .row s _ => s
  | .choice s _ => s

/-! ## Depth -/

mutual

/-- The first part, in the order of the text, that lies deeper than there is room for. -/
def BracketTree.tooDeep? (room : Nat) : BracketTree → Option Stretch
  | .bracket s _ inner => if room = 0 then some s else inner.tooDeep? (room - 1)
  | .union s items => if room = 0 then some s else BracketTree.anyTooDeep? (room - 1) items
  | .joint s _ lhs rhs =>
    if room = 0 then some s else (lhs.tooDeep? (room - 1)).or (rhs.tooDeep? (room - 1))
  | _ => none

/-- The first part of several things between brackets that lies too deep. -/
def BracketTree.anyTooDeep? (room : Nat) : List BracketTree → Option Stretch
  | [] => none
  | item :: more => (item.tooDeep? room).or (BracketTree.anyTooDeep? room more)

end

mutual

/-- The first part, in the order of the text, that lies deeper than there is room for. -/
def PatternTree.tooDeep? (room : Nat) : PatternTree → Option Stretch
  | .bracket s _ inner => if room = 0 then some s else inner.tooDeep? (room - 1)
  | .repeated s _ _ _ inner => if room = 0 then some s else inner.tooDeep? (room - 1)
  | .group s _ inner => if room = 0 then some s else inner.tooDeep? (room - 1)
  | .row s items => if room = 0 then some s else PatternTree.anyTooDeep? (room - 1) items
  | .choice s items => if room = 0 then some s else PatternTree.anyTooDeep? (room - 1) items
  | _ => none

/-- The first part of several things that lies too deep. -/
def PatternTree.anyTooDeep? (room : Nat) : List PatternTree → Option Stretch
  | [] => none
  | item :: more => (item.tooDeep? room).or (PatternTree.anyTooDeep? room more)

end

end Collectives.Text
