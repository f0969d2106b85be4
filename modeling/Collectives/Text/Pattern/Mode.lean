import Collectives.Text.Pattern
import Collectives.Text.Pattern.Cursor

/-!
# Modes of patterns

A pattern's text can switch, for what follows in the same group, how it is read.
-/

namespace Collectives.Text

/-- A switch: its letter, and whether it is put on or off. -/
structure PatternSwitch where
  /-- The letter. -/
  letter : Char
  /-- Whether it is put on. -/
  on : Bool
  deriving DecidableEq, Repr

/-- How a part of a pattern is read. -/
structure PatternMode where
  /-- Whether the other case of a letter will do too. -/
  anyCase : Bool := false
  /-- Whether every line has a start and an end. -/
  byLine : Bool := false
  /-- Whether a dot stands for line ends too. -/
  anyChar : Bool := false
  /-- Whether a carriage return ends a line, too. -/
  returns : Bool := false
  /-- Whether classes and cases are those of ASCII. -/
  ascii : Bool := false
  /-- Whether repetitions are eager when a question mark follows, and not without one. -/
  shy : Bool := false
  deriving DecidableEq, Repr

/-- The mode after a switch. Room is no part of the mode, since it plays its part in reading the text. -/
def PatternMode.switched (m : PatternMode) (s : PatternSwitch) : PatternMode :=
  match s.letter with
  | 'i' => { m with anyCase := s.on }
  | 'm' => { m with byLine := s.on }
  | 's' => { m with anyChar := s.on }
  | 'R' => { m with returns := s.on }
  | 'u' => { m with ascii := !s.on }
  | 'U' => { m with shy := s.on }
  | _ => m

/-- Of what the signs for starts and ends mark the start and the end. -/
def PatternMode.extent (m : PatternMode) : Extent :=
  if !m.byLine then .text else if m.returns then .returnedLine else .line

/-- What a dot stands for. -/
def PatternMode.dot (m : PatternMode) : CharSet :=
  if m.anyChar then .all
  else if m.returns then ((CharSet.one '\n').either (.one '\r')).other
  else (CharSet.one '\n').other

/-- The letters of switches. -/
def switchLetters : List Char := "imsUuRx".toList

/-- Whether the text of a pattern has room, after switches. -/
def spacedAfter (spaced : Bool) (switches : List PatternSwitch) : Bool :=
  ((switches.find? fun s => s.letter == 'x').map (·.on)).getD spaced

/-- Reads switches up to the sign that ends them, which is left. After a dash they are switched off; the letters
before, and the dash, are given with their places, the latest first. -/
def readSwitchesAfter (on : Bool) (before : List (Char × Stretch)) :
    Nat → List Char → Except PatternFlaw (List PatternSwitch × Cursor)
  | pos, [] => flawed ⟨pos, pos⟩ .unfinishedFlags
  | pos, c :: left =>
    let here : Stretch := ⟨pos, pos + 1⟩
    if c = ':' || c = ')' then
      match before with
      | ('-', dash) :: _ => flawed dash .danglingNegation
      | _ => .ok ([], ⟨pos, c :: left⟩)
    else if c != '-' && !switchLetters.contains c then flawed here .unknownFlag
    else
      match before.lookup c with
      | some first =>
        let fault : PatternFault := if c = '-' then .repeatedNegation else .repeatedFlag
        .error { stretch := here, fault, repeats := some first }
      | none => do
        let (more, after) ← readSwitchesAfter (on && c != '-') ((c, here) :: before) (pos + 1) left
        return (if c = '-' then more else ⟨c, on⟩ :: more, after)

/-- Reads the switches that stand here. -/
def readSwitches (c : Cursor) : PatternRead (List PatternSwitch) := readSwitchesAfter true [] c.pos c.left

end Collectives.Text
