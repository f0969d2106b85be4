import Collectives.Text.Pattern.Tree

/-!
# Symbols of patterns

The smallest parts of a pattern's text: characters that stand for themselves, and escapes. A reader of an escape
is given where its backslash stands.
-/

namespace Collectives.Text

/-- A symbol, given where it is written. -/
abbrev SymbolAt := Stretch → PatternSymbol

/-- A character that an escape stands for. -/
def letterAt (c : Char) (s : Stretch) : PatternSymbol := .letter { char := c, stretch := s }

/-- Escapes with a sign of their own and nothing more. -/
def letterEscapes : List (Char × SymbolAt) :=
  [('d', (.brief · .digits false)), ('D', (.brief · .digits true)),
   ('s', (.brief · .blanks false)), ('S', (.brief · .blanks true)),
   ('w', (.brief · .wordChars false)), ('W', (.brief · .wordChars true)),
   ('a', letterAt '\x07'), ('f', letterAt '\x0c'), ('t', letterAt '\t'), ('n', letterAt '\n'),
   ('r', letterAt '\r'), ('v', letterAt '\x0b'),
   ('A', (.start · false)), ('z', (.stop · false)),
   ('B', (.word · .inner)), ('<', (.word · .start)), ('>', (.word · .stop))]

/-! ## Characters by number -/

/-- The value of a hexadecimal digit. -/
def hexValue? (c : Char) : Option Nat :=
  if c.isDigit then some (c.toNat - 48)
  else if 'a' ≤ c ∧ c ≤ 'f' then some (c.toNat - 87)
  else if 'A' ≤ c ∧ c ≤ 'F' then some (c.toNat - 55)
  else none

/-- The character with a number that is written in hexadecimal digits. -/
def hexChar? (digits : List Char) : Option Char :=
  let value := (digits.filterMap hexValue?).foldl (fun value digit => 16 * value + digit) 0
  if value.isValidChar then some (Char.ofNat value) else none

/-- Reads so many hexadecimal digits. -/
def readHexDigits (spaced : Bool) : Nat → Cursor → Except PatternFlaw (List Char × Cursor)
  | 0, c => .ok ([], c)
  | count + 1, c =>
    match c.left with
    | [] => flawed c.here .unfinishedEscape
    | d :: _ =>
      if (hexValue? d).isSome then do
        let (more, after) ← readHexDigits spaced count (c.step spaced)
        return (d :: more, after)
      else flawed c.sign .badHexDigit

/-- Reads a character by its number of so many digits. -/
def readFixedHex (spaced : Bool) (first count : Nat) (c : Cursor) :
    Except PatternFlaw (PatternSymbol × Cursor) := do
  let (digits, after) ← readHexDigits spaced count c
  match hexChar? digits with
  | some char => return (.letter { char, stretch := after.since first, byte := count == 2 }, after)
  | none => flawed (after.since c.pos) .badHex

/-- Reads a character by its number between braces. -/
def readBracedHex (spaced : Bool) (first : Nat) (c : Cursor) : Except PatternFlaw (PatternSymbol × Cursor) :=
  let (digits, brace) := (c.step spaced).gather spaced fun d => (hexValue? d).isSome
  let after := brace.step spaced
  if brace.atEnd then flawed (brace.since c.pos) .unfinishedEscape
  else if !brace.beginsWith "\x7d" then flawed brace.sign .badHexDigit
  else if digits.isEmpty then flawed (after.since c.pos) .emptyHex
  else
    match hexChar? digits with
    | some char => .ok (letterAt char (after.since first), after)
    | none => flawed (brace.since (c.pos + 1)) .badHex

/-- Reads a character by its number, after the letter that says how many digits there are. -/
def readHex (spaced : Bool) (first count : Nat) (c : Cursor) : Except PatternFlaw (PatternSymbol × Cursor) :=
  if c.atEnd then flawed c.here .unfinishedEscape
  else if c.beginsWith "\x7b" then readBracedHex spaced first c
  else readFixedHex spaced first count c

/-! ## Properties -/

/-- Reads the name of a property: one character, or any between braces. -/
def readProperty (spaced : Bool) (first : Nat) (c : Cursor) : Except PatternFlaw (PatternSymbol × Cursor) :=
  match c.left with
  | [] => flawed c.here .unfinishedEscape
  | '\x7b' :: _ =>
    let (name, brace) := (c.step spaced).gather spaced (· != '\x7d')
    if brace.atEnd then flawed brace.here .unfinishedEscape
    else .ok (.property (brace.next.since first) name, brace.next)
  | '\\' :: _ => flawed c.sign .badProperty
  | d :: _ => .ok (.property ((c.step spaced).since first) [d], c.step spaced)

/-! ## Places among words -/

/-- The names of places among words. -/
def wordPlaces : List (String × WordPlace) :=
  [("start", .start), ("end", .stop), ("start-half", .freeBefore), ("end-half", .freeAfter)]

/-- Reads the name of a place among words between braces, unless what is in the braces cannot be one. -/
def readWordPlace (spaced : Bool) (first : Nat) (c : Cursor) : Except PatternFlaw (PatternSymbol × Cursor) :=
  let isPart (d : Char) : Bool := d.isAlpha || d == '-'
  let start := c.step spaced
  let (name, brace) := start.gather spaced isPart
  if start.atEnd then flawed (start.since first) .wordPlaceOrCount
  else if name.isEmpty then .ok (.word (c.since first) .edge, c)
  else if !brace.beginsWith "\x7d" then flawed (brace.since c.pos) .unclosedWordPlace
  else
    match wordPlaces.lookup (String.ofList name) with
    | some place => .ok (.word (brace.next.since first) place, brace.next)
    | none => flawed (brace.since start.pos) .badWordPlace

/-! ## Escapes -/

/-- Whether a character stands for itself after a backslash. -/
def isEscapable (c : Char) : Bool := c.toNat < 128 && !c.isAlphanum

/-- Reads the escape whose backslash stands here. -/
def readEscape (spaced : Bool) (c : Cursor) : Except PatternFlaw (PatternSymbol × Cursor) :=
  let first := c.pos
  let letter := c.next
  let after := letter.next
  match letter.left with
  | [] => flawed (letter.since first) .unfinishedEscape
  | d :: _ =>
    let whole := after.since first
    match d, letterEscapes.lookup d with
    | 'x', _ => readHex spaced first 2 (letter.step spaced)
    | 'u', _ => readHex spaced first 4 (letter.step spaced)
    | 'U', _ => readHex spaced first 8 (letter.step spaced)
    | 'p', _ => readProperty spaced first (letter.step spaced)
    | 'P', _ => readProperty spaced first (letter.step spaced)
    | 'b', _ =>
      if after.beginsWith "\x7b" then readWordPlace spaced first after else .ok (.word whole .edge, after)
    | _, some symbol => .ok (symbol whole, after)
    | _, none =>
      if d.isDigit then flawed whole .backreference
      else if isEscapable d then .ok (letterAt d whole, after)
      else flawed whole .unknownEscape

/-- Reads a character that stands for itself or an escape. -/
def readLetter (spaced : Bool) (c : Cursor) : Except PatternFlaw (PatternSymbol × Cursor) :=
  match c.left with
  | [] => flawed c.here .unfinishedEscape
  | '\\' :: _ => readEscape spaced c
  | d :: _ => .ok (letterAt d c.sign, c.next)

/-- Reads a symbol outside of brackets. -/
def readSymbol (spaced : Bool) (c : Cursor) : Except PatternFlaw (PatternSymbol × Cursor) :=
  match c.left with
  | '.' :: _ => .ok (.dot c.sign, c.next)
  | '^' :: _ => .ok (.start c.sign true, c.next)
  | '$' :: _ => .ok (.stop c.sign true, c.next)
  | _ => readLetter spaced c

end Collectives.Text
