import Collectives.Text.Lines

/-!
# Flaws of patterns

A text may fail to describe a pattern. A flaw marks the characters at fault and says what is wrong with them;
its message shows the text with the marks below it. A text of several lines is shown between rulers, with the
lines numbered; what goes on from line to line is not marked but told.
-/

namespace Collectives.Text

/-- What is wrong with the text of a pattern. -/
inductive PatternFault where
  | unclosedGroup | unopenedGroup | lookAround | unclosedName | emptyName | badName | repeatedName
  | unknownFlag | repeatedFlag | repeatedNegation | danglingNegation | unfinishedFlags
  | nothingToRepeat | unclosedCount | badCount | wideCount | reversedCount
  | unfinishedEscape | unknownEscape | backreference | badHexDigit | emptyHex | badHex
  | unclosedWordPlace | badWordPlace | wordPlaceOrCount
  | unclosedClass | reversedRange | badRangeEnd | escapeInClass | tooDeep (limit : Nat)
  | badProperty | classUnavailable | propertyUnavailable | valueUnavailable | caseUnavailable
  | notText | notAscii
  deriving DecidableEq, Repr

/-- The words for a fault. -/
def PatternFault.message : PatternFault → String
  | .unclosedGroup => "unclosed group"
  | .unopenedGroup => "unopened group"
  | .lookAround => "look-around, including look-ahead and look-behind, is not supported"
  | .unclosedName => "unclosed capture group name"
  | .emptyName => "empty capture group name"
  | .badName => "invalid capture group character"
  | .repeatedName => "duplicate capture group name"
  | .unknownFlag => "unrecognized flag"
  | .repeatedFlag => "duplicate flag"
  | .repeatedNegation => "flag negation operator repeated"
  | .danglingNegation => "dangling flag negation operator"
  | .unfinishedFlags => "expected flag but got end of regex"
  | .nothingToRepeat => "repetition operator missing expression"
  | .unclosedCount => "unclosed counted repetition"
  | .badCount => "repetition quantifier expects a valid decimal"
  | .wideCount => "decimal literal invalid"
  | .reversedCount => "invalid repetition count range, the start must be <= the end"
  | .unfinishedEscape => "incomplete escape sequence, reached end of pattern prematurely"
  | .unknownEscape => "unrecognized escape sequence"
  | .backreference => "backreferences are not supported"
  | .badHexDigit => "invalid hexadecimal digit"
  | .emptyHex => "hexadecimal literal empty"
  | .badHex => "hexadecimal literal is not a Unicode scalar value"
  | .unclosedWordPlace =>
    "special word boundary assertion is either unclosed or contains an invalid character"
  | .badWordPlace =>
    "unrecognized special word boundary assertion, " ++
      "valid choices are: start, end, start-half or end-half"
  | .wordPlaceOrCount =>
    "found either the beginning of a special word boundary or a bounded repetition on a \\b " ++
      "with an opening brace, but no closing brace"
  | .unclosedClass => "unclosed character class"
  | .reversedRange => "invalid character class range, the start must be <= the end"
  | .badRangeEnd => "invalid range boundary, must be a literal"
  | .escapeInClass => "invalid escape sequence found in character class"
  | .tooDeep limit => s!"exceed the maximum number of nested parentheses/brackets ({limit})"
  | .badProperty => "invalid Unicode character class"
  | .classUnavailable =>
    "Unicode-aware Perl class not found (make sure the unicode-perl feature is enabled)"
  | .propertyUnavailable => "Unicode property not found"
  | .valueUnavailable => "Unicode property value not found"
  | .caseUnavailable =>
    "Unicode-aware case insensitivity matching is not available " ++
      "(make sure the unicode-case feature is enabled)"
  | .notText => "pattern can match invalid UTF-8"
  | .notAscii => "Unicode not allowed here"

/-- A stretch of a text. -/
structure Stretch where
  /-- How many characters stand before it. -/
  first : Nat
  /-- How many stand before what follows it. -/
  stop : Nat
  deriving DecidableEq, Repr

/-- A fault and the characters it is about. -/
structure PatternFlaw where
  /-- The characters at fault. -/
  stretch : Stretch
  /-- What is wrong. -/
  fault : PatternFault
  /-- What they repeat, if that is what is wrong. -/
  repeats : Option Stretch := none
  deriving DecidableEq, Repr

/-- Why a text is of no use as a pattern. -/
inductive Unusable where
  /-- The text has a flaw. -/
  | flawed (flaw : PatternFlaw)
  /-- Words are looked for among all characters. -/
  | words
  /-- What it describes is too large. -/
  | large
  deriving DecidableEq, Repr

/-! ## Lines and columns -/

/-- A place in a text of lines, counted from zero. -/
structure LinePlace where
  /-- How many lines end before it. -/
  line : Nat
  /-- How many characters stand before it in its line. -/
  column : Nat
  deriving DecidableEq, Repr

/-- The place after so many characters. -/
def linePlace (text : List Char) (count : Nat) : LinePlace :=
  let before := text.take count
  { line := before.count '\n', column := (before.reverse.takeWhile (· != '\n')).length }

/-- Where a stretch begins and where what follows it does. -/
def Stretch.within (text : List Char) (s : Stretch) : LinePlace × LinePlace :=
  (linePlace text s.first, linePlace text s.stop)

/-- The stretches that a flaw is about, in their order. -/
def PatternFlaw.stretches (f : PatternFlaw) (text : List Char) : List (LinePlace × LinePlace) :=
  (f.repeats.toList ++ [f.stretch]).map (Stretch.within text)

/-- Marks below the characters between two columns, at least one, after those that are there. -/
def marked (line : List Char) (stretch : LinePlace × LinePlace) : List Char :=
  let (first, stop) := stretch
  line ++ List.replicate (first.column - line.length) ' ' ++
    List.replicate (max 1 (stop.column - first.column)) '^'

/-- The marks below a line, if something in it is at fault. -/
def PatternFlaw.marks (f : PatternFlaw) (text : List Char) (line : Nat) : Option String :=
  match (f.stretches text).filter fun (first, stop) => first.line == line && stop.line == line with
  | [] => none
  | stretches => some (String.ofList (stretches.foldl marked []))

/-- What is told about a stretch that goes on from line to line. -/
def acrossLines : LinePlace × LinePlace → Option String
  | (first, stop) =>
    if first.line = stop.line then none
    else
      let start := s!"on line {first.line + 1} (column {first.column + 1})"
      some s!"{start} through line {stop.line + 1} (column {stop.column})"

/-! ## Messages -/

/-- The lines of a pattern as they are shown: a carriage return belongs to the line end after it. -/
def patternLines (text : List Char) : List String :=
  let lines := pieces (· == '\n') text
  let last := (lines.getLast?.filter (!·.isEmpty)).toList
  (lines.dropLast.map withoutReturn ++ last).map String.ofList

/-- The lines that show a pattern with marks below; each line has its number in front if there are several. -/
def PatternFlaw.shown (f : PatternFlaw) (text : List Char) : List String :=
  let width := (toString (text.count '\n' + 1)).length
  let indent (count : Nat) : String := String.ofList (List.replicate count ' ')
  let head (line : Nat) : String :=
    if text.contains '\n' then
      let number := toString (line + 1)
      indent (width - number.length) ++ number ++ ": "
    else indent 4
  (patternLines text).zipIdx.flatMap fun (shown, line) =>
    (head line ++ shown) :: ((f.marks text line).map fun marks => indent (head line).length ++ marks).toList

/-- The lines that say where a pattern is flawed. -/
def PatternFlaw.report (f : PatternFlaw) (text : List Char) : List String :=
  let ruler := String.ofList (List.replicate 79 '~')
  if text.contains '\n' then
    ruler :: f.shown text ++ ruler :: (f.stretches text).filterMap acrossLines
  else f.shown text

/-- The message about a text that is of no use as a pattern. -/
def Unusable.message (text : String) : Unusable → String
  | .flawed flaw =>
    let lines := "regex parse error:" :: flaw.report text.toList ++ [s!"error: {flaw.fault.message}"]
    "\n".intercalate lines
  | .words => "error building NFA"
  | .large => "Compiled regex exceeds size limit of 10485760 bytes."

/-- A mark stands below the character at fault. -/
example : (PatternFlaw.mk ⟨1, 2⟩ .unopenedGroup none).shown "a)".toList = ["    a)", "     ^"] := by decide

end Collectives.Text
