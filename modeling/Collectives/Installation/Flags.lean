import Collectives.Text.Blank

/-!
# Compile and link flags

Flags are words that begin with two characters for their kind. Two programs report them. A compiler wrapper
prints the command it would run: its words stand between blanks, and a bare flag has an empty value. The
package tool prints flags with blanks and backslashes escaped; a bare flag says nothing there, and some long
flags take the next word as their value.
-/

namespace Collectives.Installation

/-- What is needed to compile and link against an installation. -/
structure Flags where
  /-- Directories of headers. -/
  includes : List String := []
  /-- Directories of libraries. -/
  libraryDirs : List String := []
  /-- Libraries. -/
  libraries : List String := []
  deriving DecidableEq, Repr

/-- The flags after one more word; a word of any other kind changes nothing. -/
def Flags.add (f : Flags) : List Char → Flags
  | '-' :: 'I' :: dir => { f with includes := f.includes ++ [String.ofList dir] }
  | '-' :: 'L' :: dir => { f with libraryDirs := f.libraryDirs ++ [String.ofList dir] }
  | '-' :: 'l' :: name => { f with libraries := f.libraries ++ [String.ofList name] }
  | _ => f

/-- The flags of a list of words. -/
def Flags.ofWords (ws : List (List Char)) : Flags := ws.foldl Flags.add {}

/-- The library to link when a wrapper names none. -/
def defaultLibrary : String := "mpi"

/-- The flags in the command that a compiler wrapper prints. -/
def Flags.ofCommand (command : String) : Flags :=
  let f := Flags.ofWords (Text.words command.toList)
  if f.libraries.isEmpty then { f with libraries := [defaultLibrary] } else f

/-- Whether a character ends a word of the package tool. -/
def isSeparator (c : Char) : Bool := c == ' ' || c == '\t' || c == '\n' || c == '\r'

/-- The words of the package tool: a backslash keeps the character after it. The word so far is given. -/
def escapedWords (word : List Char) : List Char → List (List Char)
  | [] => if word.isEmpty then [] else [word]
  | '\\' :: c :: cs => escapedWords (word ++ [c]) cs
  | ['\\'] => if word.isEmpty then [] else [word]
  | c :: cs =>
    if isSeparator c then
      if word.isEmpty then escapedWords [] cs else word :: escapedWords [] cs
    else escapedWords (word ++ [c]) cs

/-- A word for the linker is a row of words between commas. -/
def linkerParts (word : List Char) : List (List Char) :=
  match word with
  | '-' :: 'W' :: 'l' :: ',' :: rest => Text.pieces (· == ',') rest
  | _ => [word]

/-- Long flags whose value is a directory of headers. -/
def includeFlags : List String := ["-isystem", "-iquote", "-idirafter"]

/-- Long flags whose value is of no concern here. -/
def otherFlags : List String := ["-framework", "-undefined", "--undefined"]

/-- The directories of headers that long flags name. -/
def longIncludes : List String → List String
  | flag :: value :: rest =>
    if includeFlags.contains flag then value :: longIncludes rest
    else if otherFlags.contains flag then longIncludes rest
    else longIncludes (value :: rest)
  | _ => []

/-- The number of bytes of a word. -/
def byteCount (word : List Char) : Nat := word.foldl (fun count c => count + c.utf8Size) 0

/-- Whether the first two bytes of a longer word are whole characters. -/
def hasKind : List Char → Bool
  | c :: d :: _ => c.utf8Size == 2 || (c.utf8Size == 1 && d.utf8Size == 1)
  | _ => false

/-- The flags in what the package tool prints. A flag has more than the two bytes for its kind, and nothing
can be read where these two cut a character. -/
def Flags.ofPackage (printed : String) : Option Flags :=
  let ws := escapedWords [] printed.toList
  let flags := ws.filter fun w => 2 < byteCount w
  if flags.all hasKind then
    let f := Flags.ofWords flags
    let long := longIncludes ((ws.flatMap linkerParts).map String.ofList)
    some { f with includes := f.includes ++ long }
  else none

end Collectives.Installation
