import Collectives.Text.Blank
import Collectives.Text.Pattern.Flaw

/-!
# Reading along the text of a pattern

A cursor is a place in a text with what is left after it. Where a pattern is written with room, blanks and
comments stand between its signs, and a step over a character passes over them, too.
-/

namespace Collectives.Text

/-- A place in a text that is being read. -/
structure Cursor where
  /-- How many characters stand before it. -/
  pos : Nat
  /-- The characters after it. -/
  left : List Char
  deriving DecidableEq, Repr

/-- Passes over blanks, and over comments, which begin with a hash and end with their line. -/
def passRoom (inComment : Bool) (pos : Nat) : List Char → Cursor
  | [] => ⟨pos, []⟩
  | c :: left =>
    if inComment then passRoom (c != '\n') (pos + 1) left
    else if isBlank c then passRoom false (pos + 1) left
    else if c == '#' then passRoom true (pos + 1) left
    else ⟨pos, c :: left⟩

namespace Cursor

/-- The start of a text. -/
def start (text : List Char) : Cursor := ⟨0, text⟩

/-- Whether nothing is left. -/
def atEnd (c : Cursor) : Bool := c.left.isEmpty

/-- After so many characters. -/
def ahead (c : Cursor) (count : Nat) : Cursor := ⟨c.pos + (c.left.take count).length, c.left.drop count⟩

/-- After the next character. -/
def next (c : Cursor) : Cursor := c.ahead 1

/-- After blanks and comments, in a pattern with room. -/
def skip (c : Cursor) (spaced : Bool) : Cursor := if spaced then passRoom false c.pos c.left else c

/-- After the next character, and after blanks and comments in a pattern with room. -/
def step (c : Cursor) (spaced : Bool) : Cursor := c.next.skip spaced

/-- The stretch of no characters here. -/
def here (c : Cursor) : Stretch := ⟨c.pos, c.pos⟩

/-- The stretch of the next character. -/
def sign (c : Cursor) : Stretch := ⟨c.pos, c.pos + 1⟩

/-- The stretch from an earlier place to here. -/
def since (c : Cursor) (first : Nat) : Stretch := ⟨first, c.pos⟩

/-- Whether the text goes on with some characters. -/
def beginsWith (c : Cursor) (text : String) : Bool := text.toList.isPrefixOf c.left

/-- The character after the next one. With room it is looked for behind blanks and behind the hash of a comment,
though not behind its line. -/
def second? (c : Cursor) (spaced : Bool) : Option Char :=
  let rest := c.left.drop 1
  if spaced then
    match rest.filter (!isBlank ·) with
    | '#' :: d :: _ => some d
    | ['#'] => rest.head?
    | d :: _ => some d
    | [] => rest.head?
  else rest.head?

/-- Reads characters of a kind from a place on. In room, which is entered after each of them, blanks and
comments are passed over. -/
def gatherFrom (spaced : Bool) (ok : Char → Bool) (inRoom inComment : Bool) (pos : Nat) :
    List Char → List Char × Cursor
  | [] => ([], ⟨pos, []⟩)
  | d :: left =>
    if inRoom && inComment then gatherFrom spaced ok true (d != '\n') (pos + 1) left
    else if inRoom && (isBlank d || d == '#') then gatherFrom spaced ok true (d == '#') (pos + 1) left
    else if ok d then
      let (more, c) := gatherFrom spaced ok spaced false (pos + 1) left
      (d :: more, c)
    else ([], ⟨pos, d :: left⟩)

/-- Reads the characters of a kind that stand here, and gives the place after them. -/
def gather (c : Cursor) (spaced : Bool) (ok : Char → Bool) : List Char × Cursor :=
  gatherFrom spaced ok false false c.pos c.left

end Cursor

/-- What a reader answers: what it read and where it ended, or the flaw that it met. -/
abbrev PatternRead (α : Type) := Except PatternFlaw (α × Cursor)

/-- Fails with a fault of some characters. -/
def flawed {α : Type} (stretch : Stretch) (fault : PatternFault) : Except PatternFlaw α :=
  .error { stretch, fault }

end Collectives.Text
