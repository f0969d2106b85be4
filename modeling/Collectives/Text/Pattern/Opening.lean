import Collectives.Text.Pattern
import Collectives.Text.Utf8

/-!
# What pieces begin with

A pattern's openings are the bytes that its pieces begin with, as far as they are few and short. An opening
that is a whole piece leaves nothing to be checked. `Pattern.isFewTexts` says when all openings that are worth
looking for are whole: then the pattern is a choice of a few texts, and no automaton is needed to look for it,
however much else was written that no text can be a piece of.
-/

namespace Collectives.Text

/-- What a piece begins with. -/
structure Opening where
  /-- The bytes. -/
  bytes : List Nat
  /-- Whether the piece ends with them. -/
  whole : Bool
  deriving DecidableEq, Repr

/-- The openings of all pieces, the preferred ones first, or nothing where there are too many to tell. -/
abbrev Openings := Option (List Opening)

/-- How many openings are told at most. -/
def mostOpenings : Nat := 250

/-- How many bytes an opening has at most. -/
def longestOpening : Nat := 100

/-- How many characters of a set are openings at most, and how many times a repetition is followed. -/
def mostChances : Nat := 10

namespace Opening

/-- The opening of a piece that has no bytes. -/
def nothing : Opening := { bytes := [], whole := true }

/-- An opening whose piece may go on. -/
def unfinished (o : Opening) : Opening := { o with whole := false }

/-- No more than so many bytes of an opening. -/
def cut (count : Nat) (o : Opening) : Opening :=
  if count < o.bytes.length then { bytes := o.bytes.take count, whole := false } else o

/-- A cut opening begins as before. -/
theorem bytes_cut (count : Nat) (o : Opening) : (o.cut count).bytes = o.bytes.take count := by
  unfold cut
  split
  · rfl
  · next h => exact (List.take_of_length_le (Nat.le_of_not_lt h)).symm

/-- An opening, and what follows when it is a whole piece. -/
def followedBy (o : Opening) (others : List Opening) : List Opening :=
  if o.whole then others.map fun p => { p with bytes := o.bytes ++ p.bytes } else [o]

/-- Openings where those that are alike and next to each other are one. -/
def merged : List Opening → List Opening
  | [] => []
  | o :: others =>
    match merged others with
    | [] => [o]
    | p :: more =>
      if o.bytes = p.bytes then { o with whole := o.whole && p.whole } :: more else o :: p :: more

/-- Openings without those that an earlier one begins. -/
def distinct (os : List Opening) : List Opening :=
  os.foldl (fun kept o => if kept.any (·.bytes.isPrefixOf o.bytes) then kept else kept ++ [o]) []

/-- The bytes that two lists begin with alike. -/
def commonBytes : List Nat → List Nat → List Nat
  | a :: as, b :: bs => if a = b then a :: commonBytes as bs else []
  | _, _ => []

/-- The bytes that all openings begin with. -/
def commonStart : List Opening → List Nat
  | [] => []
  | o :: others => others.foldl (fun start p => commonBytes start p.bytes) o.bytes

end Opening

namespace Openings

/-- Whether no opening is a whole piece, so that nothing that follows is part of one. -/
def areClosed (os : Openings) : Bool := os.all fun os => os.all fun o => !o.whole

/-- Openings of pieces that may go on. -/
def unfinished (os : Openings) : Openings := os.map fun os => os.map Opening.unfinished

/-- The openings of one piece after the other. -/
def followedBy (a b : Openings) : Openings :=
  a.bind fun as =>
    match b.filter fun bs => as.length * bs.length ≤ mostOpenings with
    | none => if as.any (·.bytes.isEmpty) then none else some (as.map Opening.unfinished)
    | some bs => some ((Opening.merged (as.flatMap (·.followedBy bs))).map (Opening.cut longestOpening))

/-- The openings of either of two pieces. -/
def either (a b : Openings) : Openings :=
  match a, b with
  | some as, some bs =>
    let few (as bs : List Opening) : Bool := as.length + bs.length ≤ mostOpenings
    let short (os : List Opening) : List Opening := Opening.merged (os.map (Opening.cut 4))
    if few as bs then some (Opening.merged (as ++ bs))
    else if few (short as) (short bs) then some (Opening.merged (short as ++ short bs))
    else none
  | _, _ => none

/-- The openings of pieces in a row, up to where they are closed. -/
def ofRow (row : List Openings) : Openings :=
  row.foldl (fun os more => if os.areClosed then os else os.followedBy more) (some [.nothing])

/-- The openings of pieces to choose from. -/
def ofChoice (choice : List Openings) : Openings := choice.foldl either (some [])

/-- The openings of a set of characters. -/
def ofSet (set : CharSet) : Openings :=
  if set.ranges.foldl (fun count r => count + (r.2 + 1 - r.1)) 0 ≤ mostChances then
    some (set.ranges.flatMap fun r =>
      (List.range' r.1 (r.2 + 1 - r.1)).map fun code => { bytes := utf8Bytes code, whole := true })
  else none

/-- The openings of a repetition. -/
def repeated (os : Openings) (least : Nat) (most : Option Nat) (eager : Bool) : Openings :=
  if least = 0 then
    let once := if most = some 1 then os else os.unfinished
    let skipped : Openings := some [.nothing]
    if eager then once.either skipped else skipped.either once
  else
    let row := (List.range (min least mostChances)).foldl
      (fun (row : Openings) _ => if row.areClosed then row else row.followedBy os) (some [.nothing])
    if most = some least ∧ least ≤ mostChances then row else row.unfinished

end Openings

/-! ## Openings of patterns -/

/-- The openings of what a pattern is made of. -/
inductive PartOpenings where
  /-- Of a piece that is made of nothing else. -/
  | piece (os : Openings)
  /-- Of pieces in a row. -/
  | row (parts : List Openings)
  /-- Of pieces to choose from. -/
  | choice (parts : List Openings)

namespace PartOpenings

/-- The openings of a pattern as a whole. -/
def all : PartOpenings → Openings
  | .piece os => os
  | .row parts => .ofRow parts
  | .choice parts => .ofChoice parts

/-- The openings of the pieces in a row. -/
def inRow : PartOpenings → List Openings
  | .row parts => parts
  | parts => [parts.all]

/-- The openings of the pieces to choose from. -/
def inChoice : PartOpenings → List Openings
  | .choice parts => parts
  | parts => [parts.all]

end PartOpenings

/-- The openings of what a pattern is made of. -/
def Pattern.partOpenings : Pattern → PartOpenings
  | .nothing => .piece (some [.nothing])
  | .text chars =>
    let bytes := chars.flatMap fun c => utf8Bytes c.toNat
    .piece (some [({ bytes, whole := true } : Opening).cut longestOpening])
  | .char set _ => .piece (.ofSet set)
  | .anchor _ => .piece (some [.nothing])
  | .capture _ p => .piece p.partOpenings.all
  | .seq p q => .row (p.partOpenings.all :: q.partOpenings.inRow)
  | .alt p q => .choice (p.partOpenings.all :: q.partOpenings.inChoice)
  | .repeated p least most eager => .piece (p.partOpenings.all.repeated least most eager)

/-! ## Openings that are worth looking for -/

/-- The ASCII characters that texts are full of. -/
def commonChars : List Char := "\n\r (),-./0129:_abcdefghilmnoprstuvxy|".toList

/-- Whether texts are full of a byte that a character begins with. -/
def isCommonByte (byte : Nat) : Bool := 128 ≤ byte || commonChars.any (·.toNat == byte)

/-- To how many bytes openings are cut when there are more than so many, step by step. -/
def openingCuts : List (Nat × Nat) := [(5, 10), (4, 10), (3, 64), (2, 64), (1, 10)]

/-- Openings that are cut step by step until they are few enough. -/
def shortened : List (Nat × Nat) → List Opening → List Opening
  | [], os => os
  | (count, enough) :: cuts, os =>
    if os.length ≤ enough then os else shortened cuts (Opening.distinct (os.map (Opening.cut count)))

/-- The openings that are looked for. Those that begin with the same rare byte are looked for by that byte, and
others by what they begin with alike when that is long. Many are cut, unless they would be too short or
still too many. -/
def soughtOpenings (all : List Opening) : List Opening :=
  let os := Opening.distinct all
  let start := Opening.commonStart os
  let cutTo (count : Nat) : List Opening := Opening.merged (os.map (Opening.cut count))
  if 1 < all.length ∧ start.length ≤ 3 ∧ start.head?.any (!isCommonByte ·) then cutTo 1
  else
    let few := os.all (·.whole) && os.length ≤ 16
    let os := if 4 < start.length ∨ 1 < start.length ∧ !few then cutTo start.length else os
    let short := shortened openingCuts os
    if short.length ≤ 64 ∧ short.all (3 ≤ ·.bytes.length) then short else os

/-- Whether a pattern remembers no piece and asks for no place. -/
def Pattern.isTextOnly : Pattern → Bool
  | .anchor _ => false
  | .capture _ _ => false
  | .seq p q => p.isTextOnly && q.isTextOnly
  | .alt p q => p.isTextOnly && q.isTextOnly
  | .repeated p _ _ _ => p.isTextOnly
  | _ => true

/-- Whether a pattern is a choice of a few texts, which are looked for as they are. -/
def Pattern.isFewTexts (p : Pattern) : Bool :=
  p.isTextOnly &&
    match Openings.ofChoice [p.partOpenings.all] with
    | none => false
    | some all =>
      !all.any (·.bytes.isEmpty) &&
        let sought := soughtOpenings all
        !sought.isEmpty && sought.all (·.whole)

/-- A text beside something that no text is a piece of. -/
example : (Pattern.alt (.text ['a']) (.repeated (.char .empty true) 9000000 (some 9000000) true)).isFewTexts =
    true := by decide +kernel

end Collectives.Text
