import Collectives.Text.Pattern

/-!
# Where patterns occur

The places of a text are the gaps before, between and after its characters. A pattern is read as leaps from
place to place: from where a piece begins to where it ends. Pieces in a row are leaps one after the other, a
choice has the leaps of all its pieces, and a repetition is a power. Since leaps never go back, more pieces than
there are places add nothing, so no count makes a power large.
-/

namespace Collectives.Text

/-- Leaps between the places of a text: for each place, the places that are reached, as the bits of a
number. -/
structure Leaps where
  /-- The places that are reached from each place, in order. -/
  rows : List Nat
  deriving DecidableEq, Repr

/-- The places that are reached from any of the given ones. -/
def landing : List Nat → Nat → Nat
  | [], _ => 0
  | row :: rows, places =>
    if places = 0 then 0 else (if places % 2 = 1 then row else 0) ||| landing rows (places / 2)

namespace Leaps

/-- Staying where one is, among so many places. -/
def stay (count : Nat) : Leaps := { rows := (List.range count).map (Nat.pow 2) }

/-- One leap, and then another. -/
def followedBy (a b : Leaps) : Leaps := { rows := a.rows.map (landing b.rows) }

/-- Either of two leaps. -/
def or (a b : Leaps) : Leaps := { rows := List.zipWith (· ||| ·) a.rows b.rows }

/-- So many leaps, one after the other. -/
def power (a : Leaps) (count : Nat) : Leaps :=
  if count = 0 then stay a.rows.length
  else
    let half := a.power (count / 2)
    let even := half.followedBy half
    if count % 2 = 1 then even.followedBy a else even
termination_by count
decreasing_by omega

/-- Whether a leap is possible anywhere. -/
def exist (a : Leaps) : Bool := a.rows.any (· != 0)

end Leaps

/-- Every place of a text: the character before it, and those after it. -/
def placesFrom (before : Option Char) : List Char → List (Option Char × List Char)
  | [] => [(before, [])]
  | c :: after => (before, c :: after) :: placesFrom (some c) after

/-- The leaps over so many characters as a piece has at each place, if there is one. -/
def Leaps.ofPieces (text : List Char) (piece : Option Char → List Char → Option Nat) : Leaps :=
  { rows := (placesFrom none text).zipIdx.map fun ((before, after), here) =>
      (piece before after).elim 0 fun size => Nat.pow 2 (here + size) }

namespace Pattern

/-- The leaps over the pieces that a pattern describes. -/
def leaps (text : List Char) : Pattern → Leaps
  | .nothing => .stay (text.length + 1)
  | .text chars => .ofPieces text fun _ after => if chars.isPrefixOf after then some chars.length else none
  | .char set _ => .ofPieces text fun _ after => if after.head?.any set.has then some 1 else none
  | .anchor a => .ofPieces text fun before after => if a.holds before after.head? then some 0 else none
  | .capture _ p => p.leaps text
  | .seq p q => (p.leaps text).followedBy (q.leaps text)
  | .alt p q => (p.leaps text).or (q.leaps text)
  | .repeated p least most _ =>
    let places := text.length + 1
    let once := p.leaps text
    let more := most.elim places fun most => min (most - least) places
    (once.power (min least places)).followedBy (((Leaps.stay places).or once).power more)

/-- Whether a piece of the text is as the pattern describes. -/
def occursIn (p : Pattern) (text : String) : Bool := (p.leaps text.toList).exist

/-- Nothing occurs everywhere. -/
theorem occursIn_nothing (text : String) : Pattern.nothing.occursIn text = true := by
  simp only [occursIn, leaps, Leaps.exist, Leaps.stay, List.any_map, List.any_eq_true, List.mem_range]
  exact ⟨0, by omega, rfl⟩

end Pattern

end Collectives.Text
