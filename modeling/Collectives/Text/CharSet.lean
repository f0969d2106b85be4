/-!
# Sets of characters

A set of characters is kept as the stretches of code points that make it up, in rising order and with a gap
between any two. Every operation builds such stretches, and `has` asks them. The code points between 0xD7FF and
0xE000 belong to no character: a stretch can run across them, but it neither begins nor ends there.
-/

namespace Collectives.Text

/-- A set of characters. -/
structure CharSet where
  /-- Its stretches: the first code point of each, and the last. -/
  ranges : List (Nat × Nat) := []
  deriving DecidableEq, Repr

/-- Puts a stretch among others in rising order, and joins those that meet it. -/
def insertRange (first last : Nat) : List (Nat × Nat) → List (Nat × Nat)
  | [] => [(first, last)]
  | (f, l) :: rest =>
    if last + 1 < f then (first, last) :: (f, l) :: rest
    else if l + 1 < first then (f, l) :: insertRange first last rest
    else insertRange (min first f) (max last l) rest

/-- Puts stretches in rising order and joins those that meet. -/
def joinedRanges (ranges : List (Nat × Nat)) : List (Nat × Nat) :=
  ranges.foldr (fun r rs => insertRange r.1 r.2 rs) []

/-- The code point of the next character. -/
def codeAfter (code : Nat) : Nat := if code = 0xD7FF then 0xE000 else code + 1

/-- The code point of the character before. -/
def codeBefore (code : Nat) : Nat := if code = 0xE000 then 0xD7FF else code - 1

/-- The stretches after a code point that lie between the given ones. Where one stretch ends at 0xD7FF and the
next begins at 0xE000 there is no character between them, and what runs from the one's next character to the
other's character before is these two, with what is between. -/
def gapsAfter (last : Nat) : List (Nat × Nat) → List (Nat × Nat)
  | [] => if last < 0x10FFFF then [(codeAfter last, 0x10FFFF)] else []
  | (f, l) :: rest =>
    let next := codeAfter last
    let before := codeBefore f
    (min next before, max next before) :: gapsAfter l rest

/-- The stretches that the given ones leave out. -/
def otherRanges : List (Nat × Nat) → List (Nat × Nat)
  | [] => [(0, 0x10FFFF)]
  | (f, l) :: rest =>
    if 0 < f then (0, codeBefore f) :: gapsAfter l rest else gapsAfter l rest

/-- What a stretch has in common with others. -/
def commonRanges (first last : Nat) (others : List (Nat × Nat)) : List (Nat × Nat) :=
  others.filterMap fun r =>
    if max first r.1 ≤ min last r.2 then some (max first r.1, min last r.2) else none

/-- What is left of a stretch without others in rising order. -/
def remainingRanges (first last : Nat) : List (Nat × Nat) → List (Nat × Nat)
  | [] => [(first, last)]
  | (f, l) :: rest =>
    if l < first then remainingRanges first last rest
    else if last < f then [(first, last)]
    else
      let after := if l < last then remainingRanges (codeAfter l) last rest else []
      if first < f then (first, codeBefore f) :: after else after

/-- Whether one of the stretches has a code point. -/
def inRanges (code : Nat) (ranges : List (Nat × Nat)) : Bool :=
  ranges.any fun r => r.1 ≤ code && code ≤ r.2

namespace CharSet

/-- The set without characters. -/
def empty : CharSet := {}

/-- Whether a character is in the set. -/
def has (a : CharSet) (c : Char) : Bool := inRanges c.toNat a.ranges

/-- The characters from the first to the last. -/
def range (first last : Char) : CharSet :=
  { ranges := if first ≤ last then [(first.toNat, last.toNat)] else [] }

/-- The set of one character. -/
def one (c : Char) : CharSet := range c c

/-- The characters in either set. -/
def either (a b : CharSet) : CharSet := { ranges := joinedRanges (a.ranges ++ b.ranges) }

/-- The characters in any of the sets. -/
def any (sets : List CharSet) : CharSet := { ranges := joinedRanges (sets.flatMap ranges) }

/-- The characters that are not in the set. -/
def other (a : CharSet) : CharSet := { ranges := otherRanges a.ranges }

/-- The characters in both sets. -/
def both (a b : CharSet) : CharSet :=
  { ranges := a.ranges.flatMap fun r => commonRanges r.1 r.2 b.ranges }

/-- The characters in the first set only. -/
def without (a b : CharSet) : CharSet :=
  { ranges := a.ranges.flatMap fun r => remainingRanges r.1 r.2 b.ranges }

/-- The characters in one of two sets but not in the other. -/
def differing (a b : CharSet) : CharSet := (a.either b).without (a.both b)

/-- Whether no character is in the set. -/
def isEmpty (a : CharSet) : Bool := a.ranges.isEmpty

/-- Whether all characters are of ASCII. -/
def isAscii (a : CharSet) : Bool := a.ranges.all fun r => r.2 < 128

/-- The character of a set that has only one. -/
def single? (a : CharSet) : Option Char :=
  match a.ranges with
  | [(first, last)] => if first = last then some (Char.ofNat first) else none
  | _ => none

/-! ## Sets with a name -/

/-- The decimal digits. -/
def digits : CharSet := range '0' '9'

/-- The letters of one case. -/
def lower : CharSet := range 'a' 'z'

/-- The letters of the other case. -/
def upper : CharSet := range 'A' 'Z'

/-- The letters. -/
def letters : CharSet := lower.either upper

/-- The characters of words. -/
def wordChars : CharSet := any [digits, letters, one '_']

/-- The ASCII blanks. -/
def blanks : CharSet := (range '\t' '\r').either (one ' ')

/-- Every character. -/
def all : CharSet := empty.other

/-- The set with the other case of each of its ASCII letters. -/
def anyCase (a : CharSet) : CharSet :=
  let raised : CharSet := { ranges := (a.both lower).ranges.map fun r => (r.1 - 32, r.2 - 32) }
  let lowered : CharSet := { ranges := (a.both upper).ranges.map fun r => (r.1 + 32, r.2 + 32) }
  (a.either raised).either lowered

/-- The empty set has no character. -/
@[simp] theorem has_empty (c : Char) : empty.has c = false := rfl

/-- A character is in the set of one character when it is that one. -/
theorem has_one_iff (a c : Char) : (one a).has c = true ↔ c = a := by
  simp only [one, range, Char.le_refl, if_true, has, inRanges, List.any_cons, List.any_nil, Bool.or_false,
    Bool.and_eq_true, decide_eq_true_eq]
  constructor
  · intro h
    exact Char.toNat_inj.mp (Nat.le_antisymm h.2 h.1)
  · rintro rfl
    exact ⟨Nat.le_refl _, Nat.le_refl _⟩

/-- A character is in both sets when it is in each. -/
theorem has_both (a b : CharSet) (c : Char) : (a.both b).has c = (a.has c && b.has c) := by
  rw [Bool.eq_iff_iff]
  simp only [has, both, commonRanges, inRanges, List.any_eq_true, List.mem_flatMap, List.mem_filterMap,
    Bool.and_eq_true, decide_eq_true_eq, Option.ite_none_right_eq_some, Option.some.injEq]
  constructor
  · rintro ⟨r, ⟨s, hs, t, ht, _, rfl⟩, hc⟩
    exact ⟨⟨s, hs, by omega⟩, ⟨t, ht, by omega⟩⟩
  · rintro ⟨⟨s, hs, h₁⟩, ⟨t, ht, h₂⟩⟩
    exact ⟨_, ⟨s, hs, t, ht, by omega, rfl⟩, by omega⟩

/-- Without the characters around a gap there are the two that the gap lies between, and nothing else. -/
example : ({ ranges := [(0, 0xD7FF), (0xE000, 0x10FFFF)] } : CharSet).other =
    { ranges := [(0xD7FF, 0xE000)] } := by decide

/-- A letter brings its other case. -/
example : (one 'k').anyCase = (one 'K').either (one 'k') := by decide

end CharSet

end Collectives.Text
