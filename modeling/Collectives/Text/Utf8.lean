import Collectives.Text.CharSet

/-!
# Sets of characters as bytes

The characters between two code points are written in UTF-8 as a few forms, each with one stretch of values for
every byte: the first byte is in the first stretch, the second in the second, and so on. `byteForms` finds them,
in rising order, by cutting the code points where the number of bytes changes and where the last bytes do not
run full.
-/

namespace Collectives.Text

/-- A stretch of byte values: the first and the last. -/
abbrev ByteRange := Nat × Nat

/-- The bytes of a code point in UTF-8. -/
def utf8Bytes (code : Nat) : List Nat :=
  if code < 0x80 then [code]
  else if code < 0x800 then [0xC0 + code / 0x40, 0x80 + code % 0x40]
  else if code < 0x10000 then [0xE0 + code / 0x1000, 0x80 + code / 0x40 % 0x40, 0x80 + code % 0x40]
  else [0xF0 + code / 0x40000, 0x80 + code / 0x1000 % 0x40, 0x80 + code / 0x40 % 0x40, 0x80 + code % 0x40]

/-- Where a stretch of code points is cut because the number of bytes changes, or because some are left out. -/
def lengthCut? (first last : Nat) : Option (Nat × Nat) :=
  if first < 0xE000 ∧ 0xD7FF < last then some (0xD7FF, 0xE000)
  else ([0x7F, 0x7FF, 0xFFFF].find? fun top => first ≤ top && top < last).map fun top => (top, top + 1)

/-- Where a stretch of code points is cut because so many values of the last bytes do not run full. -/
def blockCut? (first last block : Nat) : Option (Nat × Nat) :=
  if first / block = last / block then none
  else if first % block ≠ 0 then
    let next := (first / block + 1) * block
    some (next - 1, next)
  else if last % block ≠ block - 1 then
    let next := last / block * block
    some (next - 1, next)
  else none

/-- Where a stretch of code points is cut: the end of the one part, and the start of the other. -/
def cut? (first last : Nat) : Option (Nat × Nat) :=
  match lengthCut? first last with
  | some cut => some cut
  | none => if last < 0x80 then none else [0x40, 0x1000, 0x40000].findSome? (blockCut? first last)

/-- The forms of the code points between two, with fuel for the cuts. -/
def byteFormsWithin : Nat → Nat → Nat → List (List ByteRange)
  | 0, _, _ => []
  | fuel + 1, first, last =>
    if last < first then []
    else
      match cut? first last with
      | some (stop, next) => byteFormsWithin fuel first stop ++ byteFormsWithin fuel next last
      | none => [(utf8Bytes first).zip (utf8Bytes last)]

/-- The forms of the code points between two; a dozen cuts make a stretch simple. -/
def byteForms (first last : Nat) : List (List ByteRange) := byteFormsWithin 64 first last

/-- The forms of the characters of a set. -/
def CharSet.byteForms (a : CharSet) : List (List ByteRange) :=
  a.ranges.flatMap fun r => Text.byteForms r.1 r.2

/-- Forms of two bytes. -/
example : byteForms 0x80 0x7FF = [[(0xC2, 0xDF), (0x80, 0xBF)]] := by decide

/-- All characters have nine forms. -/
example : (byteForms 0 0x10FFFF).length = 9 := by decide +kernel

/-- A code point has one byte at least, and four at most. -/
theorem length_utf8Bytes (code : Nat) : 1 ≤ (utf8Bytes code).length ∧ (utf8Bytes code).length ≤ 4 := by
  unfold utf8Bytes
  split
  · simp
  · split
    · simp
    · split <;> simp

end Collectives.Text
