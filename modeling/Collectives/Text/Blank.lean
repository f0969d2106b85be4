/-!
# Blank characters and plain case

Settings are read after blanks at both ends are dropped. A blank is a character with the `White_Space`
property; case is folded for ASCII letters only.
-/

namespace Collectives.Text

/-- Code points with the `White_Space` property. -/
def isBlank (c : Char) : Bool :=
  let n := c.toNat
  (9 ≤ n && n ≤ 13) || n == 32 || n == 0x85 || n == 0xA0 || n == 0x1680 ||
    (0x2000 ≤ n && n ≤ 0x200A) || n == 0x2028 || n == 0x2029 || n == 0x202F || n == 0x205F || n == 0x3000

/-- The text without blanks at either end. -/
def trimmed (s : List Char) : List Char :=
  ((s.dropWhile isBlank).reverse.dropWhile isBlank).reverse

/-- ASCII letters in lower case, all else as it is. -/
def lowered (s : List Char) : List Char := s.map Char.toLower

/-- How settings are compared: without outer blanks, in lower case. -/
def normalized (s : String) : String := String.ofList (lowered (trimmed s.toList))

/-- Pieces between the characters that satisfy `stop`, the empty ones included. -/
def pieces (stop : Char → Bool) : List Char → List (List Char)
  | [] => [[]]
  | c :: cs =>
    if stop c then [] :: pieces stop cs
    else match pieces stop cs with
      | [] => [[c]]
      | w :: ws => (c :: w) :: ws

/-- The words of a text: what stands between runs of blanks. -/
def words (s : List Char) : List (List Char) := (pieces isBlank s).filter (!·.isEmpty)

/-- Every blank of the core library is a blank here. -/
theorem isBlank_of_isWhitespace {c : Char} (h : c.isWhitespace = true) : isBlank c = true := by
  simp only [Char.isWhitespace, Bool.or_eq_true, decide_eq_true_eq] at h
  rcases h with ((h | h) | h) | h <;> subst h <;> decide

end Collectives.Text
