import Collectives.Text.Blank

/-!
# Lines

A text that is printed with a line end after it makes one line or more. A carriage return just before a line
end belongs to the line end.
-/

namespace Collectives.Text

/-- The characters without one carriage return at their end. -/
def withoutReturn (line : List Char) : List Char :=
  if line.getLast? = some '\r' then line.dropLast else line

/-- The lines of a text that is printed with a line end after it. -/
def lines (text : String) : List String :=
  (pieces (· == '\n') text.toList).map fun line => String.ofList (withoutReturn line)

/-- There is a piece around every stop. -/
theorem pieces_ne_nil (stop : Char → Bool) (s : List Char) : pieces stop s ≠ [] := by
  cases s with
  | nil => simp [pieces]
  | cons c cs =>
    by_cases h : stop c = true
    · simp [pieces, h]
    · cases hp : pieces stop cs <;> simp [pieces, h, hp]

/-- Every text makes a line. -/
theorem lines_ne_nil (text : String) : lines text ≠ [] := by
  simpa [lines] using pieces_ne_nil (· == '\n') text.toList

end Collectives.Text
