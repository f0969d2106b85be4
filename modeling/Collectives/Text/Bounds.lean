/-!
# Numbers told apart by bounds

A set of numbers is given by the bounds, in rising order, at which numbers change from outside to inside and
back. A number is inside exactly when an odd number of bounds are at or below it.
-/

namespace Collectives.Text

/-- Whether an odd number of the bounds are at or below `code`. -/
def oddBelow (code : Nat) : List Nat → Bool
  | [] => false
  | bound :: rest => if bound ≤ code then !oddBelow code rest else false

/-- What is below every bound is outside. -/
theorem oddBelow_of_lt {code bound : Nat} (h : code < bound) (rest : List Nat) :
    oddBelow code (bound :: rest) = false := by
  simp only [oddBelow, if_neg (Nat.not_le_of_lt h)]

end Collectives.Text
