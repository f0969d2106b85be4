import Collectives.Fault
import Collectives.Text.Blank

/-!
# Sizes written in decimal

A size is an optional plus sign and at least one ASCII digit, blanks around it ignored; a number that does
not fit 64 bits is no size.
-/

namespace Collectives.Text

/-- The value of one ASCII digit. -/
def digit? (c : Char) : Option Nat :=
  if '0' ≤ c ∧ c ≤ '9' then some (c.toNat - '0'.toNat) else none

/-- Digits after the ones that gave `value`. -/
def decimalFrom (value : Nat) : List Char → Option Nat
  | [] => some value
  | c :: cs => do
    let d ← digit? c
    let next := value * 10 + d
    if next < sizeLimit then decimalFrom next cs else none

/-- A non-empty run of digits. -/
def decimal : List Char → Option Nat
  | [] => none
  | cs => decimalFrom 0 cs

/-- A size with an optional plus sign. -/
def signedDecimal : List Char → Option Nat
  | '+' :: cs => decimal cs
  | cs => decimal cs

/-- Reads a size out of a setting. -/
def size? (s : String) : Option Nat := signedDecimal (trimmed s.toList)

end Collectives.Text
