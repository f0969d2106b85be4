/-!
# Faults and checked sizes

Sizes, counts and offsets are natural numbers below `2 ^ 64`. Adding or multiplying two of them either
stays below that limit or stops the call with a `Fault`. A fault is not an error of the library: no caller
is promised one, and it is kept apart from `Error` so that "never faults" can be stated at all.
-/

namespace Collectives

/-- What stops a call that can neither answer nor refuse. -/
inductive Fault where
  /-- A sum of sizes left the 64-bit range. -/
  | addOverflow
  /-- A product of sizes left the 64-bit range. -/
  | mulOverflow
  /-- A remainder was taken by zero. -/
  | remainderByZero
  /-- A block of so many bytes cannot be addressed. -/
  | oversized (bytes : Nat)
  /-- A table has more entries than can be addressed. -/
  | capacity
  /-- An element was taken from a list that is too short. -/
  | indexRange (length index : Nat)
  /-- A stretch was taken that ends past the end of a list. -/
  | stretchRange (length stop : Nat)
  /-- A substrate gave up with a text. -/
  | raised (text : String)
  /-- A substrate gave up and left no text. -/
  | raisedSilently
  deriving DecidableEq, Repr

/-- The text a fault is reported with. -/
def Fault.message : Fault → String
  | .addOverflow => "attempt to add with overflow"
  | .mulOverflow => "attempt to multiply with overflow"
  | .remainderByZero => "attempt to calculate the remainder with a divisor of zero"
  | .oversized bytes => s!"buffer of {bytes} bytes exceeds the address space"
  | .capacity => "capacity overflow"
  | .indexRange length index => s!"index out of bounds: the len is {length} but the index is {index}"
  | .stretchRange length stop => s!"range end index {stop} out of range for slice of length {length}"
  | .raised text => text
  | .raisedSilently => "non-string panic payload"

/-- Sizes stay below this number. -/
def sizeLimit : Nat := 18446744073709551616

/-- Sum of two sizes. -/
def addSize (a b : Nat) : Except Fault Nat :=
  if a + b < sizeLimit then .ok (a + b) else .error .addOverflow

/-- Product of two sizes. -/
def mulSize (a b : Nat) : Except Fault Nat :=
  if a * b < sizeLimit then .ok (a * b) else .error .mulOverflow

/-- Remainder of two sizes. -/
def remSize (a b : Nat) : Except Fault Nat :=
  if b = 0 then .error .remainderByZero else .ok (a % b)

/-- Refuses a table of sizes that takes more bytes than can be addressed. -/
def checkTable (entries : Nat) : Except Fault Unit :=
  if 8 * entries < 9223372036854775808 then .ok () else .error .capacity

/-- Entry of a list that has to have one there. -/
def entry {α : Type} (xs : List α) (i : Nat) : Except Fault α :=
  match xs[i]? with
  | some x => .ok x
  | none => .error (.indexRange xs.length i)

/-- Refuses a stretch that leaves the list of the given length it is taken from. -/
def checkStretch (held start length : Nat) : Except Fault Unit := do
  let stop ← addSize start length
  if stop ≤ held then .ok () else .error (.stretchRange held stop)

/-- Sum of a list from the left; every partial sum is checked. -/
def sumSizes (xs : List Nat) : Except Fault Nat := xs.foldlM addSize 0

/-- Product of a list from the left; every partial product is checked. -/
def productSizes (xs : List Nat) : Except Fault Nat := xs.foldlM mulSize 1

/-- Exclusive partial sums: entry `i` is the sum of the entries before `i`. The total is checked too. -/
def displacementsFrom (start : Nat) : List Nat → Except Fault (List Nat)
  | [] => .ok []
  | x :: xs => do
    let next ← addSize start x
    let rest ← displacementsFrom next xs
    return start :: rest

/-- Where each of a row of adjacent blocks starts, given the length of each. -/
def displacements (xs : List Nat) : Except Fault (List Nat) := displacementsFrom 0 xs

theorem addSize_eq_ok {a b : Nat} (h : a + b < sizeLimit) : addSize a b = .ok (a + b) := by
  simp [addSize, h]

theorem mulSize_eq_ok {a b : Nat} (h : a * b < sizeLimit) : mulSize a b = .ok (a * b) := by
  simp [mulSize, h]

end Collectives
