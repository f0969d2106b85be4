import Collectives.Element.Word

/-!
# Combining two elements

A reduction folds elements two at a time. Integers are read in two's complement and wrap at their width; a
byte counts as signed. Floats are combined in their own precision, and the smaller or larger of a number and
something that is not a number is the number. The 16-bit float is widened, combined as a 32-bit float, and
rounded back to nearest, ties to even.
-/

namespace Collectives

/-- The operator on integers. -/
def Operator.onInt : Operator → Int → Int → Int
  | .sum, a, b => a + b
  | .prod, a, b => a * b
  | .min, a, b => Min.min a b
  | .max, a, b => Max.max a b

/-- The operator on integers of `width` bytes. -/
def combineInt (width : Nat) (op : Operator) (a b : Nat) : Nat :=
  wordOfInt width (op.onInt (signedValue width a) (signedValue width b))

/-- The operator on 32-bit floats that are numbers. -/
def Operator.onSingle : Operator → Float32 → Float32 → Float32
  | .sum, a, b => a + b
  | .prod, a, b => a * b
  | .min, a, b => if b < a then b else a
  | .max, a, b => if a < b then b else a

/-- The operator on 64-bit floats that are numbers. -/
def Operator.onDouble : Operator → Float → Float → Float
  | .sum, a, b => a + b
  | .prod, a, b => a * b
  | .min, a, b => if b < a then b else a
  | .max, a, b => if a < b then b else a

/-- What is not a number as arithmetic passes it on: its highest fraction bit is set. -/
def FloatFormat.quieted (f : FloatFormat) (word : Nat) : Nat := word ||| Nat.pow 2 (f.fraction - 1)

/-- What arithmetic makes of numbers that have no answer: sign, exponent and the highest fraction bit are set. -/
def FloatFormat.invalid (f : FloatFormat) : Nat :=
  (Nat.pow 2 (f.exponent + 2) - 1) * Nat.pow 2 (f.fraction - 1)

/-- The operator on bits of floats, given what it does with numbers. Arithmetic passes the first operand on
that is not a number; the smaller or larger of two operands is then the other one. -/
def FloatFormat.combine (f : FloatFormat) (op : Operator) (onNumbers : Nat → Nat → Nat) (a b : Nat) : Nat :=
  match op with
  | .sum | .prod =>
    if f.isNaN a then f.quieted a
    else if f.isNaN b then f.quieted b
    else
      let answer := onNumbers a b
      if f.isNaN answer then f.invalid else answer
  | .min | .max => if f.isNaN a then b else if f.isNaN b then a else onNumbers a b

/-- The operator on the bits of 32-bit floats. -/
def combineSingle (op : Operator) : Nat → Nat → Nat :=
  FloatFormat.single.combine op fun a b =>
    (op.onSingle (Float32.ofBits (UInt32.ofNat a)) (Float32.ofBits (UInt32.ofNat b))).toBits.toNat

/-- The operator on the bits of 64-bit floats. -/
def combineDouble (op : Operator) : Nat → Nat → Nat :=
  FloatFormat.double.combine op fun a b =>
    (op.onDouble (Float.ofBits (UInt64.ofNat a)) (Float.ofBits (UInt64.ofNat b))).toBits.toNat

/-- The upper half of the bits of a 32-bit float, rounded to nearest, ties to even. -/
def roundHalf (word : Nat) : Nat :=
  if word % 0x80000000 > 0x7F800000 then word / 0x10000 ||| 0x40
  else
    let upper := word / 0x10000
    let lower := word % 0x10000
    if lower > 0x8000 ∨ (lower = 0x8000 ∧ upper % 2 = 1) then upper + 1 else upper

/-- The operator on the bits of 16-bit floats with an 8-bit exponent. -/
def combineHalf (op : Operator) (a b : Nat) : Nat :=
  roundHalf (combineSingle op (a * 0x10000) (b * 0x10000))

/-- The operator on words under a tag. -/
def combineWord (tag : Tag) (op : Operator) (a b : Nat) : Nat :=
  match tag with
  | .char | .int | .int64 => combineInt tag.width op a b
  | .float => combineSingle op a b
  | .double => combineDouble op a b
  | .bfp16 => combineHalf op a b

/-- The operator on rows of words, element by element. -/
def combineWords (tag : Tag) (op : Operator) (as bs : List Nat) : List Nat :=
  List.zipWith (combineWord tag op) as bs

end Collectives
