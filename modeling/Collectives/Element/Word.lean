import Collectives.Element.Kind

/-!
# Elements as words and bytes

An element is a word, the natural number of its bits. In memory it is its bytes, least significant first.
Integer types read a word in two's complement; the other numeric types show its bits.
-/

namespace Collectives

/-- Bytes as they stand in memory. -/
abbrev Bytes := List UInt8

/-- The word with the given bytes, least significant first. -/
def Bytes.toWord : Bytes → Nat
  | [] => 0
  | b :: bs => b.toNat + 256 * Bytes.toWord bs

/-- The lowest `width` bytes of a word, least significant first. -/
def Bytes.ofWord : Nat → Nat → Bytes
  | 0, _ => []
  | width + 1, word => UInt8.ofNat word :: Bytes.ofWord width (word / 256)

@[simp] theorem Bytes.length_ofWord (width word : Nat) : (Bytes.ofWord width word).length = width := by
  induction width generalizing word with
  | zero => rfl
  | succ width ih => simp [Bytes.ofWord, ih]

/-- Bytes of many words in a row. -/
def Bytes.ofWords (width : Nat) (words : List Nat) : Bytes := words.flatMap (Bytes.ofWord width)

/-- A word of `width` bytes read in two's complement. -/
def signedValue (width word : Nat) : Int :=
  if 2 * word < Nat.pow 256 width then word else (word : Int) - Nat.pow 256 width

/-- The word of `width` bytes that stands for an integer in two's complement. -/
def wordOfInt (width : Nat) (value : Int) : Nat := (value % Nat.pow 256 width).toNat

/-- Where the exponent of a binary float type starts, and its width. -/
structure FloatFormat where
  /-- Bits of the fraction. -/
  fraction : Nat
  /-- Bits of the exponent. -/
  exponent : Nat

/-- The format of 32-bit floats. -/
def FloatFormat.single : FloatFormat := { fraction := 23, exponent := 8 }

/-- The format of 64-bit floats. -/
def FloatFormat.double : FloatFormat := { fraction := 52, exponent := 11 }

/-- The format of a float type. -/
def ElementType.floatFormat? : ElementType → Option FloatFormat
  | .f16 => some { fraction := 10, exponent := 5 }
  | .bf16 => some { fraction := 7, exponent := 8 }
  | .f32 => some .single
  | .f64 => some .double
  | _ => none

/-- Whether the bits are not a number: all exponent bits set, and a fraction. -/
def FloatFormat.isNaN (f : FloatFormat) (word : Nat) : Bool :=
  let exponents := Nat.pow 2 f.exponent
  word >>> f.fraction % exponents == exponents - 1 && word % Nat.pow 2 f.fraction != 0

/-- An element as a reader sees it. -/
inductive Reading where
  /-- The value of an integer. -/
  | integer (value : Int)
  /-- The bits of a float, in as many hexadecimal digits as the type has. -/
  | bits (digits : String)
  /-- A float that is not a number, whatever its bits. -/
  | notANumber
  deriving DecidableEq, Repr

/-- The hexadecimal digits of a word, `count` of them. -/
def hexWord : Nat → Nat → List Char
  | 0, _ => []
  | count + 1, word => hexWord count (word / 16) ++ [Nat.digitChar (word % 16)]

/-- The value of one hexadecimal digit. -/
def hexDigit? (c : Char) : Option Nat :=
  if '0' ≤ c ∧ c ≤ '9' then some (c.toNat - '0'.toNat)
  else if 'a' ≤ c ∧ c ≤ 'f' then some (c.toNat - 'a'.toNat + 10)
  else none

/-- The word with the given hexadecimal digits, the highest first. -/
def wordOfHex? (digits : List Char) : Option Nat :=
  digits.foldlM (fun word c => (hexDigit? c).map (word * 16 + ·)) 0

/-- What a reader sees of a word of the given type; truth values have no reading. -/
def ElementType.reading? (t : ElementType) (word : Nat) : Option Reading :=
  match t with
  | .bool => none
  | .u8 => some (.integer word)
  | .i8 | .i16 | .i32 | .i64 => some (.integer (signedValue t.width word))
  | .f16 | .bf16 | .f32 | .f64 =>
    match t.floatFormat? with
    | some format =>
      if format.isNaN word then some .notANumber
      else some (.bits (String.ofList (hexWord (2 * t.width) word)))
    | none => none

end Collectives
