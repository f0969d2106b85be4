/-!
# Element types, wire tags and reductions

Buffers describe ten element types; a substrate moves six kinds of data, its tags. Seven types have a tag,
the two byte types the same one; a type without a tag can be described but not communicated. Of eight
reductions four have a substrate operator.
-/

namespace Collectives

/-- Logical type of the elements of a buffer. -/
inductive ElementType where
  | u8 | i8 | i16 | i32 | i64 | f16 | bf16 | f32 | f64 | bool
  deriving DecidableEq, Repr

/-- Every element type. -/
def ElementType.all : List ElementType := [.u8, .i8, .i16, .i32, .i64, .f16, .bf16, .f32, .f64, .bool]

/-- Name of the type in reports. -/
def ElementType.name : ElementType → String
  | .u8 => "U8"
  | .i8 => "I8"
  | .i16 => "I16"
  | .i32 => "I32"
  | .i64 => "I64"
  | .f16 => "F16"
  | .bf16 => "BF16"
  | .f32 => "F32"
  | .f64 => "F64"
  | .bool => "Bool"

/-- Bytes of one element. -/
def ElementType.width : ElementType → Nat
  | .u8 | .i8 | .bool => 1
  | .i16 | .f16 | .bf16 => 2
  | .i32 | .f32 => 4
  | .i64 | .f64 => 8

/-- Kinds of data a substrate moves. -/
inductive Tag where
  | char | int | bfp16 | float | double | int64
  deriving DecidableEq, Repr

/-- Every tag. -/
def Tag.all : List Tag := [.char, .int, .bfp16, .float, .double, .int64]

/-- Name of the tag in reports. -/
def Tag.name : Tag → String
  | .char => "Char"
  | .int => "Int"
  | .bfp16 => "Bfp16"
  | .float => "Float"
  | .double => "Double"
  | .int64 => "Int64"

/-- Number of the tag on the wire. -/
def Tag.code : Tag → Nat
  | .char => 0
  | .int => 1
  | .bfp16 => 2
  | .float => 3
  | .double => 4
  | .int64 => 5

/-- Bytes of one element under the tag. -/
def Tag.width : Tag → Nat
  | .char => 1
  | .bfp16 => 2
  | .int | .float => 4
  | .double | .int64 => 8

/-- The tag an element type is moved under, if it can be moved. -/
def ElementType.tag? : ElementType → Option Tag
  | .u8 | .i8 => some .char
  | .i32 => some .int
  | .bf16 => some .bfp16
  | .f32 => some .float
  | .f64 => some .double
  | .i64 => some .int64
  | .i16 | .f16 | .bool => none

/-- Reductions a caller can ask for. -/
inductive Reduction where
  | sum | product | min | max | average | bitwiseAnd | bitwiseOr | bitwiseXor
  deriving DecidableEq, Repr

/-- Every reduction. -/
def Reduction.all : List Reduction :=
  [.sum, .product, .min, .max, .average, .bitwiseAnd, .bitwiseOr, .bitwiseXor]

/-- Name of the reduction in reports. -/
def Reduction.name : Reduction → String
  | .sum => "Sum"
  | .product => "Product"
  | .min => "Min"
  | .max => "Max"
  | .average => "Average"
  | .bitwiseAnd => "BitwiseAnd"
  | .bitwiseOr => "BitwiseOr"
  | .bitwiseXor => "BitwiseXor"

/-- Reductions a substrate performs. -/
inductive Operator where
  | sum | prod | min | max
  deriving DecidableEq, Repr

/-- Every operator. -/
def Operator.all : List Operator := [.sum, .prod, .min, .max]

/-- Name of the operator in reports. -/
def Operator.name : Operator → String
  | .sum => "Sum"
  | .prod => "Prod"
  | .min => "Min"
  | .max => "Max"

/-- Number of the operator on the wire. -/
def Operator.code : Operator → Nat
  | .sum => 0
  | .prod => 1
  | .min => 2
  | .max => 3

/-- The operator that performs a reduction, if there is one. -/
def Reduction.operator? : Reduction → Option Operator
  | .sum => some .sum
  | .product => some .prod
  | .min => some .min
  | .max => some .max
  | .average | .bitwiseAnd | .bitwiseOr | .bitwiseXor => none

/-- Moving data under a tag keeps the width of its elements. -/
theorem ElementType.width_of_tag? {t : ElementType} {tag : Tag} (h : t.tag? = some tag) :
    tag.width = t.width := by
  cases t <;> simp [ElementType.tag?] at h <;> subst h <;> rfl

/-- No element is empty. -/
theorem ElementType.width_pos (t : ElementType) : 0 < t.width := by
  cases t <;> simp [ElementType.width]

end Collectives
