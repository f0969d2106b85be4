/-!
# How and where memory is laid out

Both are descriptions a buffer carries. Only strided host memory can be communicated.
-/

namespace Collectives

/-- Layout of the elements of a buffer. -/
inductive Layout where
  /-- Every element has its place, reached by strides. -/
  | strided
  /-- Only some elements are stored, under coordinates. -/
  | sparse
  deriving DecidableEq, Repr

/-- Name of the layout in reports. -/
def Layout.name : Layout → String
  | .strided => "Strided"
  | .sparse => "Sparse"

/-- Where the memory of a buffer lives. -/
inductive Device where
  | host
  | accelerator (ordinal : Nat)
  deriving DecidableEq, Repr

/-- Name of the device in reports. -/
def Device.name : Device → String
  | .host => "Host"
  | .accelerator ordinal => s!"Accelerator({ordinal})"

end Collectives
