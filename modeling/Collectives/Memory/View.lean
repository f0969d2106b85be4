import Collectives.Memory.Buffer

/-!
# Views

Every way to make a buffer out of another one. A view shares the block of the buffer it was made from.
-/

namespace Collectives

/-- One way to see a buffer anew. -/
inductive View where
  /-- As it is. -/
  | whole
  /-- Under another shape. -/
  | shaped (shape : List Nat)
  /-- In one dimension. -/
  | flat
  /-- Some of its rows. -/
  | rows (start length : Nat)
  /-- Two dimensions swapped. -/
  | transposed (dim0 dim1 : Nat)
  /-- Described with a layout. -/
  | layout (layout : Layout)
  /-- Described with a device. -/
  | device (device : Device)
  deriving DecidableEq, Repr

/-- The buffer a view makes. -/
def View.of (b : Buffer) : View → Except Failure Buffer
  | .whole => return b
  | .shaped shape => b.reshape shape
  | .flat => b.flatten
  | .rows start length => b.narrow start length
  | .transposed dim0 dim1 => b.transpose dim0 dim1
  | .layout kind => return { b with layout := kind }
  | .device place => return { b with device := place }

end Collectives
