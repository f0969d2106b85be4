import Collectives.Memory.Heap

/-!
# Buffers

A buffer is a typed, shaped view of a block of memory: element `(i₀, i₁, …)` lies `offset + i₀ s₀ + i₁ s₁ + …`
elements from the start of the block, where the `s` are the strides. Several buffers may view one block.
`Buffer.offsets` lists the places of all elements in row-major order, in which an odometer meets their indices;
every read and write goes through it.

Reshaping, narrowing, splitting and transposing make new views of the same block and move no data.
-/

namespace Collectives

/-- A typed, shaped view of a block of memory. -/
structure Buffer where
  /-- The block that is viewed. -/
  block : Nat
  /-- Type of the elements. -/
  dtype : ElementType
  /-- Size of each dimension. -/
  shape : List Nat
  /-- Elements between neighbours along each dimension. -/
  strides : List Nat
  /-- Elements before the first one. -/
  offset : Nat
  /-- Layout the buffer is described with. -/
  layout : Layout := .strided
  /-- Device the buffer is described with. -/
  device : Device := .host
  deriving DecidableEq, Repr

/-- Row-major strides: each dimension steps over all that follow, an empty one counting as one. -/
def contiguousStrides : List Nat → Except Fault (List Nat)
  | [] => .ok []
  | _ :: rest => do
    let tail ← contiguousStrides rest
    match rest, tail with
    | dim :: _, stride :: _ => do
      let step ← mulSize stride (max dim 1)
      return step :: tail
    | _, _ => return 1 :: tail

/-- One step of an odometer, and whether it went through every place: the last place is raised, and a place that has
no room is set back and passes the step on to the one before it. -/
def advance : List Nat → List Nat → Bool × List Nat
  | dim :: dims, digit :: digits =>
    match advance dims digits with
    | (true, rest) => if digit + 1 < dim then (false, (digit + 1) :: rest) else (true, 0 :: rest)
    | (false, rest) => (false, digit :: rest)
  | _, digits => (true, digits)

/-- So many indices from the given one on, in row-major order. -/
def indicesFrom (shape : List Nat) : Nat → List Nat → List (List Nat)
  | 0, _ => []
  | count + 1, index => index :: indicesFrom shape count (advance shape index).2

/-- Whether each stride, from the last dimension on, equals the number of elements passed so far;
dimensions of size one may have any stride. -/
def gapless (passed : Nat) : List (Nat × Nat) → Bool
  | [] => true
  | (dim, stride) :: rest => (dim == 1 || stride == passed) && gapless (passed * dim) rest

namespace Buffer

/-- Number of elements. -/
def numel (b : Buffer) : Except Fault Nat := productSizes b.shape

/-- Number of bytes. -/
def nbytes (b : Buffer) : Except Fault Nat := do mulSize (← b.numel) b.dtype.width

/-- The indices of the elements, in row-major order. -/
def indices (b : Buffer) : List (List Nat) :=
  indicesFrom b.shape (b.shape.foldr (· * ·) 1) (List.replicate b.shape.length 0)

/-- Offset of the element at an index. -/
def offsetAt (b : Buffer) (index : List Nat) : Nat :=
  b.offset + (List.zipWith (· * ·) index b.strides).foldr (· + ·) 0

/-- Offsets of the elements within the block, in row-major order. -/
def offsets (b : Buffer) : List Nat := b.indices.map b.offsetAt

/-- Whether the elements lie side by side in row-major order; a buffer without elements does. -/
def isContiguous (b : Buffer) : Except Fault Bool := do
  if (← b.numel) = 0 then return true
  return gapless 1 (b.shape.zip b.strides).reverse

/-- Whether the buffer is strided, on the host and contiguous. -/
def isDense (b : Buffer) : Except Fault Bool := do
  if b.layout = .strided ∧ b.device = .host then b.isContiguous else return false

/-- Size of dimension 0. -/
def leadingDim (b : Buffer) : Except Failure Nat :=
  match b.shape with
  | rows :: _ => .ok rows
  | [] => .error (.error (.validation .zeroDimensional))

/-- Whether two buffers view one block. -/
def sameStorage (a b : Buffer) : Bool := a.block == b.block

/-- Where the first element lies. -/
def address (h : Heap) (b : Buffer) : Except Fault Address := do
  if h.blockSize b.block = 0 then return Address.nowhere
  let pos ← mulSize b.offset b.dtype.width
  return { block := some b.block, pos }

/-- A new buffer of zeros. -/
def zeros (dtype : ElementType) (shape : List Nat) : Edit Buffer := do
  let numel ← productSizes shape
  let bytes ← mulSize numel dtype.width
  let block ← allocate bytes
  let strides ← contiguousStrides shape
  return { block, dtype, shape, strides, offset := 0 }

/-- A new buffer of one dimension and no elements. -/
def empty (dtype : ElementType) : Edit Buffer := zeros dtype [0]

/-- A new buffer that holds the given words. -/
def ofWords (dtype : ElementType) (words : List Nat) (shape : List Nat) : Edit Buffer := do
  let numel ← productSizes shape
  require (numel == words.length) (.shapeCount shape numel words.length)
  let b ← zeros dtype shape
  modify fun s =>
    { s with heap := s.heap.write { block := some b.block, pos := 0 } (Bytes.ofWords dtype.width words) }
  return b

/-- A new buffer that can hold all the given ones side by side, typed and shaped like the first. -/
def flatLike (buffers : List Buffer) : Edit Buffer :=
  match buffers with
  | [] => throw (.error (.validation .nothingToFlatten))
  | first :: _ => zeros first.dtype (buffers.length :: first.shape)

/-- The same elements under another shape. -/
def reshape (b : Buffer) (shape : List Nat) : Except Failure Buffer := do
  require (← b.isContiguous) .reshapeStrided
  let numel ← productSizes shape
  let held ← b.numel
  require (numel == held) (.reshapeCount held shape)
  let strides ← contiguousStrides shape
  return { b with shape, strides }

/-- The same elements in one dimension. -/
def flatten (b : Buffer) : Except Failure Buffer := do b.reshape [← b.numel]

/-- The rows from `start` on, `length` of them. -/
def narrow (b : Buffer) (start length : Nat) : Except Failure Buffer := do
  let rows ← b.leadingDim
  let stop ← addSize start length
  require (stop ≤ rows) (.rowRange start stop rows)
  let skipped ← mulSize start (b.strides.headD 0)
  let offset ← addSize b.offset skipped
  return { b with shape := length :: b.shape.tail, offset }

/-- Consecutive runs of rows from row `start` on, one of each given size. -/
def splitFrom (b : Buffer) (start : Nat) : List Nat → Except Failure (List Buffer)
  | [] => return []
  | size :: sizes => do
    let part ← b.narrow start size
    let next ← addSize start size
    let rest ← b.splitFrom next sizes
    return part :: rest

/-- All rows in consecutive runs of the given sizes. -/
def split (b : Buffer) (sizes : List Nat) : Except Failure (List Buffer) := do
  let total ← sumSizes sizes
  let rows ← b.leadingDim
  require (total == rows) (.splitTotal total rows)
  b.splitFrom 0 sizes

/-- One dimension of `length` elements from the first element on, as far as the block reaches. -/
def extent (h : Heap) (b : Buffer) (length : Nat) : Except Failure Buffer := do
  let stop ← addSize b.offset length
  let bytes ← mulSize stop b.dtype.width
  require (length == 0 || bytes ≤ h.blockSize b.block) (.extentRange length b.offset)
  return { b with shape := [length], strides := [1] }

/-- The list with two entries swapped. -/
def swapped (xs : List Nat) (i j : Nat) : List Nat :=
  (xs.set i (xs.getD j 0)).set j (xs.getD i 0)

/-- Two dimensions swapped. -/
def transpose (b : Buffer) (dim0 dim1 : Nat) : Except Failure Buffer := do
  let dims := b.shape.length
  require (dim0 < dims && dim1 < dims) (.swapDims dim0 dim1 dims)
  return { b with shape := swapped b.shape dim0 dim1, strides := swapped b.strides dim0 dim1 }

/-- A buffer written out with all it is described by. -/
def describe (b : Buffer) : String :=
  Text.record "Buffer"
    [("dtype", b.dtype.name), ("shape", Text.numbers b.shape), ("strides", Text.numbers b.strides),
     ("offset", toString b.offset), ("layout", b.layout.name), ("device", b.device.name)]

end Buffer

end Collectives
