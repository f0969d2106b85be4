import Collectives.Memory.Buffer

/-!
# Reading, writing and copying elements

Elements are read and written in row-major order through `Buffer.offsets`. A copy between two contiguous
buffers reads all before it writes, so it may overlap in any way; any other copy moves one element after the
other.
-/

namespace Collectives

/-- The word of one element. -/
def Heap.word (h : Heap) (block width index : Nat) : Nat :=
  Bytes.toWord (h.read { block := some block, pos := index * width } width)

/-- The words of the elements at the given indices. -/
def Heap.words (h : Heap) (block width : Nat) (indices : List Nat) : List Nat :=
  indices.map (h.word block width)

/-- The memory after one element was written. -/
def Heap.setWord (h : Heap) (block width index word : Nat) : Heap :=
  h.write { block := some block, pos := index * width } (Bytes.ofWord width word)

/-- The memory after words were written to the elements at the given indices, one after the other. -/
def Heap.setWords (h : Heap) (block width : Nat) : List Nat → List Nat → Heap
  | index :: indices, word :: words => (h.setWord block width index word).setWords block width indices words
  | _, _ => h

/-- The memory after elements were moved from one block to another, one after the other. -/
def Heap.moveElements (h : Heap) (source target width : Nat) : List (Nat × Nat) → Heap
  | [] => h
  | (i, j) :: rest =>
    let moved := h.read { block := some source, pos := i * width } width
    (h.write { block := some target, pos := j * width } moved).moveElements source target width rest

namespace Buffer

/-- The elements in row-major order, read as the given type. -/
def toWords (h : Heap) (b : Buffer) (dtype : ElementType) : Except Failure (List Nat) := do
  require (dtype == b.dtype) (.readType b.dtype dtype)
  let _ ← b.numel
  return h.words b.block b.dtype.width b.offsets

/-- Overwrites the elements in row-major order. -/
def fill (b : Buffer) (dtype : ElementType) (words : List Nat) : Edit Unit := do
  require (dtype == b.dtype) (.writeType b.dtype dtype)
  let held ← b.numel
  require (words.length == held) (.writeCount held words.length)
  modify fun s => { s with heap := s.heap.setWords b.block b.dtype.width b.offsets words }

/-- Copies the elements of `source` into this buffer, both in row-major order. -/
def copyFrom (target source : Buffer) : Edit Unit := do
  require (source.dtype == target.dtype) (.copyType source.dtype target.dtype)
  let given ← source.numel
  let held ← target.numel
  require (given == held) (.copyCount given held)
  if held = 0 then return
  let s ← get
  if (← target.isContiguous) && (← source.isContiguous) then
    let src ← source.address s.heap
    let dst ← target.address s.heap
    let length ← target.nbytes
    set { s with heap := s.heap.write dst (s.heap.read src length) }
  else
    let moves := source.offsets.zip target.offsets
    set { s with heap := s.heap.moveElements source.block target.block target.dtype.width moves }

end Buffer

end Collectives
