import Collectives.Memory.Transfer

/-!
# Lists of buffers as one region

A substrate takes one region of memory and a table of element counts, callers hold lists of buffers. When the
non-empty buffers of a list already lie end to end in one block, the region is that part of the block and
nothing is copied; otherwise it is a new staging block, filled by `pack` and emptied by `unpack`.
-/

namespace Collectives

/-- A list of buffers as one region. -/
structure FlatLayout where
  /-- Elements of each buffer, in list order. -/
  lengths : List Nat
  /-- The region, in one dimension. -/
  region : Buffer
  /-- Whether the region is the callers' own memory. -/
  inPlace : Bool
  deriving DecidableEq, Repr

/-- Progress of a walk over a list of buffers. -/
structure FlatLayout.Walk where
  /-- The first non-empty buffer, or the first one. -/
  anchor : Buffer
  /-- Elements of each buffer so far. -/
  lengths : List Nat := []
  /-- Elements so far. -/
  running : Nat := 0
  /-- Whether every non-empty buffer so far lies where the one before it ends. -/
  inPlace : Bool := true

namespace FlatLayout

/-- Whether a non-empty buffer lies `running` elements after the start of the anchor, without gaps. -/
def follows (anchor b : Buffer) (running : Nat) : Except Failure Bool := do
  if !anchor.sameStorage b then return false
  if !(← b.isContiguous) then return false
  return b.offset == (← addSize anchor.offset running)

/-- One buffer of the walk. -/
def Walk.step (w : Walk) (b : Buffer) : Except Failure Walk := do
  let length ← b.numel
  let anchored ← w.anchor.numel
  let anchor := if anchored = 0 ∧ length ≠ 0 then b else w.anchor
  let inPlace ← if w.inPlace && length != 0 then follows anchor b w.running else pure w.inPlace
  let running ← addSize w.running length
  return { anchor, lengths := w.lengths ++ [length], running, inPlace }

/-- The walk over a whole list, anchored at its first buffer to begin with. -/
def walk (first : Buffer) (buffers : List Buffer) : Except Failure Walk :=
  buffers.foldlM Walk.step { anchor := first }

/-- The region for a list of buffers. -/
def reconcile (buffers : List Buffer) : Edit FlatLayout := do
  match buffers with
  | [] => throw (.error (.validation .nothingToReconcile))
  | first :: _ =>
    let w ← walk first buffers
    let region ←
      if w.inPlace then w.anchor.extent (← get).heap w.running
      else Buffer.zeros w.anchor.dtype [w.running]
    note .trace .layout
      s!"flatten: {buffers.length} buffers, {w.running} elements, flat={w.inPlace}"
    return { lengths := w.lengths, region, inPlace := w.inPlace }

/-- Elements of all buffers. -/
def total (l : FlatLayout) : Except Fault Nat := sumSizes l.lengths

/-- The parts of the region, one for each buffer. -/
def slices (l : FlatLayout) : Except Failure (List Buffer) := l.region.split l.lengths

/-- Copies each source into the target beside it. -/
def copyAll : List (Buffer × Buffer) → Edit Unit
  | [] => return
  | (target, source) :: rest => do
    target.copyFrom source
    copyAll rest

/-- Copies the buffers into a staging region. -/
def pack (l : FlatLayout) (buffers : List Buffer) : Edit Unit := do
  if l.inPlace then return
  copyAll ((← l.slices).zip buffers)

/-- Copies a staging region back into the buffers. -/
def unpack (l : FlatLayout) (buffers : List Buffer) : Edit Unit := do
  if l.inPlace then return
  copyAll (buffers.zip (← l.slices))

end FlatLayout

/-- Elements for each rank when rows are shared out: evenly without sizes, else as the sizes say. -/
def splitCounts (b : Buffer) (sizes : List Nat) (groupSize : Nat) : Except Failure (List Nat) := do
  let rows ← b.leadingDim
  let numel ← b.numel
  if sizes.isEmpty then
    let left ← remSize rows groupSize
    require (left == 0) (.unevenRows rows groupSize)
    checkTable groupSize
    return List.replicate groupSize (numel / groupSize)
  require (sizes.length == groupSize) (.splitLength sizes.length groupSize)
  let total ← sumSizes sizes
  require (total == rows) (.splitTotal total rows)
  let rowLength := if numel = 0 then 0 else numel / rows
  sizes.mapM fun size => (mulSize size rowLength : Except Fault Nat)

end Collectives
