import Collectives.Element.Word
import Collectives.Error
import Collectives.Journal

/-!
# Blocks of memory

Memory is a row of blocks of bytes. Blocks are never freed: a block that nothing names any more cannot be
seen. A `Store` is the memory together with the journal, all that a call may change on its own side of the
substrate.
-/

namespace Collectives

/-- A place in memory. Empty blocks have no place of their own; they all start nowhere. -/
structure Address where
  /-- The block, or `none` for nowhere. -/
  block : Option Nat
  /-- Bytes from the start of the block. -/
  pos : Nat
  deriving DecidableEq, Repr

/-- The address of no memory. -/
def Address.nowhere : Address := { block := none, pos := 0 }

/-- The address some bytes further on. -/
def Address.advance (a : Address) (bytes : Nat) : Address := { a with pos := a.pos + bytes }

/-- Blocks of memory by number. -/
structure Heap where
  /-- The blocks, in the order in which they were made. -/
  blocks : Array (Array UInt8) := #[]

/-- Bytes in a block. -/
def Heap.blockSize (h : Heap) (block : Nat) : Nat :=
  match h.blocks[block]? with
  | some bytes => bytes.size
  | none => 0

/-- The byte at a place, if the block reaches that far. -/
def Heap.byte? (h : Heap) (block pos : Nat) : Option UInt8 :=
  match h.blocks[block]? with
  | some bytes => bytes[pos]?
  | none => none

/-- The bytes from a place on, at most to the end of the block. -/
def Heap.read (h : Heap) (a : Address) (length : Nat) : Bytes :=
  match a.block with
  | some block => ((h.blocks.getD block #[]).extract a.pos (a.pos + length)).toList
  | none => []

/-- Bytes of a block replaced from a position on; what would lie past the end is dropped. -/
def overwrite (bytes : Array UInt8) (pos : Nat) : Bytes → Array UInt8
  | [] => bytes
  | b :: bs => overwrite (bytes.setIfInBounds pos b) (pos + 1) bs

/-- The memory after bytes were written from a place on. -/
def Heap.write (h : Heap) (a : Address) (data : Bytes) : Heap :=
  match a.block with
  | some block => { h with blocks := h.blocks.modify block (overwrite · a.pos data) }
  | none => h

@[simp] theorem size_overwrite (bytes : Array UInt8) (pos : Nat) (data : Bytes) :
    (overwrite bytes pos data).size = bytes.size := by
  induction data generalizing bytes pos with
  | nil => rfl
  | cons b bs ih => simp [overwrite, ih]

/-- Writing changes bytes, never the size of a block. -/
@[simp] theorem Heap.blockSize_write (h : Heap) (a : Address) (data : Bytes) (block : Nat) :
    (h.write a data).blockSize block = h.blockSize block := by
  cases hb : a.block with
  | none => simp [Heap.write, hb]
  | some b =>
    simp only [Heap.write, hb, Heap.blockSize, Array.getElem?_modify]
    by_cases e : b = block
    · subst e
      cases hg : h.blocks[b]? <;> simp
    · simp [e]

/-- The largest block that can be addressed. -/
def blockLimit : Nat := 9223372036854775744

/-- Memory and journal. -/
structure Store where
  /-- The memory. -/
  heap : Heap := {}
  /-- The journal, oldest line first. -/
  journal : List LogLine := []

/-- What a call does on its own side of the substrate; a refused or faulted call keeps what it changed. -/
abbrev Edit (α : Type) := ExceptT Failure (StateM Store) α

/-- Adds a line to the journal. -/
def Store.log (s : Store) (level : Level) (component : Component) (text : String) : Store :=
  { s with journal := s.journal ++ [{ level, component, text }] }

/-- Adds a line to the journal. -/
def note (level : Level) (component : Component) (text : String) : Edit Unit :=
  modify fun s => s.log level component text

/-- Makes a block of zero bytes. -/
def allocate (bytes : Nat) : Edit Nat := do
  if blockLimit < bytes then throw (.fault (.oversized bytes))
  let s ← get
  set { s with heap := { blocks := s.heap.blocks.push (Array.replicate bytes 0) } }
  return s.heap.blocks.size

end Collectives
