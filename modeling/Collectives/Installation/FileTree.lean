import Collectives.Text.Blank

/-!
# File trees

A path is followed part by part, and every place on the way has to be a directory. So a path that ends in a
slash or a dot names a directory, and one that leaves a missing directory again names nothing. A path of more
than `longestPath` bytes is not followed at all.
-/

namespace Collectives.Installation

/-- A place in a tree: the names on the way from the root. -/
abbrev Location := List String

/-- Directories and files. The root is always a directory. -/
structure FileTree where
  /-- The directories below the root. -/
  directories : List Location := []
  /-- The files. -/
  files : List Location := []

/-- The parts of a path between its slashes. -/
def pathParts (path : String) : List String := (Text.pieces (· == '/') path.toList).map String.ofList

/-- The place that a path without dots names, from another place. -/
def Location.below (here : Location) (path : String) : Location :=
  here ++ (pathParts path).filter fun part => !(part.isEmpty || part == ".")

/-- A place and all places on the way to it. -/
def Location.way (place : Location) : List Location :=
  (List.range (place.length + 1)).map fun steps => place.take steps

namespace FileTree

/-- Whether a place is a directory. -/
def isDirectory (tree : FileTree) (place : Location) : Bool :=
  place.isEmpty || tree.directories.contains place

/-- The tree with a directory and all directories around it. -/
def addDirectory (tree : FileTree) (place : Location) : FileTree :=
  { tree with directories := tree.directories ++ place.way }

/-- The tree with a file and all directories around it. -/
def addFile (tree : FileTree) (place : Location) : FileTree :=
  { tree.addDirectory place.dropLast with files := tree.files ++ [place] }

/-- The place one part of a path further. The root is its own surrounding directory. -/
def step (tree : FileTree) (here : Location) (part : String) : Option Location :=
  if !tree.isDirectory here then none
  else if part.isEmpty || part == "." then some here
  else if part == ".." then some here.dropLast
  else some (here ++ [part])

/-- How many bytes a path can have. -/
def longestPath : Nat := 4095

/-- The place that a path names, read from a directory unless it begins at the root. -/
def resolve (tree : FileTree) (here : Location) (path : String) : Option Location :=
  if path.isEmpty || longestPath < path.utf8ByteSize then none
  else
    let start := if path.toList.head? = some '/' then [] else here
    (pathParts path).foldlM tree.step start

/-- Whether a path names a file. -/
def hasFile (tree : FileTree) (here : Location) (path : String) : Bool :=
  (tree.resolve here path).any tree.files.contains

/-- A path leads nowhere from a place that is no directory. -/
theorem step_eq_none {tree : FileTree} {here : Location} (h : tree.isDirectory here = false)
    (part : String) : tree.step here part = none := by
  simp [step, h]

/-- A path that is too long leads nowhere. -/
theorem resolve_eq_none (tree : FileTree) (here : Location) {path : String}
    (h : longestPath < path.utf8ByteSize) : tree.resolve here path = none := by
  simp [resolve, h]

/-- A directory that was added is there. -/
theorem isDirectory_addDirectory (tree : FileTree) (place : Location) :
    (tree.addDirectory place).isDirectory place = true := by
  have h : place ∈ place.way := by
    simp only [Location.way, List.mem_map, List.mem_range]
    exact ⟨place.length, by omega, List.take_length⟩
  simp [isDirectory, addDirectory, h]

end FileTree

end Collectives.Installation
