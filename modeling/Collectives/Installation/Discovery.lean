import Collectives.Config
import Collectives.Installation.FileTree
import Collectives.Installation.Flags

/-!
# Finding an installation

An installation is looked for in four ways, and the first that finds one wins: a package named by a variable,
the packages of common names, the compiler wrapper, and the places where installations usually are, one named
by a variable first. A package whose flags cannot be read ends the search.
-/

namespace Collectives.Installation

/-- What the package tool knows about a package. -/
structure Package where
  /-- Its flags. -/
  flags : String
  /-- Its version. -/
  version : String

/-- A program that answers with a command, such as a compiler wrapper. -/
structure Wrapper where
  /-- The command it would run. -/
  command : String := ""
  /-- The exit code it ends with when asked for that. -/
  code : Nat := 0

/-- The machine that is searched. -/
structure Host where
  /-- The working directory. -/
  directory : String
  /-- The variables. -/
  vars : Variables
  /-- The packages the package tool knows. -/
  packages : List (String × Package) := []
  /-- The compiler wrappers in the directory `bin`. -/
  wrappers : List (String × Wrapper) := []
  /-- Files under the working directory. -/
  files : List String := []
  /-- Directories under the working directory. -/
  directories : List String := []
  /-- The exit code of the compiler. -/
  compilerCode : Nat := 0

/-- An installation that was found. -/
structure Found where
  /-- How it was found. -/
  source : String
  /-- What to compile and link with. -/
  flags : Flags
  /-- Its version, where one is known. -/
  version : Option String := none

/-- What a search comes upon. -/
inductive Finding where
  /-- An installation. -/
  | installation (found : Found)
  /-- A package whose flags cannot be read. -/
  | unreadable

/-! ## Files and programs -/

/-- Directories that every machine has. -/
def commonDirectories : List String :=
  ["/usr/local", "/usr/bin", "/usr/lib", "/bin", "/etc", "/home", "/opt", "/tmp", "/var"]

/-- The working directory. -/
def Host.here (host : Host) : Location := Location.below [] host.directory

/-- The directory of programs. -/
def Host.bin (host : Host) : Location := host.here ++ ["bin"]

/-- The programs by name: the wrappers, and the tools of the build. -/
def Host.programs (host : Host) : List (String × Wrapper) :=
  host.wrappers ++ [("cc", { code := host.compilerCode }), ("ar", { code := 0 }), ("pkg-config", { code := 1 })]

/-- All directories and files. -/
def Host.tree (host : Host) : FileTree :=
  let directories := [host.bin, host.here ++ ["out"]] ++ commonDirectories.map (Location.below []) ++
    host.directories.map host.here.below
  let files := host.files.map host.here.below ++ host.programs.map fun p => host.bin ++ [p.1]
  files.foldl FileTree.addFile (directories.foldl FileTree.addDirectory {})

/-- Whether there is a file at a path. -/
def Host.hasFile (host : Host) (path : String) : Bool := host.tree.hasFile host.here path

/-- The program a command names: by its path, or by its bare name. -/
def Host.program? (host : Host) (command : String) : Option Wrapper :=
  if command.toList.contains '/' then
    match host.tree.resolve host.here command with
    | some place =>
      (host.programs.find? fun program => host.bin ++ [program.1] == place).map Prod.snd
    | none => none
  else host.programs.lookup command

/-! ## The search -/

/-- A path extended by a name. -/
def extended (path name : String) : String :=
  if path.isEmpty then name
  else if path.toList.getLast? = some '/' then path ++ name
  else path ++ "/" ++ name

/-- Names that installations usually give their package. -/
def commonPackages : List String := ["mpich", "ompi", "mpi"]

/-- Places where installations usually are. -/
def commonPlaces : List String := ["/usr/local", "/usr", "/opt/openmpi", "/opt/mpich"]

/-- The first line of a text, without blanks at either end. -/
def firstLine (text : String) : String :=
  String.ofList (Text.trimmed (text.toList.takeWhile (· != '\n')))

/-- The package of a name, if the package tool knows it. -/
def Host.fromPackage (host : Host) (name : String) : Option Finding :=
  (host.packages.lookup name).map fun package =>
    match Flags.ofPackage (package.flags ++ "\n") with
    | some flags =>
      .installation {
        source := s!"pkg-config `{name}`", flags, version := some (firstLine package.version) }
    | none => .unreadable

/-- The installation behind the compiler wrapper. -/
def Host.fromWrapper (host : Host) : Option Finding :=
  let command := (host.vars "MPICC").getD "mpicc"
  match host.program? command with
  | some wrapper =>
    if wrapper.code = 0 then
      some (.installation {
        source := s!"`{command} -show`", flags := Flags.ofCommand wrapper.command })
    else none
  | none => none

/-- The installation at a place, if its header is there. -/
def Host.fromPlace (host : Host) (place : String) : Option Finding :=
  let headers := extended place "include"
  if host.hasFile (extended headers "mpi.h") then
    some (.installation {
      source := s!"prefix {place}"
      flags := {
        includes := [headers]
        libraryDirs := [extended place "lib"]
        libraries := [defaultLibrary] } })
  else none

/-- The first finding. -/
def Host.find? (host : Host) : Option Finding :=
  let packages := (host.vars "MPI_PKG_CONFIG").toList ++ commonPackages
  let places := (host.vars "MPI_HOME").toList ++ commonPlaces
  (packages.findSome? host.fromPackage).or
    ((host.fromWrapper).or (places.findSome? host.fromPlace))

end Collectives.Installation
