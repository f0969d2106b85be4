import Collectives.Installation.Discovery
import Collectives.Text.Lines

/-!
# Building against an installation

A build prints directives: first what it depends on, and then, if an installation is wanted and found and the
compiler succeeds, what to link with. A build that wants an installation and finds none stops. What it prints
and how it calls the compiler are read back line by line.
-/

namespace Collectives.Installation

/-- A build that is asked for. -/
structure Request where
  /-- Whether an installation is wanted at all. -/
  wanted : Bool
  /-- The machine. -/
  host : Host
  /-- The profile the build is for. -/
  profile : Option String := none

/-- How the compiler was called. -/
structure Compilation where
  /-- Directories of headers, in order. -/
  includes : List String
  /-- The optimization flags. -/
  optimization : List String
  /-- Whether warnings are on. -/
  warnings : Bool
  /-- Whether the source file was passed. -/
  source : Bool

/-- What a build leaves to read. -/
structure Outcome where
  /-- Exit code. -/
  code : Nat
  /-- The directives printed, in order. -/
  directives : List String
  /-- How the installation was found. -/
  found : Option String := none
  /-- What is missing. -/
  missing : Option String := none
  /-- How the compiler was called, if it was. -/
  compilation : Option Compilation := none

/-- Files and variables that a build depends on. -/
def dependencies : List String :=
  (["csrc/ferrocoll.c", "csrc/ferrocoll.h"].map fun file => s!"cargo:rerun-if-changed={file}") ++
    ["MPI_PKG_CONFIG", "MPICC", "MPI_HOME"].map fun name => s!"cargo:rerun-if-env-changed={name}"

/-- What a build says that wants an installation and finds none. -/
def advice : String :=
  "an MPI installation. Set MPI_PKG_CONFIG to its pkg-config name, put `mpicc` on PATH " ++
    "(or point MPICC at it), or set MPI_HOME to the install prefix"

/-- Directives for what the compiler made. -/
def compiledDirectives (directory : String) : List String :=
  ["cargo:rustc-link-lib=static=ferrocoll", s!"cargo:rustc-link-search=native={directory}/out"]

/-- Directives for a directory of libraries. -/
def searchDirectives (dir : String) : List String :=
  [s!"cargo:rustc-link-search=native={dir}", s!"cargo:rustc-link-arg=-Wl,-rpath,{dir}"]

/-- Directives to link with an installation. -/
def Found.directives (found : Found) : List String :=
  found.flags.libraryDirs.flatMap searchDirectives ++
    (found.flags.libraries.map fun name => s!"cargo:rustc-link-lib={name}") ++
    found.version.toList.map fun version => s!"cargo:rustc-env=FERROCOLL_MPI_VERSION={version}"

/-! ## The compiler -/

/-- The source file. -/
def sourceFile : String := "csrc/ferrocoll.c"

/-- The arguments of the compiler for an installation. -/
def Request.arguments (r : Request) (found : Found) : List String :=
  [if r.profile = some "release" then "-O3" else "-O0"] ++
    (("csrc" :: found.flags.includes).flatMap fun dir => ["-I", dir]) ++ ["-Wall", "-c", sourceFile]

/-- The lines that stand after the flag for a directory of headers. -/
def includesIn : List String → List String
  | flag :: dir :: rest =>
    if flag = "-I" then dir :: includesIn (dir :: rest) else includesIn (dir :: rest)
  | _ => []

/-- How the compiler was called, by the lines of its arguments. -/
def Compilation.ofLines (lines : List String) : Compilation :=
  { includes := includesIn lines
    optimization := lines.filter fun line => "-O".toList.isPrefixOf line.toList
    warnings := lines.contains "-Wall"
    source := lines.contains sourceFile }

/-! ## The build -/

/-- What a directive begins with. -/
def directiveHeads : List String :=
  ["cargo:rerun-if-changed=", "cargo:rustc-link-search=", "cargo:rustc-link-lib=", "cargo:rustc-link-arg=",
   "cargo:rustc-env="]

/-- Whether a line is a directive. -/
def isDirective (line : String) : Bool :=
  dependencies.contains line || directiveHeads.any fun head => head.toList.isPrefixOf line.toList

/-- The directives among the lines of what was printed. -/
def directivesIn (printed : List String) : List String := (printed.flatMap Text.lines).filter isDirective

/-- The first line of a text with a line end after it. -/
def headLine (text : String) : String := (Text.lines text).headD ""

/-- The build. -/
def Request.run (r : Request) : Outcome :=
  if !r.wanted then { code := 0, directives := dependencies }
  else
    match r.host.find? with
    | none => { code := 101, directives := dependencies, missing := some advice }
    | some .unreadable => { code := 101, directives := dependencies }
    | some (.installation found) =>
      let linking := compiledDirectives r.host.directory ++ found.directives
      let failed := r.host.compilerCode ≠ 0
      { code := if failed then 1 else 0
        directives := directivesIn (dependencies ++ if failed then [] else linking)
        found := some (headLine found.source)
        compilation := some (Compilation.ofLines ((r.arguments found).flatMap Text.lines)) }

end Collectives.Installation
