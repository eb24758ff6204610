import Rebuild.Assignments
import Rebuild.Command.Library
import Rebuild.Path.Basic
import Rebuild.Platform

/-!
# Project configuration

What the assignments of a configuration mean for a project. Names that hold one setting take their
last value, and every other name takes all of its values; names that are missing have defaults.
Two settings can be wrong, the number of threads and the kind of output, and are checked in this
order before any library is looked up.
-/

namespace Rebuild

/-- What a project is built into. -/
inductive OutputKind where
  /-- An executable. -/
  | binary
  /-- A static library. -/
  | staticLibrary
deriving DecidableEq, Repr

/-- A library and its flags. -/
structure Library where
  /-- The name by which the configuration asks for it. -/
  name : String
  /-- What it adds to commands. -/
  flags : LibraryFlags
deriving DecidableEq, Repr

/-- A setting whose value cannot be used. -/
structure InvalidSetting where
  /-- The name of the setting. -/
  key : String
  /-- The value it has. -/
  value : String
deriving DecidableEq, Repr

/-- The wording of the error. -/
def InvalidSetting.message (e : InvalidSetting) : String :=
  "invalid value '" ++ e.value ++ "' for '" ++ e.key ++ "'"

/-- The settings of a project. -/
structure Config where
  /-- The name of the artifact. -/
  name : String
  /-- The program that compiles and links. -/
  compiler : String
  /-- The language standard. -/
  standard : String
  /-- Folders that are searched for included files. -/
  includeFolders : List Path
  /-- The libraries that are used. -/
  libraries : List Library
  /-- Folders that are searched for libraries. -/
  libraryFolders : List Path
  /-- Folders that hold the sources. -/
  sourceFolders : List Path
  /-- What is left out of the source folders. -/
  excluded : List Path
  /-- Further words for the linker. -/
  linkFlags : List String
  /-- Further words for the compiler. -/
  compileFlags : List String
  /-- The macros that are defined. -/
  macros : List String
  /-- How many files are compiled at once; where nothing is set, the machine decides. -/
  threads : Option Nat
  /-- What is built. -/
  output : OutputKind
  /-- The platform that is built for. -/
  platform : Platform
  /-- Everything that was assigned. -/
  raw : Assignments
deriving DecidableEq, Repr

namespace Config

/-! ### Settings that can be wrong -/

/-- The greatest number of threads that can be asked for, which is the greatest word of 64 bits. -/
def maxThreads : Nat := 18446744073709551615

/-- The number that decimal digits denote. -/
def decimal? (digits : List Char) : Option Nat :=
  if digits ≠ [] ∧ digits.all Char.isDigit then
    some (digits.foldl (fun n c ↦ 10 * n + (c.toNat - '0'.toNat)) 0)
  else none

/-- A number of threads: decimal digits, behind a plus sign or not, that denote a number which is
neither zero nor too great. -/
def parseThreads? (value : String) : Option Nat :=
  let digits :=
    match value.toList with
    | '+' :: digits => digits
    | digits => digits
  (decimal? digits).filter fun n ↦ 0 < n ∧ n ≤ maxThreads

/-- The number of threads that is set, if one is. -/
def threadsOf (assignments : Assignments) : Except InvalidSetting (Option Nat) :=
  match assignments.last? "threads" with
  | none => .ok none
  | some value =>
    match parseThreads? value with
    | some n => .ok (some n)
    | none => .error { key := "threads", value }

/-- The kind of output that a word names. -/
def parseOutput? (value : String) : Option OutputKind :=
  if ["binary", "bin", "executable"].contains value then some .binary
  else if ["library", "lib", "static"].contains value then some .staticLibrary
  else none

/-- The kind of output that is set. A project can also be declared a library in a setting of its
own, which cannot be wrong and does not mend a wrong kind of output. -/
def outputOf (assignments : Assignments) : Except InvalidSetting OutputKind :=
  let declared := (assignments.last? "is_library").any fun value ↦
    ["true", "1", "yes"].contains value
  let kind (named : OutputKind) := if declared then OutputKind.staticLibrary else named
  match assignments.last? "output" with
  | none => .ok (kind .binary)
  | some value =>
    match parseOutput? value with
    | some named => .ok (kind named)
    | none => .error { key := "output", value }

/-! ### All settings -/

/-- The values of a name as paths. -/
def pathsOf (assignments : Assignments) (key : String) : List Path :=
  (assignments.values key).map Path.mk

/-- The words in the values of a name. -/
def wordsOf (assignments : Assignments) (key : String) : List String :=
  (assignments.values key).flatMap Text.wordsOf

/-- The source folder of a project that names none. -/
def defaultSourceFolder : Path := ⟨"src"⟩

variable {m : Type → Type} [Monad m]

/-- The settings that assignments give on a platform. Each library is looked up with `resolve`,
once and in order, when all else is known to be right. -/
def ofAssignments (assignments : Assignments) (platform : Platform)
    (resolve : String → m LibraryFlags) : m (Except InvalidSetting Config) := do
  match threadsOf assignments with
  | .error e => return .error e
  | .ok threads =>
    match outputOf assignments with
    | .error e => return .error e
    | .ok output =>
      let libraries ← (assignments.values "lib").mapM fun name ↦ do
        return { name, flags := ← resolve name : Library }
      let sources := pathsOf assignments "source"
      return .ok {
        name := (assignments.last? "name").getD "app"
        compiler := (assignments.last? "compiler").getD "g++"
        standard := (assignments.last? "std").getD "c++20"
        includeFolders := pathsOf assignments "include"
        libraries
        libraryFolders := pathsOf assignments "libpaths"
        sourceFolders := if sources.isEmpty then [defaultSourceFolder] else sources
        excluded := pathsOf assignments "exclude"
        linkFlags := wordsOf assignments "link_etc"
        compileFlags := wordsOf assignments "cflags"
        macros := assignments.values "define"
        threads, output, platform
        raw := assignments }

/-! ### What follows from the settings -/

/-- Whether the project is built into a static library. -/
def isLibrary (config : Config) : Bool :=
  config.output = .staticLibrary

/-- The place of the artifact below the project's root. -/
def artifactPath (config : Config) : Path :=
  let name :=
    match config.output with
    | .binary => config.name ++ config.platform.executableSuffix
    | .staticLibrary => config.platform.staticLibraryName config.name
  (⟨"bin"⟩ : Path).joinName name

/-- Whether a path is one of those left out, or lies below one. Those that are relative begin at
the project's root. -/
def isExcluded (config : Config) (root p : Path) : Bool :=
  config.excluded.any fun excluded ↦ p.startsWith (root.join excluded)

end Config

end Rebuild
