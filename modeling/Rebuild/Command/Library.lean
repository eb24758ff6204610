import Rebuild.Command.Line

/-!
# Flags of libraries

What a library asks of the compiler and of the linker. `LibraryFlags.query` asks `pkg-config`,
first about the library's name and then about that name behind `lib`; where neither is known the
library is linked by its name.
-/

namespace Rebuild

/-- The words that a library adds to commands. -/
structure LibraryFlags where
  /-- What compiling needs. -/
  compile : List String := []
  /-- What linking needs. -/
  link : List String := []
deriving DecidableEq, Repr

namespace LibraryFlags

/-- Linking a library by its name. -/
def byName (name : String) : LibraryFlags :=
  { link := ["-l" ++ name] }

/-- The program that knows about libraries. -/
def queryProgram : String := "pkg-config"

/-- The flag that asks what compiling needs. -/
def compileFlag : String := "--cflags"

/-- The flag that asks what linking needs. -/
def linkFlag : String := "--libs"

/-- One question about a package. -/
def question (flag package : String) : CommandLine :=
  { program := queryProgram, args := [flag, package] }

variable {m : Type → Type} [Monad m]

/-- The words that a question is answered with, if it is answered. -/
def ask (run : CommandLine → m Outcome) (flag package : String) : m (Option (List String)) := do
  let outcome ← run (question flag package)
  return if outcome.success then some (Text.wordsOf outcome.output) else none

/-- The flags of a library, asked of `pkg-config` by running commands with `run`. -/
def query (run : CommandLine → m Outcome) (name : String) : m LibraryFlags := do
  match ← ask run compileFlag name with
  | some compile => complete name compile
  | none =>
    match ← ask run compileFlag ("lib" ++ name) with
    | some compile => complete ("lib" ++ name) compile
    | none => return byName name
where
  /-- Asks a known package for what linking needs. -/
  complete (package : String) (compile : List String) : m LibraryFlags := do
    let link ← ask run linkFlag package
    return { compile, link := link.getD [] }

end LibraryFlags

end Rebuild
