import Rebuild.Text.Style

/-!
# Hints

Some messages of compilers and linkers have a cause that the configuration can mend. The hint names
it. Of several causes the first one in the order below is named.
-/

namespace Rebuild

/-- A cause of failure that the configuration can mend. -/
inductive Hint where
  /-- There is no entry point. -/
  | missingEntryPoint
  /-- A library is missing. -/
  | missingLibrary
  /-- An included file is missing. -/
  | missingInclude
deriving DecidableEq, Repr

namespace Hint

/-- The cause that the output of a failed command speaks of. -/
def ofOutput? (output : String) : Option Hint :=
  if Text.contains output "undefined reference to \x60main'" ||
      Text.contains output "undefined reference to \x60WinMain" ||
      Text.contains output "entry point must be defined" then
    some missingEntryPoint
  else if Text.contains output "undefined reference to" ||
      Text.contains output "cannot find -l" then
    some missingLibrary
  else if Text.contains output "fatal error: " &&
      Text.contains output "No such file or directory" then
    some missingInclude
  else none

/-- The wording of a hint. -/
def message (coloured : Bool) : Hint → String
  | missingEntryPoint =>
    "Your project is missing a " ++ strong .yellow "main()" ++
      " function.\nEnsure you have a valid entry point or set " ++
      strong .green "output = \"library\"" ++ " if this is a library."
  | missingLibrary =>
    "It looks like a " ++ strong .red "Linker" ++
      " error.\nYou might be missing a library in " ++ strong .yellow "lib = \"...\"" ++
      ".\nCheck " ++ strong .yellow "libpaths" ++ " if it lives outside the system paths."
  | missingInclude =>
    "It looks like a " ++ strong .red "Missing Header" ++
      " error.\nYou might be missing an include path.\nAdd the directory with " ++
      strong .yellow "include = \"...\"" ++ " in your config."
where
  /-- Bold text in a colour. -/
  strong (colour : Text.Colour) (s : String) : String :=
    (Text.Style.strongIn colour).apply coloured s

end Hint

end Rebuild
