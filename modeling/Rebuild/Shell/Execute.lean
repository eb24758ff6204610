import Rebuild.Command.Line
import Rebuild.Shell.Run

/-!
# Running commands

What a command does to the files, what it prints, and whether it succeeds. All that can be run are
the shell and its scripts.
-/

namespace Rebuild.Shell

/-- How deeply commands can stand in one another. -/
def maxDepth : Nat := 50000

/-- The state in which a command is started. It reads nothing, and what it prints is collected. -/
def initialState (environment : List (String × String)) (files : FileStore) : State :=
  { files
    streams := #[.nothing, .collected [], .collected []]
    descriptors := [(0, 0), (1, 1), (2, 2)]
    vars := environment.map fun (name, value) ↦
      (bytesOf name, { value? := some (bytesOf value), exported := true }) }

/-- Runs a command with the given environment. What it printed comes before its messages. -/
def execute (environment : List (String × String)) (command : CommandLine) :
    StateM FileStore Outcome :=
  fun files ↦
    let refused (reason : String) : Outcome × FileStore :=
      ({ success := false
         output := "failed to run '" ++ command.program ++ "': " ++ reason }, files)
    let folders := Invocation.foldersIn ((environment.lookup "PATH").getD "/bin:/usr/bin")
    if (command.program :: command.args).any fun word ↦ word.toList.contains '\x00' then
      refused "nul byte found in provided data"
    else
      match Invocation.find files folders (bytesOf command.program)
          (command.args.map bytesOf) with
      | .error e => refused e.message
      | .ok invocation =>
        let (result, st) :=
          (Action.startShell (run maxDepth) invocation).run (initialState environment files)
        let printed (place : Nat) : String := textOf (st.collectedAt place)
        ({ success := result.toOption = some 0, output := printed 1 ++ printed 2 }, st.files)

end Rebuild.Shell
