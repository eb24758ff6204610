import Rebuild.Shell.Switch

/-!
# Commands that leave others

Ending a shell, a function, a script or a loop.
-/

namespace Rebuild.Shell

namespace Action

/-! ### Flow -/

/-- Ends the shell. -/
def endShell (args : List String) : Action Nat := do
  let st ← get
  let status ← (args.head?.map number).getD (pure (st.held?.getD st.status))
  throw (.exited status)

/-- Ends the function or script. -/
def endScript (args : List String) : Action Nat := do
  let status ← (args.head?.map number).getD (return (← get).status)
  setStatus status
  throw .returned

/-- Leaves loops, or begins their next round. -/
def leaveLoops (interruption : Nat → Interruption) (args : List String) : Action Nat := do
  let n ← (args.head?.map number).getD (pure 1)
  if n = 0 then fail ("Illegal number: " ++ args.headD "")
  let loops := min n (← get).loops
  setStatus 0
  if loops = 0 then return 0 else throw (interruption loops)

end Action

end Rebuild.Shell
