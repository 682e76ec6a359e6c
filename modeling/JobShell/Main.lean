import JobShell.Session.Lifetime

/-!
# The program

Runs a shell on a machine of its own. Commands are read from the standard input,
the environment is that of the program, and what the shell and its commands write
is written when the shell has ended.
-/
namespace JobShell

/-- All bytes of a stream. -/
partial def readAll (input : IO.FS.Stream) (seen : ByteArray) : IO ByteArray := do
  let more ← input.read 65536
  if more.isEmpty then return seen else readAll input (seen ++ more)

/-- The variables of the environment that the shell is given. -/
def variableNames : List String := ["HOME","KAZE_CONFIG","KAZE_LOG","PATH","XDG_STATE_HOME"]

/-- The values of variables in the environment. -/
def readEnvironment : List String → Bindings → IO Bindings
  | [], b => return b
  | name :: r, b => do
    match ← IO.getEnv name with
    | some value => readEnvironment r (b.set (txt name) (txt value))
    | none => readEnvironment r b

end JobShell

open JobShell in
def main : IO UInt32 := do
  let input ← readAll (← IO.getStdin) .empty
  let environment ← readEnvironment variableNames []
  let files := FileSystem.system.makeDirectories (FileSystem.steps (Raw.ofText ((environment.get? (txt "HOME")).getD [])))
  let machine := Machine.start files environment [] (.file input.toList) 0
  let (status,after) := machine.runShell
  let (output,errors) := after.output
  (← IO.getStdout).write (ByteArray.mk output.toArray)
  (← IO.getStderr).write (ByteArray.mk errors.toArray)
  return (status.getD Act.crashStatus).toNat.toUInt32
