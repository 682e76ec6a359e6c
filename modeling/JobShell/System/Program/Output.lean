import JobShell.System.Program.Call

/-!
# What programs print

What a program prints is collected, and written when enough of it has come
together or when something else is to be said. Whether all of it could be
written is found out at the end at the latest.
-/
namespace JobShell

/-- What a program has printed and not written yet. -/
structure Printout where
  /-- What the program was called by. -/
  name : Raw
  waiting : Bytes
  /-- Something could not be written. -/
  failed : Bool

/-- An action of a program that prints. -/
abbrev Routine (α : Type) : Type := StateT Printout Action α

namespace Routine

/-- How much is collected before it is written. -/
def bufferSize : Nat := 4096

/-- Asks something of the machine. -/
def ask (c : Call) : Routine c.Answer := monadLift (Action.ask c)

/-- Ends the program at once; what was printed and not written is lost. -/
def abandon {α : Type} (code : Nat) : Routine α := monadLift (Action.exit code : Action α)

/-- What the program was called by. -/
def name : Routine Raw := do return (← get).name

/-- Writes bytes; the error is remembered if that fails. -/
def write (b : Bytes) : Routine (Option Errno) := do
  if b.isEmpty then return none
  match ← ask (.write 1 b) with
  | .ok () => return none
  | .error e =>
    modify fun p => { p with failed := true }
    return some e

/-- Writes what was printed. -/
def flush : Routine (Option Errno) := do
  let b := (← get).waiting
  modify fun p => { p with waiting := [] }
  write b

/-- Prints bytes. Full blocks are written. -/
def putBytes (b : Bytes) : Routine (Option Errno) := do
  let all := (← get).waiting ++ b
  if all.length ≤ bufferSize then
    modify fun p => { p with waiting := all }
    return none
  else
    let whole := all.length / bufferSize * bufferSize
    modify fun p => { p with waiting := all.drop whole }
    write (all.take whole)

/-- Prints text. -/
def put (t : Raw) : Routine Unit := do let _ ← putBytes (Raw.toBytes t)

/-- Writes to the errors, after all that was printed before. -/
def warn (t : Raw) : Routine Unit := do
  let _ ← flush
  let _ ← ask (.write 2 (Raw.toBytes t))

/-- Says something about what went wrong. -/
def complain (t : Raw) : Routine Unit := do
  warn ((← name) ++ txt ": " ++ t ++ ['\n'])

/-- Ends the program when all that was printed is written; it ends with `failure` if that cannot be done. -/
def leave {α : Type} (failure code : Nat) : Routine α := do
  let before := (← get).failed
  match ← flush with
  | some e =>
    complain (txt "write error: " ++ e.message)
    abandon failure
  | none =>
    if before then
      complain (txt "write error")
      abandon failure
    else abandon code

/-- Complains and ends the program. -/
def fail {α : Type} (code : Nat) (t : Raw) : Routine α := do
  complain t
  leave code code

/-- Complains about how the program was called, and ends it. -/
def misuse {α : Type} (code : Nat) (t : Raw) : Routine α := do
  if !t.isEmpty then complain t
  warn (txt "Try \x27" ++ (← name) ++ txt " --help\x27 for more information.\n")
  leave code code

/-- Complains that something printed could not be written, and ends the program. What was printed is lost. -/
def failWriting {α : Type} (code : Nat) (what : Raw) (e : Errno) : Routine α := do
  modify fun p => { p with waiting := [], failed := false }
  fail code (what ++ txt ": " ++ e.message)

/-- Says that something is wrong with a file. -/
def complainOf (file : Raw) (e : Errno) : Routine Unit := complain (file ++ txt ": " ++ e.message)

/-- The program that a routine amounts to: its value is what it ends with, or `failure` when something that it
    printed cannot be written. -/
def toProgram (called : Raw) (failure : Nat) (r : Routine Nat) : Program :=
  StateT.run (do let code ← r; leave (α := Unit) failure code) ⟨called,[],false⟩ (fun _ => .exit failure)

end Routine
end JobShell
