import JobShell.System.Script.Expansion
import JobShell.System.Script.Jobs

/-!
# Redirections

The descriptors of a script are changed for the time that a command runs, or for
good. Copies of what was there before are kept above all descriptors that a
script can name.
-/
namespace JobShell
namespace Script

/-- A redirection whose word was expanded. -/
inductive Change where
  | file (fd : Nat) (use : FileUse) (path : Raw)
  | copy (fd : Nat) (source : Option Nat)
  | document (fd : Nat) (expands : Bool) (number : Nat)

/-- The descriptor that is changed. -/
def Change.fd : Change → Nat
  | .file fd _ _ | .copy fd _ | .document fd _ _ => fd

namespace Run

/-- The least descriptor that a script cannot name. -/
def firstOwn : Nat := 10

/-- What is said of an error, when something was to be found. -/
def reasonOr (missing : String) (e : Errno) : Raw :=
  if e = Errno.noEntry || e = Errno.notDirectory then txt missing else e.message

section
variable (capture : Option Tree → Run Raw)

/-- The changes that redirections ask for. -/
def expandRedirects : List Redirect → Run (List Change)
  | [] => return []
  | r :: rest => do
    let c ← (match r with
      | .file fd use w => do return .file fd use (← expandText capture Aim.whole w)
      | .copy fd source => pure (.copy fd source)
      | .document fd expands n => pure (.document fd expands n)
      | .copyNamed fd w => do
        match ← expandText capture Aim.whole w with
        | ['-'] => return .copy fd none
        | [d] => if d.isDigit then return .copy fd (some (d.toNat - 48)) else fail (txt "Syntax error: Bad fd number")
        | _ => fail (txt "Syntax error: Bad fd number") : Run Change)
    return c :: (← expandRedirects rest)

/-- Opens a file. -/
def openFor (use : FileUse) (path : Raw) : Run Nat := do
  let cannot := fun (creating : Bool) (e : Errno) =>
    fail (txt "cannot " ++ txt (if creating then "create" else "open") ++ ' ' :: path ++ txt ": " ++
      reasonOr (if creating then "Directory nonexistent" else "No such file") e)
  let open_ := fun (creating : Bool) (a : Access) => do
    match ← ask (.openFile a path) with
    | .ok fd => return fd
    | .error e => cannot creating e
  match use with
  | .read => open_ false .read
  | .update => open_ true .update
  | .append => open_ true .append
  | .replace => open_ true .write
  | .write =>
    if ← option 'C' then
      match ← ask (.look true path) with
      | .error _ => open_ true .write
      | .ok s => if s.type = .regular then cannot true Errno.fileExists else open_ false .overwrite
    else open_ true .write

/-- How much of a document fits into a pipe for sure. -/
def pipeSize : Nat := 4096

/-- A descriptor from which a document can be read. A long one is written by a process of its own. -/
def openDocument (text : Raw) : Run Nat := do
  let (r,w) ← ask .pipe
  let b := Raw.toBytes text
  if b.length ≤ pipeSize then
    let _ ← ask (.write w b)
  else
    let writer : Action Nat := do
      let _ ← Action.ask (.close r)
      let _ ← Action.ask (.write w b)
      return 0
    let _ ← (monadLift (Action.fork writer.toProgram) : Run Pid)
  let _ ← ask (.close w)
  return r

/-- Keeps a copy of a descriptor before its first change for a command. -/
def save (fd : Nat) : Run Unit := do
  match (← get).moved with
  | [] => return
  | changed :: others =>
    if changed.any (·.1 == fd) then return
    else
      let copy := (← ask (.copy fd firstOwn)).toOption
      modify (fun s => { s with moved := ((fd,copy) :: changed) :: others })

/-- Makes a change. What was there before is kept if `keeps`. -/
def change (keeps : Bool) (c : Change) : Run Unit := do
  let place := fun (new : Nat) => do
    if new = c.fd then
      if keeps then modify fun s =>
        match s.moved with
        | changed :: others =>
          if changed.any (·.1 == c.fd) then s else { s with moved := ((c.fd,none) :: changed) :: others }
        | [] => s
    else
      if keeps then save c.fd
      let _ ← ask (.bind new c.fd)
      let _ ← ask (.close new)
  match c with
  | .file _ use path => place (← openFor use path)
  | .document _ expands n => place (← openDocument (← documentText capture expands n))
  | .copy fd source =>
    if source ≠ some fd then
      if keeps then save fd
      match source with
      | none => let _ ← ask (.close fd)
      | some f =>
        match ← ask (.bind f fd) with
        | .ok () => pure ()
        | .error e =>
          let _ ← ask (.close fd)
          fail (Numeral.ofNat f ++ txt ": " ++ e.message)

/-- Makes changes one after the other. -/
def changeAll (keeps : Bool) : List Change → Run Unit
  | [] => return
  | c :: r => do
    change capture keeps c
    changeAll keeps r

/-- Makes changes for a command; a status when that cannot be done. -/
def changeFor (l : List Change) : Run Nat := do
  match ← attempt (changeAll capture true l) with
  | .ok () => return 0
  | .error .error => return 2
  | .error i => raise i

end

/-- A command begins for which descriptors may be changed. -/
def beginChanges : Run Unit := modify (fun s => { s with moved := [] :: s.moved })

/-- The command is over. Its changes are undone unless they are to stay. -/
def endChanges (stay : Bool) : Run Unit := do
  match (← get).moved with
  | [] => return
  | changed :: others =>
    modify (fun s => { s with moved := others })
    for (fd,copy) in (changed.mergeSort (fun a b => a.1 ≤ b.1)) do
      match copy with
      | some d =>
        if !stay then let _ ← ask (.bind d fd)
        let _ ← ask (.close d)
      | none => if !stay then let _ ← ask (.close fd)

/-- Undoes the changes of all commands but the outermost ones. -/
def undoChanges (depth : Nat) : Nat → Run Unit
  | 0 => return
  | fuel+1 => do
    if (← get).moved.length > depth then
      endChanges false
      undoChanges depth fuel

end Run
end Script
end JobShell
