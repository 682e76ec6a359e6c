import JobShell.System.Script.Lookup
import JobShell.System.Script.Reader
import JobShell.System.Script.Redirection

/-!
# Texts and processes of scripts

The text of a script is read and run command by command; what remains of the
text is read only when the commands before it have been run. A part of a script
may run in a process of its own, which begins as a copy of the script. The end
of a script runs what was set for it.
-/
namespace JobShell
namespace Script

/-- Where a command stands. -/
structure Position where
  /-- Nothing is to be done after it. -/
  last : Bool
  /-- Its failure is looked at, so that it does not end the script. -/
  tested : Bool

namespace Position

/-- In the middle of a script. -/
def plain : Position := ⟨false,false⟩

/-- At the end of a process. -/
def final : Position := ⟨true,false⟩

/-- The position of a part that something comes after. -/
def inside (p : Position) : Position := { p with last := false }

end Position

namespace Run

/-! ### Reading and running -/

/-- What is left to be read: text, whether there is no more, and the line that it begins in. -/
structure Remaining where
  text : Raw
  ended : Bool
  line : Nat

/-- The next command, and what is left after it; none when there is not enough text. -/
def readCommand (r : Remaining) : Run (Option (Read.Parsed × Remaining)) := do
  let s ← get
  match StateT.run Read.nextCommand (Read.reader r.text r.ended r.line s.aliases s.documents) with
  | .ok (parsed,reader) =>
    modify (fun s => { s with documents := reader.documents })
    return some (parsed,{ r with text := reader.rest, line := reader.line })
  | .error .more => return none
  | .error (.wrong line message) =>
    modify (fun s => { s with line := line })
    fail message

/-- Ends what only a function is left by. -/
def endFunction : Run Unit :=
  modify fun s =>
    match s.skip with
    | .function _ => { s with skip := .none }
    | _ => s

/-- Lets the machine go on with other things, and notes the signals that have come. -/
def breathe : Run Unit := do
  let _ ← takeCaught

section
/- `self` runs a command and yields its status. -/
variable (self : Option Tree → Position → Run Nat)

/-- Runs what is left of a text whose end is known. -/
def runRemaining (p : Position) : Nat → Remaining → Nat → Run Nat
  | 0, _, status => return status
  | fuel+1, r, status => do
    match ← readCommand r with
    | none | some (.ended,_) => return status
    | some (.command t isLast,r) =>
      let s ← self t { p with last := p.last && isLast }
      let status := if t.isSome then s else status
      if (← get).skip ≠ .none then return status else runRemaining p fuel r status

/-- Runs a text. -/
def runText (t : Raw) (p : Position) : Run Nat := runRemaining self p rounds ⟨t,true,1⟩ 0

/-- How much of a file is read at once. -/
def inputSize : Nat := 8191

/-- Runs what can be read from a descriptor. Zero bytes are passed over. -/
def runInput (fd : Nat) : Nat → Remaining → Nat → Run Nat
  | 0, _, status => return status
  | fuel+1, r, status => do
    match ← readCommand r with
    | none =>
      let r := match ← ask (.read fd inputSize) with
        | .ok (x :: b) => { r with text := r.text ++ (Raw.ofBytes (x :: b)).filter (· ≠ '\x00') }
        | _ => { r with ended := true }
      runInput fd fuel r status
    | some (parsed,after) =>
      if ← option 'v' then say 2 (r.text.take (r.text.length - after.text.length))
      match parsed with
      | .ended => return status
      | .command t _ =>
        let s ← self t .plain
        let status := if t.isSome then s else status
        if (← get).skip ≠ .none then
          endFunction
          return status
        else runInput fd fuel after status

/-! ### Signals -/

/-- Runs what is set for the signals that have come, in the order of their numbers. Nothing is run for the others
    while something is run for one, unless another one comes. What is left out for now is run later. -/
def runTraps : Run Unit := do
  noteSignals
  let s ← get
  if s.pending.isSome then
    let status := s.keptStatus.getD s.status
    modify (fun s => { s with keptStatus := some status, pending := none })
    for n in List.range (Signal.greatest + 1) do
      let now ← get
      if now.arrived.contains n then
        if now.skip ≠ .none then
          modify (fun s => { s with pending := some n })
          break
        modify (fun s => { s with arrived := s.arrived.filter (· != n) })
        if let some t := ← trap? n then
          let _ ← runText self t .plain
          if (← get).skip ≠ .function true then modify (fun s => { s with status := status })
    modify (fun t => { t with keptStatus := s.keptStatus })

/-! ### The end of a process -/

/-- Leaves loops and functions for good. A status that was kept counts after an exit. -/
def settle (i : Interruption) : Run Unit :=
  modify fun s =>
    let counts := i = .exited || s.skip = .function false
    { s with status := if counts then s.keptStatus.getD s.status else s.status, keptStatus := none,
             skip := .none, loops := 0 }

/-- Ends the process after an interruption. What is set for the end is run before. -/
def endProcess {α : Type} (i : Interruption) : Run α := do
  settle i
  let status := (← get).status
  modify (fun s => { s with keptStatus := some status })
  if let some t := ← trap? 0 then
    modify (fun s => { s with traps := s.traps.filter (·.1 != 0), skip := .none })
    match ← attempt (runText self t .plain) with
    | .ok _ => settle .exited
    | .error i => settle i
  flush
  leave (← get).status

/-! ### Other processes -/

/-- The device that holds nothing. -/
def nothingFile : Raw := txt "/dev/null"

/-- What a copy of a script does at first. A process in the background is not interrupted from the terminal, and the
    first one of a job has no input there. -/
def becomeCopy (background isFirst : Bool) : Run Unit := do
  modify (fun s => { s with isRoot := false, moved := [], jobs := [], waitingOutput := [], outputFailed := false })
  clearTraps
  if background then
    ignore Signal.interrupt
    ignore Signal.quit
    if isFirst then
      let _ ← ask (.close 0)
      let _ ← ask (.openFile .read nothingFile)

/-- Starts a copy of the script that does something and ends. -/
def start (background isFirst : Bool) (body : Run Unit) : Run Pid := do
  let copy : Run Unit := do
    becomeCopy background isFirst
    match ← attempt body with
    | .ok () => endProcess self .ended
    | .error i => endProcess self i
  monadLift (Action.fork (StateT.run (ExceptT.run copy) (← get) (fun _ => .exit 0)))

/-- Makes a descriptor another one, which is closed. -/
def moveDescriptor (source fd : Nat) : Run Unit := do
  if source ≠ fd then
    let _ ← ask (.bind source fd)
    let _ ← ask (.close source)

/-- All that can be read from a descriptor. -/
def readAll (fd : Nat) : Nat → Raw → Run Raw
  | 0, t => return t
  | fuel+1, t => do
    match ← ask (.read fd 4096) with
    | .ok [] => return t
    | .ok b => readAll fd fuel (t ++ Raw.ofBytes b)
    | .error e =>
      if e = Errno.interrupted then
        breathe
        readAll fd fuel t
      else return t

/-- The output of a command, which runs in a process of its own. -/
def capture (t : Option Tree) : Run Raw := do
  match t with
  | none => return []
  | some t =>
    let (r,w) ← ask .pipe
    let pid ← start self false true do
      let _ ← ask (.close r)
      moveDescriptor w 1
      let _ ← self (some t) .final
    let _ ← ask (.close w)
    let job ← newJob [pid]
    let out ← readAll r rounds []
    let _ ← ask (.close r)
    let status ← waitForeground job
    modify (fun s => { s with outputStatus := status })
    return out

end
end Run
end Script
end JobShell
