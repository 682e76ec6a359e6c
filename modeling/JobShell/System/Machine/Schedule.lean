import JobShell.System.Machine.Answer

/-!
# Time and turns

Every process does a step in its turn. When none can, the clock goes on to the
time when the next one is to do something.
-/
namespace JobShell
namespace Machine

/-- Writes what a shell has still to write. -/
def flush (m : Machine) (p : Process) (d : DescriptionId) (b : Bytes) (rest : List (DescriptionId × Bytes)) :
    Option Machine :=
  match m.write d b with
  | .wait => none
  | .written left m =>
    some (m.update p.pid (fun q => { q with pending := if left.isEmpty then rest else (d,left) :: rest }))
  | .failed e =>
    if e = Errno.brokenPipe then some (m.finish p.pid (WaitStatus.signaled Signal.brokenPipe))
    else some (m.update p.pid (fun q => { q with pending := rest }))

/-- The machine with a process that goes on with a program. -/
def goOn (m : Machine) (pid : Pid) (q : Program) : Machine :=
  m.update pid (fun p => if p.hasEnded then p else { p with task := .program q })

/-- A step of a program; none when it must wait. -/
def stepProgram (m : Machine) (p : Process) : Program → Option Machine
  | .exit code => some (m.finish p.pid (WaitStatus.exited code))
  | .ask c next =>
    match m.answer p c with
    | .answered a m => some (m.goOn p.pid (next a))
    | .partly left same m => some (m.goOn p.pid (.ask left (fun a => next (same ▸ a))))
    | .waiting => none
  | .fork copy next => some (m.forkProgram p copy next)
  | .execute path args environment next => some (m.executeProgram p path args environment next)

/-- A step of a process; none when it must wait. -/
def step (m : Machine) (p : Process) : Option Machine :=
  if p.state != .running || m.clock < p.ready then none
  else match p.pending with
    | (d,b) :: rest => m.flush p d b rest
    | [] =>
      match p.task with
      | .program q => m.stepProgram p q
      | .shell => none

/-- How long a step takes. -/
def stepTime : Nat := 10

/-- Every process does a step in its turn, after the groups that nobody looks after were hung up; whether anything
    happened. -/
def round (m : Machine) : Bool × Machine :=
  (m.processes.filter Process.isActive).foldl (fun acc p =>
    match (acc.2.process? p.pid).bind acc.2.step with
    | some m => (true,{ m with clock := m.clock + stepTime })
    | none => acc) (!m.abandoned.isEmpty,m.hangUp)

/-- The next time at which a process does something. -/
def nextWake? (m : Machine) : Option Nat :=
  (m.processes.filterMap fun p => if p.state == .running && m.clock < p.ready then some p.ready else none).min?

/-- Lets the processes go on until something holds, or nothing can happen any more before a time. -/
def runUntil (holds : Machine → Bool) (deadline : Option Nat) : Nat → Machine → Machine
  | 0, m => m
  | fuel+1, m =>
    if holds m || deadline.any (fun t => t ≤ m.clock) then m
    else
      let (moved,after) := m.round
      if moved then runUntil holds deadline fuel after
      else match m.nextWake?, deadline with
        | some wake, some t => runUntil holds deadline fuel { m with clock := max m.clock (min wake t) }
        | some wake, none => runUntil holds deadline fuel { m with clock := max m.clock wake }
        | none, some t => { m with clock := max m.clock t }
        | none, none => m

/-- How many rounds are waited for at most. -/
def roundLimit : Nat := 10000000

/-- Lets the processes go on until something holds. -/
def waitFor (m : Machine) (holds : Machine → Bool) : Machine := runUntil holds none roundLimit m

/-- Lets time pass. -/
def pass (m : Machine) (microseconds : Nat) : Machine :=
  runUntil (fun _ => false) (some (m.clock + microseconds)) roundLimit m

end Machine
end JobShell
