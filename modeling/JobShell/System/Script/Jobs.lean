import JobShell.System.Script.State

/-!
# Jobs and signals of scripts

A script waits for the processes that it has started, and says so when a signal
has ended one of them. Signals for which something is to be run are remembered
until there is time for it.
-/
namespace JobShell
namespace Script
namespace Run

/-! ### Signals -/

/-- What is run when a signal comes. -/
def trap? (n : Nat) : Run (Option Raw) := do return ((← get).traps.find? (·.1 == n)).map Prod.snd

/-- Whether something is run when some signal comes. -/
def hasTraps : Run Bool := do return (← get).traps.any (fun t => !t.2.isEmpty)

/-- Arranges what a signal does, as the script wants it. A signal that was ignored before the script began stays so. -/
def arrange (n : Nat) : Run Unit := do
  let s ← get
  let wanted : Disposition := match (s.traps.find? (·.1 == n)).map Prod.snd with
    | none => .standard
    | some t => if t.isEmpty then .ignored else .caught
  let current := (s.arranged.find? (·.1 == n)).map Prod.snd
  if s.ignored.contains n || current = some wanted then return
  else
    let before ← ask (.arrange n wanted)
    if current.isNone && before = .ignored then
      let _ ← ask (.arrange n .ignored)
      modify (fun s => { s with ignored := n :: s.ignored })
    else modify (fun s => { s with arranged := (n,wanted) :: s.arranged.filter (·.1 != n) })

/-- Makes a signal do nothing, whatever is arranged for it. -/
def ignore (n : Nat) : Run Unit := do
  if !(← get).ignored.contains n then
    let _ ← ask (.arrange n .ignored)
    modify (fun s => { s with ignored := n :: s.ignored })

/-- Sets what is run when a signal comes. -/
def setTrap (n : Nat) (action : Option Raw) : Run Unit := do
  modify fun s =>
    let others := s.traps.filter (·.1 != n)
    { s with traps := match action with
        | some t => (n,t) :: others
        | none => others }
  if n ≠ 0 then arrange n

/-- Forgets what is run when signals come. Signals that do nothing still do nothing. -/
def clearTraps : Run Unit := do
  let gone := (← get).traps.filter (fun t => !t.2.isEmpty)
  modify (fun s => { s with traps := s.traps.filter (·.2.isEmpty), arrived := [], pending := none })
  for t in gone do
    if t.1 ≠ 0 then arrange t.1

/-- Takes the signals that were caught. Each is remembered once, however often it came. -/
def takeCaught : Run (List Nat) := do
  let l ← ask .caught
  if !l.isEmpty then
    modify fun s => { s with arrived := s.arrived.filter (fun n => !l.contains n) ++ l, pending := l.getLast? }
  return l

/-- Notes the signals that have come. -/
def noteSignals : Run Unit := do
  if (← get).traps.any (fun t => t.1 ≠ 0 && !t.2.isEmpty) then
    let _ ← takeCaught

/-! ### Jobs -/

/-- A new job with processes. Its number is the least that is free. -/
def newJob (pids : List Pid) : Run Nat := do
  let kept := (← get).jobs.filter (fun j => !(j.isDone && j.waited))
  let number := ((List.range (kept.length + 1)).map (· + 1)).find? (fun n => !kept.any (·.number == n)) |>.getD 1
  modify (fun s => { s with jobs := ⟨number,pids.map (·,none),false⟩ :: kept })
  return number

/-- The job of a number. -/
def job? (number : Nat) : Run (Option ScriptJob) := do return (← get).jobs.find? (·.number == number)

/-- Changes a job. -/
def modifyJob (number : Nat) (f : ScriptJob → ScriptJob) : Run Unit :=
  modify (fun s => { s with jobs := s.jobs.map (fun j => if j.number = number then f j else j) })

/-- Forgets a job. -/
def forgetJob (number : Nat) : Run Unit :=
  modify (fun s => { s with jobs := s.jobs.filter (·.number != number) })

/-- A job after the end of a process. -/
def ScriptJob.note (pid : Pid) (status : WaitStatus) (j : ScriptJob) : ScriptJob :=
  { j with processes := j.processes.map (fun p => if p.1 = pid && p.2.isNone then (pid,some status) else p) }

/-- What is said of a process of the job that is waited for, when a signal has ended it. -/
def sayEnd (status : WaitStatus) : Run Unit := do
  if WaitStatus.isSignaled status then
    let n := WaitStatus.signal status
    if n ≠ Signal.interrupt && n ≠ Signal.brokenPipe then say 2 ((Signal.description n).take 31 ++ ['\n'])

/-- The process has ended. Something may be said if it belongs to the job that is waited for. -/
def noteEnd (waitedFor : Option Nat) (pid : Pid) (status : WaitStatus) : Run Unit := do
  let owner := (← get).jobs.find? (fun j => j.processes.any (fun p => p.1 = pid && p.2.isNone))
  match owner with
  | some j =>
    modifyJob j.number (ScriptJob.note pid status)
    if waitedFor = some j.number then sayEnd status
  | none => pure ()

/-- Waits until a job is done. -/
def awaitJob (number : Nat) : Nat → Run Unit
  | 0 => return
  | fuel+1 => do
    match ← job? number with
    | none => return
    | some j =>
      if j.isDone then return
      else match ← ask (.wait none true) with
        | .changed pid status =>
          noteEnd (some number) pid status
          awaitJob number fuel
        | .interrupted =>
          let _ ← takeCaught
          awaitJob number fuel
        | .noChild | .unchanged =>
          modifyJob number (fun j => { j with processes := j.processes.map (fun p => (p.1,some (p.2.getD 0))) })

/-- Whether an interrupt has to wait until a job is done. -/
def delaysInterrupt : Run Bool := do
  let s ← get
  return s.isRoot && s.fromText && !s.ignored.contains Signal.interrupt && !s.traps.any (·.1 == Signal.interrupt)

/-- Waits for a job in the foreground, and forgets it. An interrupt that comes meanwhile ends the script afterwards. -/
def waitForeground (number : Nat) : Run Nat := do
  let delays ← delaysInterrupt
  if delays then
    let before ← ask (.arrange Signal.interrupt .caught)
    if before = .ignored then
      let _ ← ask (.arrange Signal.interrupt .ignored)
      modify (fun s => { s with ignored := Signal.interrupt :: s.ignored })
  awaitJob number rounds
  if delays && !(← get).ignored.contains Signal.interrupt then
    let _ ← ask (.arrange Signal.interrupt .standard)
    let _ ← takeCaught
    let came := (← get).arrived
    let others := came.filter (· != Signal.interrupt)
    modify (fun s => { s with arrived := others, pending := if others.isEmpty then none else s.pending })
    if came.contains Signal.interrupt then
      let (pid,_,_) ← ask .identity
      let _ ← ask (.signal pid Signal.interrupt)
  let status := ((← job? number).map ScriptJob.status).getD 0
  forgetJob number
  return status

/-- The job that a text names: by its number, or the last one. -/
def namedJob? (t : Raw) : Run (Option ScriptJob) := do
  let jobs := (← get).jobs
  match t with
  | ['%'] | ['%','%'] | ['%','+'] => return jobs.head?
  | ['%','-'] => return jobs[1]?
  | '%' :: r => return (Numeral.readDigits r).bind (fun n => jobs.find? (·.number == n))
  | _ => return none

end Run
end Script
end JobShell
