import JobShell.System.Script.Builtin.Basic
import JobShell.System.Script.Jobs

/-!
# Commands for signals, jobs and the course of a script

`trap` says what is run when signals come and `kill` sends them, `wait` and
`jobs` are about processes in the background, and the others leave loops,
functions or the script itself.
-/
namespace JobShell
namespace Script
namespace Run

/-! ### Signals -/

/-- The name of a signal; the end of the script counts as one. -/
def signalName (n : Nat) : Raw :=
  let last := Signal.greatest
  if n = 0 then txt "EXIT"
  else if n = 16 then txt "16"
  else if n = 29 then txt "IO"
  else match Signal.name? n with
    | some t => t
    | none =>
      if n < Signal.firstFree then Numeral.ofNat n
      else if n = Signal.firstFree then txt "RTMIN"
      else if n < 50 then txt "RTMIN+" ++ Numeral.ofNat (n - Signal.firstFree)
      else if n < last then txt "RTMAX-" ++ Numeral.ofNat (last - n)
      else txt "RTMAX"

/-- The signal of a number. -/
def numberedSignal? (t : Raw) : Option Nat := (Numeral.readDigits t).filter (· ≤ Signal.greatest)

/-- The signal of a number or a name, no name of a signal below some number being known. -/
def signalOf? (least : Nat) (t : Raw) : Option Nat :=
  match numberedSignal? t with
  | some n => some n
  | none =>
    let all := (List.range (Signal.greatest + 1)).drop least
    all.find? (fun n => signalName n == t.map Char.toUpper)

/-- The command `trap`. -/
def trap (args : List Raw) : Run Nat := do
  match ← operands args with
  | [] =>
    for n in List.range (Signal.greatest + 1) do
      if let some t := ← trap? n then
        put (txt "trap -- " ++ singleQuoted t ++ ' ' :: signalName n ++ ['\n'])
    return 0
  | a :: r =>
    let (action,names) := if r.isEmpty || (numberedSignal? a).isSome then (none,a :: r) else (some a,r)
    setAll (if action = some ['-'] then none else action) names
where
  /-- Sets what is run for signals. -/
  setAll (action : Option Raw) : List Raw → Run Nat
    | [] => return 0
    | name :: r => do
      match signalOf? 0 name with
      | some n =>
        setTrap n action
        setAll action r
      | none =>
        say 2 (txt "trap: " ++ name ++ txt ": bad trap\n")
        return 1

/-- The job that a text names. -/
def namedJob (t : Raw) : Run ScriptJob := do
  let jobs := (← get).jobs
  match t with
  | ['%'] | ['%','%'] | ['%','+'] => if let some j := jobs.head? then return j else fail (txt "No current job")
  | ['%','-'] => if let some j := jobs[1]? then return j else fail (txt "No previous job")
  | t =>
    match ← namedJob? t with
    | some j => return j
    | none => fail (txt "No such job: " ++ t)

/-- How `kill` is called. -/
def killUsage : Raw := txt "Usage: kill [-s sigspec | -signum | -sigspec] [pid | job]... or\nkill -l [exitstatus]"

/-- The number of a process or a group. -/
def killTarget (t : Raw) : Run Pid := do
  match t with
  | '%' :: _ => return -(((← namedJob t).processes.head?.map Prod.fst).getD 0)
  | '-' :: r => return -(Int.ofNat (← number r))
  | t => return Int.ofNat (← number t)

/-- The command `kill`. -/
def kill (args : List Raw) : Run Nat := do
  if args.isEmpty then fail killUsage
  let (listing,signo,targets) ← (do
    match args with
    | ('-' :: name) :: r =>
      if let some n := signalOf? 1 name then return (false,some n,r)
      else
        let (given,rest) ← options ['l'] ['s'] args
        let signo ← chosen given
        return (given.any (·.1 == 'l'),signo,rest)
    | _ => return (false,none,args) : Run (Bool × Option Nat × List Raw))
  if listing then
    if signo.isSome && !targets.isEmpty then fail killUsage
    match targets with
    | [] => put (Text.join [] (['0','\n'] :: ((List.range Signal.greatest).map (fun n => signalName (n + 1) ++ ['\n']))))
    | t :: _ =>
      let n ← number t
      let n := if n > 128 then n - 128 else n
      if 0 < n && n ≤ Signal.greatest then put (signalName n ++ ['\n'])
      else fail (txt "invalid signal number or exit status: " ++ t)
    return 0
  else
    if targets.isEmpty then fail killUsage
    sendAll (signo.getD Signal.terminate) targets 0
where
  /-- The signal that options choose. -/
  chosen : List (Char × Raw) → Run (Option Nat)
    | [] => return none
    | ('s',v) :: r => do
      match signalOf? 1 v with
      | some n => return (← chosen r).or (some n)
      | none => fail (txt "invalid signal number or name: " ++ v)
    | _ :: r => chosen r
  /-- Sends a signal to processes, one after the other. -/
  sendAll (n : Nat) : List Raw → Nat → Run Nat
    | [], status => return status
    | t :: r, status => do
      let pid ← killTarget t
      match ← ask (.signal pid n) with
      | none => sendAll n r status
      | some e =>
        warn (e.message ++ ['\n'])
        sendAll n r 1

/-! ### Jobs -/

/-- Waits until something is done; the signal that came meanwhile, if there is something to run for it. Something may
    be said of the job that is waited for. -/
def awaitChange (job : Option Nat) (isDone : Run Bool) : Nat → Run (Option Nat)
  | 0 => return none
  | fuel+1 => do
    if ← isDone then return none
    else
      noteSignals
      match (← get).pending with
      | some n => return some n
      | none =>
        match ← ask (.wait none true) with
        | .changed pid status =>
          noteEnd job pid status
          awaitChange job isDone fuel
        | .interrupted => awaitChange job isDone fuel
        | .noChild | .unchanged => return none

/-- Waits for the jobs that arguments name, one after the other. -/
def waitNamed : List Raw → Nat → Run Nat
  | [], status => return status
  | a :: r, status => do
    let job ← (do
      if a.head? = some '%' then return some (← namedJob a)
      else
        let pid := Int.ofNat (← number a)
        return (← get).jobs.find? (fun j => (j.processes.getLast?).any (·.1 == pid)) : Run (Option ScriptJob))
    match job with
    | none => waitNamed r status
    | some j =>
      match ← awaitChange (some j.number) (do return ((← job? j.number).map ScriptJob.isDone).getD true) rounds with
      | some n => return 128 + n
      | none =>
        modifyJob j.number (fun j => { j with waited := true })
        waitNamed r (((← job? j.number).map ScriptJob.status).getD 0)

/-- The command `wait`. -/
def wait (args : List Raw) : Run Nat := do
  match ← operands args with
  | [] =>
    match ← awaitChange none (do return (← get).jobs.all ScriptJob.isDone) rounds with
    | some n => return 128 + n
    | none =>
      modify (fun s => { s with jobs := s.jobs.map (fun j => { j with waited := true }) })
      return 0
  | args => waitNamed args 127

/-- Notes the processes that have ended. -/
def noteEnds : Nat → Run Unit
  | 0 => return
  | fuel+1 => do
    match ← ask (.wait none false) with
    | .changed pid status =>
      noteEnd none pid status
      noteEnds fuel
    | _ => return

/-- How the state of a job is shown. -/
def stateText (j : ScriptJob) : Raw :=
  if !j.isDone then txt "Running"
  else
    let raw := ((j.processes.getLast?).bind Prod.snd).getD 0
    if WaitStatus.isSignaled raw then (Signal.description (WaitStatus.signal raw)).take 31
    else if j.status = 0 then txt "Done"
    else txt "Done(" ++ Numeral.ofNat j.status ++ [')']

/-- Shows a job. One that is done is forgotten. -/
def showJob (mode : Option Char) (j : ScriptJob) : Run Unit := do
  let pid := fun (p : Pid × Option WaitStatus) => Numeral.ofInt p.1
  match mode with
  | some 'p' => put (((j.processes.head?).map pid).getD [] ++ ['\n'])
  | _ =>
    let jobs := (← get).jobs
    let isAt := fun (n : Nat) => (jobs[n]?).any (·.number == j.number)
    let mark := if isAt 0 then '+' else if isAt 1 then '-' else ' '
    let front := '[' :: Numeral.ofNat j.number ++ ']' :: ' ' :: mark :: [' ']
    let first := if mode.isSome then ((j.processes.head?).map pid).getD [] ++ [' '] else []
    let fill := fun (t : Raw) => t ++ List.replicate (max 1 (33 - t.length)) ' '
    put (fill (front ++ first ++ stateText j))
    for p in j.processes.tail do
      if mode.isSome then
        let line := List.replicate (front.length) ' ' ++ pid p ++ [' ']
        put (txt " |\n" ++ fill line)
      else put (txt " | ")
    put ['\n']
    if j.isDone then forgetJob j.number

/-- The command `jobs`. -/
def jobs (args : List Raw) : Run Nat := do
  let (given,args) ← options ['l','p'] [] args
  let mode := given.getLast?.map Prod.fst
  if args.isEmpty then
    noteEnds rounds
    for j in (← get).jobs do showJob mode j
  else
    for a in args do showJob mode (← namedJob a)
  return 0

/-- The commands `fg` and `bg`, for which there is nothing to do in a script. -/
def resumeJob (args : List Raw) : Run Nat := do
  match ← operands args with
  | [] =>
    if (← get).jobs.isEmpty then fail (txt "No current job")
    fail (txt "job (null) not created under job control")
  | a :: _ =>
    let _ ← namedJob a
    fail (txt "job " ++ a ++ txt " not created under job control")

/-! ### The course of a script -/

/-- The command `exit`. -/
def exit (args : List Raw) : Run Nat := do
  if let a :: _ := args then
    let n ← number a
    modify (fun s => { s with keptStatus := some n })
  raise .exited

/-- The command `return`. -/
def returnFrom (args : List Raw) : Run Nat := do
  match args with
  | a :: _ =>
    let n ← number a
    modify (fun s => { s with skip := .function true })
    return n
  | [] =>
    modify (fun s => { s with skip := .function false })
    return (← get).status

/-- The commands `break` and `continue`. -/
def leaveLoops (goesOn : Bool) (args : List Raw) : Run Nat := do
  let n ← (match args with
    | a :: _ => number a
    | [] => return 1 : Run Nat)
  if n = 0 then fail (txt "Illegal number: " ++ args.head?.getD [])
  let count := min n (← get).loops
  if count > 0 then
    modify (fun s => { s with skip := if goesOn then .passes count else .loops count })
  return 0

end Run
end Script
end JobShell
